import OciWrapper.Text.Chars

namespace OciWrapper.Text

variable {separator : Char}

/-- The pieces of a text between its separators hold none themselves. -/
theorem not_mem_of_mem_splitOn {s piece : CString} (member : piece ∈ s.splitOn separator) :
    separator ∉ piece := by
  induction s generalizing piece with
  | nil =>
    rw [List.splitOn_nil, List.mem_singleton] at member
    rw [member]
    exact List.not_mem_nil
  | cons c s ih =>
    rw [List.splitOn_cons_eq_if_modifyHead] at member
    split at member
    next =>
      rcases List.mem_cons.mp member with rfl | later
      · exact List.not_mem_nil
      · exact ih later
    next other =>
      cases split : s.splitOn separator with
      | nil => exact (List.splitOn_ne_nil separator s split).elim
      | cons first rest =>
        rw [split, List.modifyHead_cons] at member
        rw [split] at ih
        rcases List.mem_cons.mp member with rfl | later
        · have away : separator ≠ c := by
            intro same
            rw [same, beq_self_eq_true] at other
            exact other rfl
          rw [List.mem_cons, not_or]
          exact ⟨away, ih List.mem_cons_self⟩
        · exact ih (List.mem_cons_of_mem first later)

/-- Joining puts one separator less than there are pieces. -/
theorem count_intercalate (piece : CString) (pieces : List CString) :
    ([separator].intercalate (piece :: pieces)).count separator =
      pieces.length + ((piece :: pieces).map (·.count separator)).sum := by
  induction pieces generalizing piece with
  | nil => simp
  | cons next pieces ih =>
    rw [List.intercalate_cons_cons, List.count_append, List.count_append, ih next]
    simp only [List.count_singleton_self, List.length_cons, List.map_cons, List.sum_cons]
    omega

theorem sum_count_eq_zero_iff {pieces : List CString} :
    (pieces.map (·.count separator)).sum = 0 ↔ ∀ piece ∈ pieces, separator ∉ piece := by
  rw [List.sum_eq_zero_iff]
  simp only [List.mem_map, forall_exists_index, and_imp, forall_apply_eq_imp_iff₂,
    List.count_eq_zero]

/-- A separator inside of a piece can be moved to the boundary beside it. -/
theorem exists_other_pieces {first : CString} {rest : List CString} (several : rest ≠ [])
    (inside : ∃ piece ∈ first :: rest, separator ∈ piece) :
    ∃ other, other.length = (first :: rest).length ∧ other ≠ first :: rest ∧
      [separator].intercalate other = [separator].intercalate (first :: rest) := by
  induction rest generalizing first with
  | nil => exact (several rfl).elim
  | cons next rest ih =>
    by_cases here : separator ∈ first
    · obtain ⟨before, after, rfl⟩ := List.append_of_mem here
      refine ⟨before :: (after ++ separator :: next) :: rest, rfl, ?_, ?_⟩
      · intro same
        have lengths := congrArg List.length (List.cons.inj same).1
        rw [List.length_append, List.length_cons] at lengths
        omega
      · cases rest <;> simp [List.intercalate_cons_cons]
    · have later : ∃ piece ∈ next :: rest, separator ∈ piece := by
        obtain ⟨piece, member, holds⟩ := inside
        rcases List.mem_cons.mp member with rfl | member
        · exact (here holds).elim
        · exact ⟨piece, member, holds⟩
      by_cases last : rest = []
      · subst last
        obtain ⟨piece, member, holds⟩ := later
        rw [List.mem_singleton] at member
        subst member
        obtain ⟨before, after, rfl⟩ := List.append_of_mem holds
        refine ⟨[first ++ separator :: before, after], rfl, ?_, ?_⟩
        · intro same
          have lengths := congrArg List.length (List.cons.inj same).1
          rw [List.length_append, List.length_cons] at lengths
          omega
        · simp [List.intercalate_cons_cons]
      · obtain ⟨other, length, different, joined⟩ := ih last later
        refine ⟨first :: other, by rw [List.length_cons, length]; rfl, ?_, ?_⟩
        · intro same
          exact different (List.cons.inj same).2
        · have filled : other ≠ [] := by
            rintro rfl
            cases length
          rw [List.intercalate_cons_of_ne_nil filled, joined,
            List.intercalate_cons_of_ne_nil (List.cons_ne_nil next rest)]

/-- No other pieces of that number join to the same text exactly when no piece holds the
separator. -/
theorem pieces_unique_iff {first : CString} {rest : List CString} (several : rest ≠ []) :
    (∀ other, other.length = (first :: rest).length →
      [separator].intercalate other = [separator].intercalate (first :: rest) →
      other = first :: rest) ↔ ∀ piece ∈ first :: rest, separator ∉ piece := by
  constructor
  · intro unique piece member holds
    obtain ⟨other, length, different, joined⟩ :=
      exists_other_pieces several ⟨piece, member, holds⟩
    exact different (unique other length joined)
  · intro free other length joined
    cases other with
    | nil => cases length
    | cons piece pieces =>
      have counted := congrArg (List.count separator) joined
      rw [count_intercalate, count_intercalate, sum_count_eq_zero_iff.mpr free] at counted
      have size : pieces.length = rest.length := Nat.succ.inj length
      have free' : ∀ p ∈ piece :: pieces, separator ∉ p := sum_count_eq_zero_iff.mp (by omega)
      rw [← List.splitOn_intercalate separator free' (List.cons_ne_nil piece pieces), joined,
        List.splitOn_intercalate separator free (List.cons_ne_nil first rest)]

end OciWrapper.Text
