import OciWrapper.Audit.SnapshotText

namespace OciWrapper.Audit

open OciWrapper.Text

/-- What a value leaves behind its name where `room` bytes are left, and whether the loop goes on. -/
inductive Cell (room : Nat) : CString → CString → Bool → Prop
  | null (fits : 6 ≤ room) : Cell room [] "<NULL>".toList true
  | nullLost (full : room < 6) : Cell room [] [] false
  | plain {val : CString} (filled : val ≠ []) (bare : ¬NeedsQuote val) :
      Cell room val ((escapedValue val).take room) true
  | quoteLost {val : CString} (filled : val ≠ []) (quoted : NeedsQuote val) (full : room = 0) :
      Cell room val [] false
  | quoted {val : CString} (filled : val ≠ []) (quoted : NeedsQuote val)
      (fits : (escapedValue val).length + 2 ≤ room) :
      Cell room val ('"' :: escapedValue val ++ ['"']) true
  | unclosed {val : CString} (filled : val ≠ []) (quoted : NeedsQuote val)
      (full : (escapedValue val).length + 1 = room) : Cell room val ('"' :: escapedValue val) false
  | cut {val : CString} (filled : val ≠ []) (quoted : NeedsQuote val) (least : 2 ≤ room)
      (full : room ≤ (escapedValue val).length) :
      Cell room val ('"' :: (escapedValue val).take (room - 2) ++ ['"']) true

/-- The copy of a quoted value runs over the end of the buffer. -/
def CopyWraps (room : Nat) (val : CString) : Prop := NeedsQuote val ∧ room = 1

theorem escapedValue_split (val : CString) : ∃ kept lost, val = kept ++ lost ∧
    escapedValue val = escapedText kept ∧ (escapedText kept).length < escapedSize ∧
    ∀ c ∈ lost.head?, escapedSize ≤ (escapedText kept).length + (auditEscapeChar c).length := by
  obtain ⟨kept, lost, parts, same, short, full⟩ :=
    @auditXmlEscape_split escapedSize val 0 (by decide)
  rw [Nat.zero_add] at short full
  exact ⟨kept, lost, parts, same, short, full⟩

theorem escapedValue_ne_nil {val : CString} (filled : val ≠ []) : escapedValue val ≠ [] := by
  obtain ⟨kept, lost, rfl, same, -, full⟩ := escapedValue_split val
  rw [same]
  cases kept with
  | cons c kept => exact escapedText_ne_nil (List.cons_ne_nil c kept)
  | nil =>
    cases lost with
    | nil => exact (filled rfl).elim
    | cons c lost =>
      have long := full c rfl
      have size : escapedSize = 32832 := rfl
      have most := (escape_length c).2
      simp only [escapedText, List.flatMap_nil, List.length_nil] at long
      omega

theorem escapedValue_free (val : CString) : '"' ∉ escapedValue val ∧ '<' ∉ escapedValue val := by
  obtain ⟨kept, lost, -, same, -, -⟩ := escapedValue_split val
  rw [same]
  exact escapedText_free kept

theorem escapedValue_pipe {val : CString} (bare : ¬NeedsQuote val) : '|' ∉ escapedValue val := by
  obtain ⟨kept, lost, parts, same, -, -⟩ := escapedValue_split val
  rw [same]
  refine escapedText_pipe fun pipe => bare (.inl ?_)
  rw [parts]
  exact List.mem_append_left lost pipe

/-- The value of a field is written as one of the cells, or its copy wraps. -/
theorem writeValue_spec {destMax : Nat} {dest : CString} (inside : dest.length < destMax)
    (val : CString) :
    (writeValue destMax dest val = none ∧ CopyWraps (destMax - 1 - dest.length) val) ∨
    ∃ text more, Cell (destMax - 1 - dest.length) val text more ∧
      writeValue destMax dest val = some (dest ++ text, more) := by
  by_cases empty : val = []
  · subst empty
    right
    by_cases full : destMax ≤ dest.length + 6
    · exact ⟨[], false, .nullLost (by omega), by simp [writeValue, full]⟩
    · exact ⟨_, true, .null (by omega), by simp [writeValue, full]⟩
  · have filled := List.length_pos_of_ne_nil (escapedValue_ne_nil empty)
    by_cases quote : NeedsQuote val
    · by_cases full : destMax ≤ dest.length + 1
      · right
        exact ⟨[], false, .quoteLost empty quote (by omega), by simp [writeValue, empty, quote, full]⟩
      · have opened : (dest ++ ['"']).length = dest.length + 1 := by simp
        rw [writeValue, if_neg empty, if_pos quote, if_neg full, copyEscaped, opened]
        by_cases fits : dest.length + 1 + (escapedValue val).length < destMax
        · right
          rw [if_pos fits, Option.bind_eq_bind, Option.bind_some]
          by_cases last : destMax ≤ (dest ++ ['"'] ++ escapedValue val).length + 1
          · have length := last
            rw [List.length_append, opened] at length
            refine ⟨_, false, .unclosed empty quote (by omega), ?_⟩
            rw [if_pos last, List.append_assoc]
            rfl
          · have length := last
            rw [List.length_append, opened] at length
            refine ⟨_, true, .quoted empty quote (by omega), ?_⟩
            rw [if_neg last, List.append_assoc, List.append_assoc]
            rfl
        · rw [if_neg fits]
          by_cases wraps : destMax < dest.length + 1 + 2
          · left
            rw [if_pos wraps]
            exact ⟨rfl, quote, by omega⟩
          · right
            rw [if_neg wraps, Option.bind_eq_bind, Option.bind_some]
            have amount : destMax - (dest.length + 1) - 2 = destMax - 1 - dest.length - 2 := by omega
            have written : (dest ++ ['"'] ++ (escapedValue val).take
                (destMax - 1 - dest.length - 2)).length = destMax - 2 := by
              rw [List.length_append, opened, List.length_take]
              omega
            have closes : ¬destMax ≤ destMax - 2 + 1 := by omega
            rw [amount, written, if_neg closes]
            exact ⟨_, true, .cut empty quote (by omega) (by omega), by simp⟩
    · right
      refine ⟨_, true, .plain empty quote, ?_⟩
      rw [writeValue, if_neg empty, if_neg quote, copyEscaped]
      by_cases fits : dest.length + (escapedValue val).length < destMax
      · have whole : (escapedValue val).take (destMax - 1 - dest.length) = escapedValue val :=
          List.take_of_length_le (by omega)
        rw [if_pos fits, whole]
        rfl
      · have amount : destMax - dest.length - 1 = destMax - 1 - dest.length := by omega
        rw [if_neg fits, if_neg (by omega), amount]
        rfl

theorem Cell.unwrapped {room : Nat} {val text : CString} {more : Bool}
    (cell : Cell room val text more) : ¬CopyWraps room val := by
  rintro ⟨quote, one⟩
  cases cell with
  | null => exact quote.elim (fun member => by cases member) (fun member => by cases member)
  | nullLost => exact quote.elim (fun member => by cases member) (fun member => by cases member)
  | plain filled bare => exact bare quote
  | quoteLost filled _ full => omega
  | quoted filled _ fits => omega
  | unclosed filled _ full =>
    have least := List.length_pos_of_ne_nil (escapedValue_ne_nil filled)
    omega
  | cut filled _ least => omega

theorem Cell.functional {room : Nat} {val text text' : CString} {more more' : Bool}
    (cell : Cell room val text more) (cell' : Cell room val text' more') :
    text = text' ∧ more = more' := by
  cases cell with
  | null fits =>
    cases cell' with
    | null => exact ⟨rfl, rfl⟩
    | nullLost full => omega
    | plain filled | quoteLost filled | quoted filled | unclosed filled | cut filled =>
      exact (filled rfl).elim
  | nullLost full =>
    cases cell' with
    | null fits => omega
    | nullLost => exact ⟨rfl, rfl⟩
    | plain filled | quoteLost filled | quoted filled | unclosed filled | cut filled =>
      exact (filled rfl).elim
  | plain filled bare =>
    cases cell' with
    | null | nullLost => exact (filled rfl).elim
    | plain => exact ⟨rfl, rfl⟩
    | quoteLost _ quote | quoted _ quote | unclosed _ quote | cut _ quote => exact (bare quote).elim
  | quoteLost filled quote full =>
    cases cell' with
    | null | nullLost => exact (filled rfl).elim
    | plain _ bare => exact (bare quote).elim
    | quoteLost => exact ⟨rfl, rfl⟩
    | quoted | unclosed | cut => omega
  | quoted filled quote fits =>
    cases cell' with
    | null | nullLost => exact (filled rfl).elim
    | plain _ bare => exact (bare quote).elim
    | quoted => exact ⟨rfl, rfl⟩
    | quoteLost | unclosed | cut => omega
  | unclosed filled quote full =>
    cases cell' with
    | null | nullLost => exact (filled rfl).elim
    | plain _ bare => exact (bare quote).elim
    | unclosed => exact ⟨rfl, rfl⟩
    | quoteLost | quoted | cut => omega
  | cut filled quote least full =>
    cases cell' with
    | null | nullLost => exact (filled rfl).elim
    | plain _ bare => exact (bare quote).elim
    | cut => exact ⟨rfl, rfl⟩
    | quoteLost | quoted | unclosed => omega

theorem Cell.written {destMax : Nat} {dest val text : CString} {more : Bool}
    (inside : dest.length < destMax) (cell : Cell (destMax - 1 - dest.length) val text more) :
    writeValue destMax dest val = some (dest ++ text, more) := by
  rcases writeValue_spec inside val with ⟨-, wraps⟩ | ⟨text', more', cell', same⟩
  · exact (cell.unwrapped wraps).elim
  · obtain ⟨rfl, rfl⟩ := cell.functional cell'
    exact same

end OciWrapper.Audit
