import OciWrapper.Text.Search

namespace OciWrapper.Text

/-- A tag that is searched for: it opens a bracket at its start and nowhere else. -/
structure Tag (needle : CString) : Prop where
  opens : needle.head? = some '<'
  once : '<' ∉ needle.tail

instance (needle : CString) : Decidable (Tag needle) :=
  decidable_of_iff (needle.head? = some '<' ∧ '<' ∉ needle.tail)
    ⟨fun both => ⟨both.1, both.2⟩, fun tag => ⟨tag.opens, tag.once⟩⟩

def Absent (needle s : CString) : Prop := strstr needle s = none

instance (needle s : CString) : Decidable (Absent needle s) :=
  inferInstanceAs (Decidable (strstr needle s = none))

/-- A text that ends, or goes on with a bracket. -/
def Bracketed (s : CString) : Prop := s = [] ∨ s.head? = some '<'

section Search

variable {needle opening closing p s t : CString}

theorem Tag.ne_nil (tag : Tag needle) : needle ≠ [] := by
  rintro rfl
  cases tag.opens

theorem strstr_here (s : CString) (tag : Tag needle) :
    strstr needle (needle ++ s) = some (needle ++ s) := by
  obtain ⟨c, n, rfl⟩ := List.exists_cons_of_ne_nil tag.ne_nil
  rw [List.cons_append, strstr, ← List.cons_append,
    if_pos (List.isPrefixOf_iff_prefix.mpr (List.prefix_append (c :: n) s))]

theorem absent_cons {c : Char} :
    Absent needle (c :: s) ↔ ¬needle <+: c :: s ∧ Absent needle s := by
  by_cases starts : needle <+: c :: s
  · simp [Absent, strstr, starts]
  · simp [Absent, strstr, starts]

/-- A tag does not reach over a bracket. -/
theorem Tag.not_prefix_append (tag : Tag needle) (filled : p ≠ []) (bracket : Bracketed s)
    (starts : ¬needle <+: p) : ¬needle <+: p ++ s := by
  rintro ⟨after, split⟩
  rcases List.append_eq_append_iff.mp split with ⟨rest, rfl, -⟩ | ⟨rest, rfl, reaches⟩
  · exact starts (List.prefix_append needle rest)
  · cases rest with
    | nil => exact starts (by rw [List.append_nil])
    | cons d rest =>
      obtain ⟨c, p, rfl⟩ := List.exists_cons_of_ne_nil filled
      rcases bracket with none | first
      · rw [none] at reaches
        cases reaches
      · rw [reaches] at first
        have open_bracket : d = '<' := Option.some.inj first
        refine tag.once ?_
        rw [List.cons_append, List.tail_cons, open_bracket]
        exact List.mem_append_right p List.mem_cons_self

/-- A search goes over a text without the tag. -/
theorem Absent.strstr_append (absent : Absent needle p) (tag : Tag needle) (bracket : Bracketed s) :
    strstr needle (p ++ s) = strstr needle s := by
  induction p with
  | nil => rfl
  | cons c p ih =>
    obtain ⟨starts, rest⟩ := absent_cons.mp absent
    have apart : ¬needle.isPrefixOf (c :: (p ++ s)) = true := by
      rw [List.isPrefixOf_iff_prefix]
      exact tag.not_prefix_append (List.cons_ne_nil c p) bracket starts
    rw [List.cons_append, strstr, if_neg apart, ih rest]

theorem Absent.append (absent : Absent needle p) (tag : Tag needle) (bracket : Bracketed s)
    (rest : Absent needle s) : Absent needle (p ++ s) := by
  rw [Absent, absent.strstr_append tag bracket]
  exact rest

theorem Absent.of_append (absent : Absent needle (p ++ s)) : Absent needle p := by
  induction p with
  | nil =>
    cases needle with
    | nil =>
      cases s with
      | nil => exact absent
      | cons => simp [Absent, strstr] at absent
    | cons => rfl
  | cons c p ih =>
    obtain ⟨starts, rest⟩ := absent_cons.mp absent
    exact absent_cons.mpr ⟨fun inside => starts (inside.trans (List.prefix_append (c :: p) s)),
      ih rest⟩

theorem Absent.right (absent : Absent needle (p ++ s)) : Absent needle s := by
  induction p with
  | nil => exact absent
  | cons c p ih => exact ih (absent_cons.mp absent).2

theorem Absent.take (absent : Absent needle p) (n : Nat) : Absent needle (p.take n) :=
  Absent.of_append (s := p.drop n) (by rwa [List.take_append_drop])

theorem Tag.skip_plain (tag : Tag needle) (plain : '<' ∉ p) :
    strstr needle (p ++ s) = strstr needle s := by
  induction p with
  | nil => rfl
  | cons c p ih =>
    rw [List.mem_cons, not_or] at plain
    have apart : ¬needle.isPrefixOf (c :: (p ++ s)) = true := by
      rw [List.isPrefixOf_iff_prefix]
      rintro ⟨rest, split⟩
      have first := tag.opens
      obtain ⟨d, n, rfl⟩ := List.exists_cons_of_ne_nil tag.ne_nil
      have bracket : d = '<' := Option.some.inj first
      exact plain.1 (bracket.symm.trans (List.cons.inj split).1)
    rw [List.cons_append, strstr, if_neg apart, ih plain.2]

/-- A search goes over another tag, whatever follows. -/
theorem Tag.skip_other (tag : Tag needle) (other : Tag t)
    (differ : needle.take t.length ≠ t.take needle.length) :
    strstr needle (t ++ s) = strstr needle s := by
  obtain ⟨c, b, rfl⟩ := List.exists_cons_of_ne_nil other.ne_nil
  have apart : ¬needle.isPrefixOf (c :: (b ++ s)) = true := by
    rw [List.isPrefixOf_iff_prefix]
    rintro ⟨rest, split⟩
    have whole : needle ++ rest = (c :: b) ++ s := split
    have starts := congrArg (List.take (min (c :: b).length needle.length)) whole
    rw [List.take_append_of_le_length (Nat.min_le_right _ _),
      List.take_append_of_le_length (Nat.min_le_left _ _)] at starts
    refine differ ?_
    rcases Nat.le_total (c :: b).length needle.length with short | long
    · rw [Nat.min_eq_left short, List.take_length] at starts
      rw [starts, List.take_of_length_le short]
    · rw [Nat.min_eq_right long, List.take_length] at starts
      rw [← starts, List.take_of_length_le long]
  have body : '<' ∉ b := other.once
  rw [List.cons_append, strstr, if_neg apart, tag.skip_plain body]

theorem Tag.absent_plain (tag : Tag needle) (plain : '<' ∉ p) : Absent needle p := by
  have skipped := tag.skip_plain (s := []) plain
  rw [List.append_nil] at skipped
  rw [Absent, skipped, strstr, if_neg tag.ne_nil]

/-- Another tag, with the text behind it up to the next one. -/
theorem Tag.absent_other (tag : Tag needle) (other : Tag t)
    (differ : needle.take t.length ≠ t.take needle.length) (plain : '<' ∉ p) :
    Absent needle (t ++ p) := by
  rw [Absent, tag.skip_other other differ]
  exact tag.absent_plain plain

/-- What a search finds in a text it finds there whatever follows. -/
theorem strstr_append_some (found : strstr needle p = some t) :
    strstr needle (p ++ s) = some (t ++ s) := by
  induction p with
  | nil =>
    rw [strstr] at found
    split at found
    next empty =>
      cases found
      cases s <;> simp [strstr, empty]
    next => cases found
  | cons c p ih =>
    rw [strstr] at found
    split at found
    next starts =>
      cases found
      have longer : needle.isPrefixOf (c :: (p ++ s)) = true := List.isPrefixOf_iff_prefix.mpr
        ((List.isPrefixOf_iff_prefix.mp starts).trans (List.prefix_append (c :: p) s))
      rw [List.cons_append, strstr, if_pos longer]
    next apart =>
      -- A tag that reached into `s` would be longer than the one found later in `p`.
      have room : needle.length ≤ p.length :=
        ((strstr_isSome_iff needle p).mp (by rw [found]; rfl)).length_le
      have still : ¬needle.isPrefixOf (c :: (p ++ s)) = true := by
        rw [List.isPrefixOf_iff_prefix] at apart ⊢
        intro starts
        refine apart (List.prefix_of_prefix_length_le starts (List.prefix_append (c :: p) s) ?_)
        rw [List.length_cons]
        omega
      rw [List.cons_append, strstr, if_neg still, ih found]

theorem strstr_suffix (found : strstr needle s = some t) : t <:+ s := by
  induction s with
  | nil =>
    rw [strstr] at found
    split at found
    · cases found
      exact List.suffix_refl []
    · cases found
  | cons c s ih =>
    rw [strstr] at found
    split at found
    · cases found
      exact List.suffix_refl (c :: s)
    · exact (ih found).trans (List.suffix_cons c s)

theorem strstr_starts (found : strstr needle s = some t) : needle <+: t := by
  induction s with
  | nil =>
    rw [strstr] at found
    split at found
    next empty =>
      cases found
      rw [empty]
    next => cases found
  | cons c s ih =>
    rw [strstr] at found
    split at found
    next starts =>
      cases found
      exact List.isPrefixOf_iff_prefix.mp starts
    next => exact ih found

theorem strstr_self (found : strstr needle s = some t) : strstr needle t = some t := by
  induction s with
  | nil =>
    rw [strstr] at found
    split at found
    next empty =>
      cases found
      rw [strstr, if_pos empty]
    next => cases found
  | cons c s ih =>
    rw [strstr] at found
    split at found
    next starts =>
      cases found
      rw [strstr, if_pos starts]
    next => exact ih found

/-- A search stops where the needle stands, or before. -/
theorem strstr_reaches (tag : Tag needle) (p s : CString) :
    ∃ u, strstr needle (p ++ (needle ++ s)) = some (u ++ (needle ++ s)) := by
  induction p with
  | nil => exact ⟨[], strstr_here s tag⟩
  | cons c p ih =>
    rw [List.cons_append, strstr]
    split
    · exact ⟨c :: p, rfl⟩
    · exact ih

/-- A text made of tags, each with what stands behind it. -/
def unitsText (units : List (CString × CString)) : CString := units.flatMap fun u => u.1 ++ u.2

def TagUnits (units : List (CString × CString)) : Prop := ∀ u ∈ units, Tag u.1 ∧ '<' ∉ u.2

/-- The tags all differ from the one searched for, before either ends. -/
def Differ (needle : CString) (units : List (CString × CString)) : Prop :=
  ∀ u ∈ units, needle.take u.1.length ≠ u.1.take needle.length

theorem unitsText_append (a b : List (CString × CString)) :
    unitsText (a ++ b) = unitsText a ++ unitsText b := List.flatMap_append

theorem unitsText_cons (u : CString × CString) (units : List (CString × CString)) :
    unitsText (u :: units) = u.1 ++ u.2 ++ unitsText units := List.flatMap_cons

theorem Tag.skip_units {units : List (CString × CString)} (tag : Tag needle) (tags : TagUnits units)
    (differ : Differ needle units) : strstr needle (unitsText units ++ s) = strstr needle s := by
  induction units with
  | nil => rfl
  | cons u units ih =>
    obtain ⟨other, plain⟩ := tags u List.mem_cons_self
    rw [unitsText, List.flatMap_cons, List.append_assoc, List.append_assoc,
      tag.skip_other other (differ u List.mem_cons_self), tag.skip_plain plain]
    exact ih (fun v member => tags v (List.mem_cons_of_mem u member))
      fun v member => differ v (List.mem_cons_of_mem u member)

theorem Tag.absent_units {units : List (CString × CString)} (tag : Tag needle) (tags : TagUnits units)
    (differ : Differ needle units) : Absent needle (unitsText units) := by
  have skipped := tag.skip_units (s := []) tags differ
  rw [List.append_nil] at skipped
  rw [Absent, skipped, strstr, if_neg tag.ne_nil]

theorem bracketed_unitsText {units : List (CString × CString)} (tags : TagUnits units) :
    Bracketed (unitsText units) := by
  cases units with
  | nil => exact .inl rfl
  | cons u units =>
    right
    rw [unitsText, List.flatMap_cons, List.append_assoc, List.head?_append,
      (tags u List.mem_cons_self).1.opens]
    rfl

theorem Tag.bracketed (tag : Tag t) : Bracketed (t ++ s) := by
  right
  rw [List.head?_append, tag.opens]
  rfl

theorem Bracketed.append (first : Bracketed p) (second : Bracketed s) : Bracketed (p ++ s) := by
  rcases first with rfl | opens
  · exact second
  · right
    rw [List.head?_append, opens]
    rfl

/-- The text between two tags. -/
theorem contents_eq (tag : Tag opening) (tag' : Tag closing) (before : Absent opening p)
    (inside : Absent closing s) :
    contents opening closing (p ++ (opening ++ (s ++ (closing ++ t)))) = some s := by
  rw [contents, before.strstr_append tag tag.bracketed, strstr_here _ tag, Option.bind_eq_bind,
    Option.bind_some]
  dsimp only
  rw [List.drop_left, inside.strstr_append tag' tag'.bracketed, strstr_here _ tag', Option.bind_some]
  simp only [List.length_append, Nat.add_sub_cancel, List.take_left]

end Search

end OciWrapper.Text
