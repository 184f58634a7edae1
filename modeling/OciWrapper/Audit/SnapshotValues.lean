import OciWrapper.Audit.SnapshotCells

namespace OciWrapper.Audit

open OciWrapper.Text

/-- The escape has room in its buffer, and also for another character where the value can have one
more. -/
def EscapeFits (val : CString) : Prop :=
  (escapedText val).length + 6 < escapedSize ∨
    (val.length + 1 = auditMaxColValue ∧ (escapedText val).length < escapedSize)

/-- The escape of the value is that of no other. -/
def Clear (val : CString) : Prop := (∀ c ∈ val, ¬IsBlank c) ∧ EscapeFits val

/-- A value as it stands in a text that has room for it. -/
def fieldText (val : CString) : CString :=
  if val = [] then "<NULL>".toList
  else if NeedsQuote val then '"' :: escapedText val ++ ['"']
  else escapedText val

section Values

variable {val other : CString}

theorem EscapeFits.escaped (fits : EscapeFits val) : escapedValue val = escapedText val := by
  refine auditXmlEscape_whole val ?_
  rcases fits with short | ⟨-, short⟩
  · omega
  · omega

theorem Clear.escaped (clear : Clear val) : escapedValue val = escapedText val := clear.2.escaped

theorem escapedText_inj (visible : ∀ c ∈ val, ¬IsBlank c)
    (same : escapedText other = escapedText val) : other = val := by
  have whole : escapedText val ++ [] = escapedText other := by rw [List.append_nil, same]
  obtain ⟨more, rfl, none⟩ := escapedText_prefix visible whole
  have empty : more = [] := by
    by_contra filled
    exact escapedText_ne_nil filled none.symm
  rw [empty, List.append_nil]

theorem Clear.unique (clear : Clear val) (small : other.length < auditMaxColValue)
    (same : escapedValue other = escapedText val) : other = val := by
  obtain ⟨kept, lost, rfl, written, -, full⟩ := escapedValue_split other
  rw [written] at same
  have first : kept = val := escapedText_inj clear.1 same
  subst first
  cases lost with
  | nil => exact List.append_nil kept
  | cons c lost =>
    have room := full c rfl
    have most := (escape_length c).2
    rw [List.length_append, List.length_cons] at small
    rcases clear.2 with short | ⟨long, -⟩
    · omega
    · omega

theorem auditXmlEscape_replace {destMax : Nat} {c d : Char}
    (same : auditEscapeChar c = auditEscapeChar d) (before after : CString) :
    ∀ {wi : Nat}, auditXmlEscape destMax wi (before ++ c :: after) =
      auditXmlEscape destMax wi (before ++ d :: after) := by
  induction before with
  | nil =>
    intro wi
    rw [List.nil_append, List.nil_append, auditXmlEscape, auditXmlEscape, same]
  | cons b before ih =>
    intro wi
    rw [List.cons_append, List.cons_append, auditXmlEscape, auditXmlEscape, ih]

theorem escapedValue_drop_last {s : CString} {d : Char}
    (full : escapedSize ≤ (escapedText s).length + (auditEscapeChar d).length) :
    escapedValue (s ++ [d]) = escapedValue s :=
  auditXmlEscape_drop_last s d (by omega)

/-- Another value that is escaped and quoted in the same way. -/
structure Twin (val other : CString) : Prop where
  different : other ≠ val
  filled : other ≠ []
  small : other.length < auditMaxColValue
  kind : NeedsQuote other ↔ NeedsQuote val
  escaped : escapedValue other = escapedValue val

theorem needsQuote_append (s t : CString) :
    NeedsQuote (s ++ t) ↔ NeedsQuote s ∨ NeedsQuote t := by
  simp only [NeedsQuote, List.mem_append]
  tauto

theorem needsQuote_cons (c : Char) (s : CString) :
    NeedsQuote (c :: s) ↔ NeedsQuote [c] ∨ NeedsQuote s :=
  needsQuote_append [c] s

theorem blank_twin {before after : CString} {c : Char} (blank : IsBlank c)
    (small : (before ++ c :: after).length < auditMaxColValue) :
    ∃ other, Twin (before ++ c :: after) other := by
  have swap : ∃ d, d ≠ c ∧ auditEscapeChar c = auditEscapeChar d ∧
      (NeedsQuote [d] ↔ NeedsQuote [c]) := by
    rcases blank with rfl | rfl | rfl
    · exact ⟨'\n', by decide, by decide, by decide⟩
    · exact ⟨' ', by decide, by decide, by decide⟩
    · exact ⟨' ', by decide, by decide, by decide⟩
  obtain ⟨d, different, same, kind⟩ := swap
  refine ⟨before ++ d :: after, ?_, by simp, ?_, ?_, ?_⟩
  · intro equal
    exact different (List.cons.inj (List.append_cancel_left equal)).1
  · rw [List.length_append, List.length_cons] at small ⊢
    exact small
  · rw [needsQuote_append, needsQuote_append, needsQuote_cons d, needsQuote_cons c, kind]
  · exact (auditXmlEscape_replace same before after).symm

/-- A character of the same kind and width. -/
def otherMark (c : Char) : Char := if c = '|' then '=' else '|'

theorem crowded_twin (filled : val ≠ []) (small : val.length < auditMaxColValue)
    (crowded : ¬EscapeFits val) : ∃ other, Twin val other := by
  have size : escapedSize = 32832 := rfl
  have bound : auditMaxColValue = 32768 := rfl
  rw [EscapeFits, not_or, not_and] at crowded
  obtain ⟨narrow, long⟩ := crowded
  by_cases full : val.length + 1 = auditMaxColValue
  · have cut := long full
    obtain ⟨s, d, rfl⟩ := (List.eq_nil_or_concat' val).resolve_left filled
    rw [escapedText_append, escapedText_singleton, List.length_append] at cut
    have dropped : escapedValue (s ++ [d]) = escapedValue s :=
      escapedValue_drop_last (by omega)
    by_cases mark : NeedsQuote [d]
    · have width : (auditEscapeChar d).length = 1 ∧ (auditEscapeChar (otherMark d)).length = 1 ∧
          otherMark d ≠ d ∧ NeedsQuote [otherMark d] := by
        simp only [NeedsQuote, List.mem_singleton] at mark
        rcases mark with rfl | rfl <;> decide
      obtain ⟨one, one', different, mark'⟩ := width
      refine ⟨s ++ [otherMark d], ?_, by simp, ?_, ?_, ?_⟩
      · intro equal
        exact different (List.cons.inj (List.append_cancel_left equal)).1
      · rw [List.length_append] at small ⊢
        exact small
      · rw [needsQuote_append, needsQuote_append]
        simp only [mark, mark', or_true]
      · rw [dropped]
        exact escapedValue_drop_last (by omega)
    · refine ⟨s, ?_, ?_, ?_, ?_, dropped.symm⟩
      · intro equal
        have lengths := congrArg List.length equal
        rw [List.length_append, List.length_singleton] at lengths
        omega
      · rintro rfl
        rw [List.nil_append, List.length_singleton] at full
        omega
      · rw [List.length_append] at small
        omega
      · rw [needsQuote_append, or_iff_left mark]
  · refine ⟨val ++ ['\''], ?_, by simp, ?_, ?_, ?_⟩
    · intro equal
      have lengths := congrArg List.length equal
      rw [List.length_append, List.length_singleton] at lengths
      omega
    · rw [List.length_append, List.length_singleton]
      omega
    · rw [needsQuote_append, or_iff_left (by decide)]
    · have six : (auditEscapeChar '\'').length = 6 := by decide
      exact escapedValue_drop_last (by omega)

theorem exists_twin (filled : val ≠ []) (small : val.length < auditMaxColValue)
    (unclear : ¬Clear val) : ∃ other, Twin val other := by
  by_cases visible : ∀ c ∈ val, ¬IsBlank c
  · exact crowded_twin filled small fun fits => unclear ⟨visible, fits⟩
  · simp only [not_forall, not_not] at visible
    obtain ⟨c, member, blank⟩ := visible
    obtain ⟨before, after, rfl⟩ := List.append_of_mem member
    exact blank_twin blank small

end Values

section Reading

inductive ValueKind
  | null | bare | quoted
  deriving DecidableEq

def kindOf (val : CString) : ValueKind :=
  if val = [] then .null else if NeedsQuote val then .quoted else .bare

/-- The kind that the first byte of a field's text tells. -/
def textKind : CString → Option ValueKind
  | [] => none
  | c :: _ => some (if c = '<' then .null else if c = '"' then .quoted else .bare)

theorem textKind_append {text : CString} (filled : text ≠ []) (rest : CString) :
    textKind (text ++ rest) = textKind text := by
  cases text with
  | nil => exact (filled rfl).elim
  | cons => rfl

theorem textKind_bare {text : CString} (filled : text ≠ []) (free : '"' ∉ text ∧ '<' ∉ text) :
    textKind text = some .bare := by
  cases text with
  | nil => exact (filled rfl).elim
  | cons c text =>
    rw [List.mem_cons, List.mem_cons, not_or, not_or] at free
    rw [textKind, if_neg (Ne.symm free.2.1), if_neg (Ne.symm free.1.1)]

variable {room : Nat} {val text : CString} {more : Bool}

theorem Cell.kind (cell : Cell room val text more) (filled : text ≠ []) :
    textKind text = some (kindOf val) := by
  cases cell with
  | null => rfl
  | nullLost => exact (filled rfl).elim
  | plain valued bare =>
    have free := escapedValue_free val
    rw [kindOf, if_neg valued, if_neg bare]
    exact textKind_bare filled ⟨fun member => free.1 (List.mem_of_mem_take member),
      fun member => free.2 (List.mem_of_mem_take member)⟩
  | quoteLost => exact (filled rfl).elim
  | quoted valued quote | unclosed valued quote | cut valued quote =>
    rw [kindOf, if_neg valued, if_pos quote]
    rfl

/-- Only a field that ends the text leaves nothing. -/
theorem Cell.empty (cell : Cell room val [] more) : more = false ∨ room = 0 := by
  generalize blank : ([] : CString) = text at cell
  cases cell with
  | null => cases blank
  | nullLost => exact .inl rfl
  | plain valued bare =>
    have cut := congrArg List.length blank
    have least := List.length_pos_of_ne_nil (escapedValue_ne_nil valued)
    rw [List.length_take, List.length_nil] at cut
    right
    omega
  | quoteLost => exact .inl rfl
  | quoted => cases blank
  | unclosed => cases blank
  | cut => cases blank

/-- What can stand behind the value of a field. -/
def Follows (more : Bool) (rest : CString) : Prop :=
  rest = [] ∨ (more = true ∧ rest.head? = some '|')

theorem append_eq_of_free {mark : Char} {a b rest rest' : CString} (free : mark ∉ a)
    (free' : mark ∉ b) (starts : rest = [] ∨ rest.head? = some mark)
    (starts' : rest' = [] ∨ rest'.head? = some mark) (same : a ++ rest = b ++ rest') : a = b := by
  have head : ∀ {s t u : CString}, s = [] ∨ s.head? = some mark → s = t ++ u → mark ∉ t → t = [] := by
    intro s t u starts split apart
    cases t with
    | nil => rfl
    | cons c t =>
      rw [split] at starts
      rcases starts with none | first
      · cases none
      · have mark' : c = mark := Option.some.inj first
        exact (apart (mark' ▸ List.mem_cons_self)).elim
  rcases List.append_eq_append_iff.mp same with ⟨middle, rfl, split⟩ | ⟨middle, rfl, split⟩
  · rw [head starts split fun member => free' (List.mem_append_right a member), List.append_nil]
  · rw [head starts' split fun member => free (List.mem_append_right b member), List.append_nil]

theorem fieldText_kind (clear : val ≠ [] → Clear val) :
    fieldText val ≠ [] ∧ textKind (fieldText val) = some (kindOf val) := by
  rw [fieldText, kindOf]
  split
  · exact ⟨by decide, rfl⟩
  next valued =>
    split
    · exact ⟨List.cons_ne_nil _ _, rfl⟩
    · have filled := escapedText_ne_nil valued
      exact ⟨filled, textKind_bare filled (escapedText_free val)⟩

/-- A clear value with room to spare is told from every other, whatever follows. -/
theorem Cell.told {other rest rest' : CString} (clear : val ≠ [] → Clear val)
    (short : (fieldText val).length < room) (follows : Follows true rest)
    (cell : Cell room other text more) (follows' : Follows more rest')
    (small : other.length < auditMaxColValue) (same : fieldText val ++ rest = text ++ rest') :
    other = val := by
  obtain ⟨filled, kind⟩ := fieldText_kind clear
  have written : text ≠ [] := by
    rintro rfl
    rcases cell.empty with stop | none
    · rcases follows' with nothing | ⟨goes, -⟩
      · rw [nothing, List.append_nil] at same
        exact filled (List.append_eq_nil_iff.mp same).1
      · rw [stop] at goes
        cases goes
    · omega
  have kinds : kindOf other = kindOf val := by
    have both := congrArg textKind same
    rw [textKind_append filled, textKind_append written, kind, cell.kind written] at both
    exact (Option.some.inj both).symm
  have starts : rest = [] ∨ rest.head? = some '|' := follows.imp id And.right
  have starts' : rest' = [] ∨ rest'.head? = some '|' := follows'.imp id And.right
  by_cases valued : val = []
  · rw [valued, kindOf, kindOf, if_pos rfl] at kinds
    by_contra other_filled
    rw [valued] at other_filled
    rw [if_neg other_filled] at kinds
    split at kinds <;> cases kinds
  · have clear := clear valued
    have freeText := escapedText_free val
    have freeValue := escapedValue_free other
    rw [kindOf, kindOf, if_neg valued] at kinds
    rw [fieldText, if_neg valued] at same short
    by_cases quote : NeedsQuote val
    · rw [if_pos quote] at same short kinds
      rw [List.length_append, List.length_cons, List.length_singleton] at short
      have open_quote : ∀ s : CString, ('"' :: s).head? = some '"' := fun _ => rfl
      cases cell with
      | null | nullLost => simp at kinds
      | plain other_filled bare => rw [if_neg other_filled, if_neg bare] at kinds; cases kinds
      | quoteLost => exact (written rfl).elim
      | quoted =>
        simp only [List.append_assoc, List.cons_append, List.nil_append, List.cons.injEq, true_and]
          at same
        exact clear.unique small (append_eq_of_free freeText.1 freeValue.1 (.inr (open_quote rest))
          (.inr (open_quote rest')) same).symm
      | unclosed =>
        rcases follows' with nothing | ⟨goes, -⟩
        · simp only [nothing, List.append_nil, List.append_assoc, List.cons_append,
            List.nil_append, List.cons.injEq, true_and] at same
          refine (freeValue.1 ?_).elim
          rw [← same]
          exact List.mem_append_right _ List.mem_cons_self
        · cases goes
      | cut _ _ least full =>
        simp only [List.append_assoc, List.cons_append, List.nil_append, List.cons.injEq, true_and]
          at same
        have cut := append_eq_of_free freeText.1
          (fun member => freeValue.1 (List.mem_of_mem_take member)) (.inr (open_quote rest))
          (.inr (open_quote rest')) same
        have lengths := congrArg List.length cut
        rw [List.length_take] at lengths
        omega
    · rw [if_neg quote] at same short kinds
      cases cell with
      | null | nullLost => simp at kinds
      | plain _ bare =>
        have pipe : '|' ∉ escapedText val := escapedText_pipe fun member => quote (.inl member)
        have pipe' : '|' ∉ (escapedValue other).take room :=
          fun member => escapedValue_pipe bare (List.mem_of_mem_take member)
        have cut := append_eq_of_free pipe pipe' starts starts' same
        have lengths := congrArg List.length cut
        rw [List.length_take] at lengths
        have whole : (escapedValue other).take room = escapedValue other :=
          List.take_of_length_le (by omega)
        rw [whole] at cut
        exact clear.unique small cut.symm
      | quoteLost => exact (written rfl).elim
      | quoted other_filled quoted | unclosed other_filled quoted | cut other_filled quoted =>
        rw [if_neg other_filled, if_pos quoted] at kinds
        cases kinds

end Reading

end OciWrapper.Audit
