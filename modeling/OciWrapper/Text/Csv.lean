import OciWrapper.Text.Chars

namespace OciWrapper.Text

/-- What a field without quotes may hold. -/
def csvText (c : Char) : Bool := !(c == ',' || c == '"' || c == '\n' || c == '\r')

/-- The value of a quoted field behind its first quote, and what stands behind its last. -/
def readQuoted : CString → Option (CString × CString)
  | [] => none
  | '"' :: '"' :: s => (readQuoted s).map fun (value, rest) => ('"' :: value, rest)
  | '"' :: s => some ([], s)
  | c :: s => (readQuoted s).map fun (value, rest) => (c :: value, rest)

def readField : CString → Option (CString × CString)
  | '"' :: s => readQuoted s
  | s => some (s.takeWhile csvText, s.dropWhile csvText)

/-- The fields of the first record, and the text behind it. -/
def readFields : Nat → CString → Option (List CString × CString)
  | 0, _ => none
  | fuel + 1, s => do
    match ← readField s with
    | (value, ',' :: rest) =>
      (readFields fuel rest).map fun (values, rest) => (value :: values, rest)
    | (value, '\n' :: rest) => some ([value], rest)
    | (value, '\r' :: '\n' :: rest) => some ([value], rest)
    | _ => none

/-- The reader of the format; each field takes a separator. -/
def readRecord (s : CString) : Option (List CString × CString) := readFields (s.length + 1) s

/-- A quote inside a quoted field is doubled. -/
def escapeQuote (c : Char) : CString := if c = '"' then ['"', '"'] else [c]

def escapeQuotes (s : CString) : CString := s.flatMap escapeQuote

/-- The text of a field, wherever it stands in a record. -/
def Encodes (text value : CString) : Prop :=
  ∀ rest, (∃ behind, rest = ',' :: behind) ∨ (∃ behind, rest = '\n' :: behind) →
    readField (text ++ rest) = some (value, rest)

section Fields

theorem readQuoted_plain {c : Char} (other : c ≠ '"') (s : CString) :
    readQuoted (c :: s) = (readQuoted s).map fun (value, rest) => (c :: value, rest) := by
  rw [readQuoted]
  · rintro t rfl -
    exact other rfl
  · rintro rfl
    exact other rfl

theorem readQuoted_end {rest : CString} (single : rest.head? ≠ some '"') :
    readQuoted ('"' :: rest) = some ([], rest) := by
  rw [readQuoted]
  rintro t rfl
  exact single rfl

theorem readQuoted_escape {rest : CString} (single : rest.head? ≠ some '"') (value : CString) :
    readQuoted (escapeQuotes value ++ '"' :: rest) = some (value, rest) := by
  induction value with
  | nil => exact readQuoted_end single
  | cons c value ih =>
    have front : escapeQuotes (c :: value) = escapeQuote c ++ escapeQuotes value := rfl
    rw [front, escapeQuote]
    split
    next quote =>
      rw [quote]
      change (readQuoted (escapeQuotes value ++ '"' :: rest)).map _ = _
      rw [ih]
      rfl
    next other =>
      rw [List.append_assoc, List.singleton_append, readQuoted_plain other, ih]
      rfl

theorem readField_plain {s : CString} (other : s.head? ≠ some '"') :
    readField s = some (s.takeWhile csvText, s.dropWhile csvText) := by
  rw [readField]
  rintro t rfl
  exact other rfl

theorem encodes_quoted (value : CString) : Encodes ('"' :: escapeQuotes value ++ ['"']) value := by
  intro rest ends
  have single : rest.head? ≠ some '"' := by
    rcases ends with ⟨behind, rfl⟩ | ⟨behind, rfl⟩ <;> exact nofun
  rw [List.append_assoc, List.cons_append, readField]
  exact readQuoted_escape single value

theorem encodes_plain {text : CString} (plain : ∀ c ∈ text, csvText c = true) :
    Encodes text text := by
  intro rest ends
  have stop : rest.takeWhile csvText = [] ∧ rest.dropWhile csvText = rest ∧
      rest.head? ≠ some '"' := by
    rcases ends with ⟨behind, rfl⟩ | ⟨behind, rfl⟩ <;> exact ⟨rfl, rfl, nofun⟩
  have head : (text ++ rest).head? ≠ some '"' := by
    cases text with
    | nil => exact stop.2.2
    | cons c text =>
      intro same
      have inside := plain c List.mem_cons_self
      rw [Option.some.inj same] at inside
      cases inside
  rw [readField_plain head, List.takeWhile_append_of_pos plain, List.dropWhile_append_of_pos plain,
    stop.1, stop.2.1, List.append_nil]

/-- The quotes that a text starts with. -/
def leadingQuotes : CString → Nat
  | '"' :: s => leadingQuotes s + 1
  | _ => 0

theorem leadingQuotes_other {c : Char} (other : c ≠ '"') (s : CString) :
    leadingQuotes (c :: s) = 0 := by
  rw [leadingQuotes]
  intro t same
  exact other (List.cons.inj same).1

theorem leadingQuotes_append (s behind : CString) :
    leadingQuotes (s ++ ',' :: behind) = leadingQuotes s := by
  induction s with
  | nil => exact leadingQuotes_other (by decide) behind
  | cons c s ih =>
    by_cases quote : c = '"'
    · subst quote
      exact congrArg Nat.succ ih
    · rw [List.cons_append, leadingQuotes_other quote, leadingQuotes_other quote]

/-- Each leading quote of a value takes two of the text. -/
theorem readQuoted_leading {s value rest : CString} (read : readQuoted s = some (value, rest)) :
    2 * leadingQuotes value ≤ leadingQuotes s := by
  induction s using readQuoted.induct generalizing value with
  | case1 => cases read
  | case2 s ih =>
    rw [readQuoted, Option.map_eq_some_iff] at read
    obtain ⟨⟨inner, behind⟩, read, same⟩ := read
    cases same
    have bound := ih read
    simp only [leadingQuotes]
    omega
  | case3 s single =>
    rw [readQuoted] at read
    · cases read
      exact Nat.zero_le _
    · exact single
  | case4 c s double other ih =>
    rw [readQuoted] at read
    · rw [Option.map_eq_some_iff] at read
      obtain ⟨⟨inner, behind⟩, read, same⟩ := read
      cases same
      rw [leadingQuotes_other other]
      exact Nat.zero_le _
    · exact double
    · exact other

/-- A text with a quote or a comma of its own is not read back as it is. -/
theorem not_read_back {text behind rest : CString} (special : ',' ∈ text ∨ '"' ∈ text) :
    readField (text ++ ',' :: behind) ≠ some (text, ',' :: rest) := by
  intro read
  cases text with
  | nil => rcases special with member | member <;> cases member
  | cons c text =>
    by_cases quote : c = '"'
    · subst quote
      have bound := readQuoted_leading (show readQuoted (text ++ ',' :: behind) = _ from read)
      rw [leadingQuotes_append, leadingQuotes] at bound
      omega
    · have head : (c :: text ++ ',' :: behind).head? ≠ some '"' :=
        fun same => quote (Option.some.inj same)
      rw [readField_plain head] at read
      have value : (c :: text ++ ',' :: behind).takeWhile csvText = c :: text :=
        congrArg Prod.fst (Option.some.inj read)
      have inside : ∀ d ∈ c :: text, csvText d = true := by
        intro d member
        rw [← value] at member
        exact List.mem_takeWhile_imp member
      rcases special with member | member
      · cases inside _ member
      · cases inside _ member

end Fields

theorem escapeQuotes_cons (c : Char) (s : CString) :
    escapeQuotes (c :: s) = escapeQuote c ++ escapeQuotes s := rfl

theorem length_escapeQuotes (s : CString) :
    (escapeQuotes s).length = s.length + s.count '"' := by
  induction s with
  | nil => rfl
  | cons c s ih =>
    rw [escapeQuotes_cons, List.length_append, ih, List.count_cons, escapeQuote]
    by_cases quote : c = '"'
    · rw [if_pos quote, if_pos (beq_iff_eq.mpr quote)]
      simp only [List.length_cons, List.length_nil]
      omega
    · rw [if_neg quote, if_neg (fun same => quote (beq_iff_eq.mp same))]
      simp only [List.length_cons, List.length_nil]
      omega

section Records

/-- The fields of a record and the end of its line. -/
def recordLine (texts : List CString) : CString := [','].intercalate texts ++ ['\n']

theorem recordLine_cons (text : CString) {texts : List CString} (more : texts ≠ []) :
    recordLine (text :: texts) = text ++ ',' :: recordLine texts := by
  cases texts with
  | nil => exact absurd rfl more
  | cons next texts =>
    rw [recordLine, List.intercalate_cons_cons, List.append_assoc, List.append_assoc]
    rfl

theorem readFields_cons {fuel : Nat} {text value rest : CString}
    (encodes : Encodes text value) :
    readFields (fuel + 1) (text ++ ',' :: rest) =
      (readFields fuel rest).map fun (values, rest) => (value :: values, rest) := by
  rw [readFields, encodes (',' :: rest) (Or.inl ⟨rest, rfl⟩)]
  rfl

theorem readFields_last {fuel : Nat} {text value rest : CString} (encodes : Encodes text value) :
    readFields (fuel + 1) (text ++ '\n' :: rest) = some ([value], rest) := by
  rw [readFields, encodes ('\n' :: rest) (Or.inr ⟨rest, rfl⟩)]
  rfl

/-- The first fields of a record, read one by one. -/
theorem readFields_append {front values : List CString}
    (encodes : List.Forall₂ Encodes front values) {others : List CString} (more : others ≠ []) :
    ∀ {fuel : Nat},
    readFields (fuel + front.length) (recordLine (front ++ others)) =
      (readFields fuel (recordLine others)).map fun (later, rest) => (values ++ later, rest) := by
  induction encodes with
  | nil =>
    intro fuel
    exact Option.map_id'.symm
  | @cons text value front values first rest ih =>
    intro fuel
    have several : front ++ others ≠ [] := List.append_ne_nil_of_right_ne_nil _ more
    rw [List.cons_append, recordLine_cons text several, List.length_cons, ← Nat.add_assoc,
      readFields_cons first, ih, Option.map_map]
    rfl

theorem readFields_all {texts values : List CString} (encodes : List.Forall₂ Encodes texts values)
    (filled : texts ≠ []) {fuel : Nat} (enough : texts.length ≤ fuel) :
    readFields fuel (recordLine texts) = some (values, []) := by
  induction encodes generalizing fuel with
  | nil => exact absurd rfl filled
  | @cons text value texts values first rest ih =>
    cases fuel with
    | zero => cases enough
    | succ fuel =>
      cases rest with
      | nil =>
        have line : recordLine [text] = text ++ ['\n'] := by
          rw [recordLine, List.intercalate_singleton]
        rw [line, readFields_last first]
      | cons next others =>
        rw [recordLine_cons text (List.cons_ne_nil _ _), readFields_cons first,
          ih (List.cons_ne_nil _ _) (Nat.le_of_succ_le_succ enough)]
        rfl

theorem length_recordLine (texts : List CString) :
    texts.length ≤ (recordLine texts).length + 1 := by
  induction texts with
  | nil => exact Nat.zero_le _
  | cons text texts ih =>
    cases texts with
    | nil => exact Nat.le_add_left 1 _
    | cons next texts =>
      rw [recordLine_cons text (List.cons_ne_nil _ _), List.length_append, List.length_cons]
      simp only [List.length_cons] at ih ⊢
      omega

/-- A record of encoded fields is read as their values. -/
theorem readRecord_line {texts values : List CString} (encodes : List.Forall₂ Encodes texts values)
    (filled : texts ≠ []) : readRecord (recordLine texts) = some (values, []) :=
  readFields_all encodes filled (length_recordLine texts)

/-- The first of two values stands before a separator. -/
theorem readFields_first {fuel : Nat} {s value next rest : CString} {values : List CString}
    (read : readFields (fuel + 1) s = some (value :: next :: values, rest)) :
    ∃ behind, readField s = some (value, ',' :: behind) := by
  rw [readFields, Option.bind_eq_bind, Option.bind_eq_some_iff] at read
  obtain ⟨⟨first, behind⟩, field, read⟩ := read
  dsimp only at read
  split at read
  next same =>
    cases same
    obtain ⟨⟨later, last⟩, -, whole⟩ := Option.map_eq_some_iff.mp read
    cases whole
    exact ⟨_, field⟩
  next => cases read
  next => cases read
  next => cases read

end Records

end OciWrapper.Text
