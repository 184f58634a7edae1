import OciWrapper.Text.NumberText

namespace OciWrapper.Text

/-- `(int)` of a `long`. -/
def toInt (n : Int) : Int := (n + 2 ^ 31) % 2 ^ 32 - 2 ^ 31

/-- `strtol` of digits with a sign. -/
def strtol (sign digits : CString) : Int :=
  if sign = ['-'] then max (-2 ^ 63) (-(digitsValue digits : Int))
  else min (2 ^ 63 - 1) (digitsValue digits)

/-- `%d`: what is stored, and the text behind it. -/
def scanInt (s : CString) : Option (Int × CString) :=
  let unblanked := s.dropWhile isSpace
  let sign := unblanked.take (unblanked.length - (afterSign unblanked).length)
  let digits := (afterSign unblanked).takeWhile Char.isDigit
  if digits = [] then none
  else some (toInt (strtol sign digits), (afterSign unblanked).dropWhile Char.isDigit)

/-- What stands in a format. -/
inductive Directive
  | int
  | literal (c : Char)
  | blanks

/-- The numbers that `sscanf` stores. -/
def sscanf : List Directive → CString → List Int
  | [], _ => []
  | .int :: format, s =>
    match scanInt s with
    | none => []
    | some (n, rest) => n :: sscanf format rest
  | .literal c :: format, s =>
    match s with
    | [] => []
    | d :: rest => if c = d then sscanf format rest else []
  | .blanks :: format, s => sscanf format (s.dropWhile isSpace)

/-- A text that `%d` takes. -/
structure Numeral where
  blanks : CString
  sign : CString
  digits : CString
  blank : ∀ c ∈ blanks, isSpace c = true
  signed : SignText sign
  each : Digits digits
  filled : digits ≠ []

def Numeral.text (numeral : Numeral) : CString :=
  numeral.blanks ++ (numeral.sign ++ numeral.digits)

def Numeral.value (numeral : Numeral) : Int := toInt (strtol numeral.sign numeral.digits)

/-- Digits alone, for a number that an `int` holds. -/
def Numeral.Plain (numeral : Numeral) : Prop :=
  numeral.blanks = [] ∧ numeral.sign = [] ∧ digitsValue numeral.digits < 2 ^ 31

/-- The digits of a number that an `int` holds. -/
def WholeNumber (digits : CString) : Prop :=
  digits ≠ [] ∧ Digits digits ∧ digitsValue digits < 2 ^ 31

/-- The text goes on with no digit. -/
def EndsNumber (rest : CString) : Prop := ∀ c, rest.head? = some c → c.isDigit = false

section Scans

theorem not_space_of_sign {c : Char} (sign : c = '+' ∨ c = '-') : isSpace c = false := by
  rcases sign with rfl | rfl <;> decide

theorem dropWhile_blanks {blanks s : CString} (blank : ∀ c ∈ blanks, isSpace c = true)
    (stops : ∀ c, s.head? = some c → isSpace c = false) :
    (blanks ++ s).dropWhile isSpace = s := by
  rw [List.dropWhile_append_of_pos blank]
  cases s with
  | nil => rfl
  | cons c s => rw [List.dropWhile_cons_of_neg (by rw [stops c rfl]; decide)]

theorem takeWhile_digits {digits rest : CString} (each : Digits digits) (ends : EndsNumber rest) :
    (digits ++ rest).takeWhile Char.isDigit = digits ∧
      (digits ++ rest).dropWhile Char.isDigit = rest := by
  rw [List.takeWhile_append_of_pos each, List.dropWhile_append_of_pos each]
  cases rest with
  | nil => exact ⟨List.append_nil digits, rfl⟩
  | cons c rest =>
    have stop : ¬c.isDigit = true := by
      rw [ends c rfl]
      decide
    rw [List.takeWhile_cons_of_neg stop, List.dropWhile_cons_of_neg stop, List.append_nil]
    exact ⟨rfl, rfl⟩

theorem Numeral.first (numeral : Numeral) (rest : CString) (c : Char)
    (head : (numeral.digits ++ rest).head? = some c) : c.isDigit = true := by
  obtain ⟨d, digits, split⟩ := List.exists_cons_of_ne_nil numeral.filled
  rw [split, List.cons_append, List.head?_cons] at head
  cases head
  exact numeral.each c (split ▸ List.mem_cons_self)

theorem Numeral.unsigned_head (numeral : Numeral) (rest : CString) (c : Char)
    (head : (numeral.sign ++ (numeral.digits ++ rest)).head? = some c) : isSpace c = false := by
  rcases numeral.signed with none | plus | minus
  · rw [none, List.nil_append] at head
    exact not_space_of_isDigit (numeral.first rest c head)
  · rw [plus] at head
    cases head
    decide
  · rw [minus] at head
    cases head
    decide

theorem Numeral.unblanked_head (numeral : Numeral) (unblanked : numeral.blanks = [])
    (rest : CString) (c : Char) (head : (numeral.text ++ rest).head? = some c) :
    isSpace c = false := by
  rw [Numeral.text, unblanked, List.nil_append, List.append_assoc] at head
  exact numeral.unsigned_head rest c head

/-- The parts of a numeral are those that the scan finds. -/
theorem Numeral.scanned (numeral : Numeral) {rest : CString} (ends : EndsNumber rest) :
    (numeral.text ++ rest).dropWhile isSpace = numeral.sign ++ (numeral.digits ++ rest) ∧
      afterSign (numeral.sign ++ (numeral.digits ++ rest)) = numeral.digits ++ rest ∧
      (numeral.digits ++ rest).takeWhile Char.isDigit = numeral.digits ∧
      (numeral.digits ++ rest).dropWhile Char.isDigit = rest := by
  refine ⟨?_, ?_, takeWhile_digits numeral.each ends⟩
  · rw [Numeral.text, List.append_assoc, List.append_assoc]
    exact dropWhile_blanks numeral.blank (numeral.unsigned_head rest)
  · refine afterSign_sign numeral.signed fun c head => ?_
    have digit := numeral.first rest c head
    constructor
    · rintro rfl
      cases digit
    · rintro rfl
      cases digit

theorem scanInt_text (numeral : Numeral) {rest : CString} (ends : EndsNumber rest) :
    scanInt (numeral.text ++ rest) = some (numeral.value, rest) := by
  obtain ⟨unblanked, unsigned, digits, behind⟩ := numeral.scanned ends
  have sign : (numeral.sign ++ (numeral.digits ++ rest)).take
      ((numeral.sign ++ (numeral.digits ++ rest)).length - (numeral.digits ++ rest).length) =
        numeral.sign := by
    rw [List.length_append, Nat.add_sub_cancel, List.take_left]
  rw [scanInt, unblanked, unsigned, digits, behind, sign, if_neg numeral.filled]
  rfl

theorem exists_numeral {s rest : CString} {n : Int} (scanned : scanInt s = some (n, rest)) :
    ∃ numeral : Numeral, s = numeral.text ++ rest ∧ n = numeral.value ∧ EndsNumber rest := by
  rw [scanInt] at scanned
  split at scanned
  · cases scanned
  next filled =>
    obtain ⟨value, behind⟩ := Prod.mk.inj (Option.some.inj scanned)
    obtain ⟨sign, signed, unblanked⟩ := exists_afterSign (s.dropWhile isSpace)
    have found : (s.dropWhile isSpace).take
        ((s.dropWhile isSpace).length - (afterSign (s.dropWhile isSpace)).length) = sign := by
      have size := congrArg List.length unblanked
      rw [List.length_append] at size
      rw [size, Nat.add_sub_cancel]
      conv_lhs => rw [unblanked]
      rw [List.take_left]
    refine ⟨⟨s.takeWhile isSpace, sign, (afterSign (s.dropWhile isSpace)).takeWhile Char.isDigit,
      fun c member => List.mem_takeWhile_imp member, signed,
      fun c member => List.mem_takeWhile_imp member, filled⟩, ?_, ?_, ?_⟩
    · rw [Numeral.text, ← behind]
      dsimp only
      rw [List.append_assoc, List.append_assoc, List.takeWhile_append_dropWhile, ← unblanked,
        List.takeWhile_append_dropWhile]
    · rw [← value, found]
      rfl
    · intro c head
      rw [← behind] at head
      have stop := List.head?_dropWhile_not Char.isDigit (afterSign (s.dropWhile isSpace))
      rw [head] at stop
      exact stop

theorem Numeral.unique {numeral other : Numeral} {rest rest' : CString} (ends : EndsNumber rest)
    (ends' : EndsNumber rest') (same : numeral.text ++ rest = other.text ++ rest') :
    numeral = other ∧ rest = rest' := by
  obtain ⟨unblanked, unsigned, digits, behind⟩ := numeral.scanned ends
  obtain ⟨unblanked', unsigned', digits', behind'⟩ := other.scanned ends'
  have signs : numeral.sign ++ (numeral.digits ++ rest) = other.sign ++ (other.digits ++ rest') := by
    rw [← unblanked, ← unblanked', same]
  have bodies : numeral.digits ++ rest = other.digits ++ rest' := by
    rw [← unsigned, ← unsigned', signs]
  have each : numeral.digits = other.digits := by
    rw [← digits, ← digits', bodies]
  have rests : rest = rest' := by
    rw [← behind, ← behind', bodies]
  have sign : numeral.sign = other.sign := List.append_cancel_right (bodies ▸ signs)
  have blanks : numeral.blanks = other.blanks := by
    rw [Numeral.text, Numeral.text, sign, each, rests] at same
    exact List.append_cancel_right (List.append_cancel_right same)
  cases numeral
  cases other
  dsimp only at each sign blanks
  subst each
  subst sign
  subst blanks
  exact ⟨rfl, rests⟩

/-- A plain numeral is stored as it stands. -/
theorem Numeral.Plain.value {numeral : Numeral} (plain : numeral.Plain) :
    numeral.value = digitsValue numeral.digits := by
  obtain ⟨-, sign, small⟩ := plain
  rw [Numeral.value, strtol, sign, if_neg (by decide), toInt]
  omega

/-- The numeral of some digits. -/
def plainNumeral (digits : CString) (each : Digits digits) (filled : digits ≠ []) : Numeral :=
  ⟨[], [], digits, List.forall_mem_nil _, Or.inl rfl, each, filled⟩

theorem plainNumeral_plain {digits : CString} (number : WholeNumber digits) :
    (plainNumeral digits number.2.1 number.1).Plain :=
  ⟨rfl, rfl, number.2.2⟩

theorem plainNumeral_text {digits : CString} (number : WholeNumber digits) :
    (plainNumeral digits number.2.1 number.1).text = digits := rfl

theorem Numeral.Plain.text {numeral : Numeral} (plain : numeral.Plain) :
    numeral.text = numeral.digits := by
  rw [Numeral.text, plain.1, plain.2.1]
  rfl

theorem Numeral.Plain.number {numeral : Numeral} (plain : numeral.Plain) :
    WholeNumber numeral.digits :=
  ⟨numeral.filled, numeral.each, plain.2.2⟩

end Scans

end OciWrapper.Text
