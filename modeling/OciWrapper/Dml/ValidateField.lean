import OciWrapper.Dml.SecondValidation
import OciWrapper.Text.NumberText

namespace OciWrapper.Dml

open OciWrapper.Text

def fieldMessage (f : ParsedField) (text : CString) : CString :=
  "Field ".toList ++ quoted f.fieldName ++ ": ".toList ++ text

/-- `NUMBER(p,s)` in a message. -/
def numberType (f : ParsedField) : CString :=
  "NUMBER(".toList ++ decimal f.fieldPrecision ++ ',' :: decimal f.fieldScale ++ [')']

def wholeDigits (p : CString) : CString := p.takeWhile fun c => !(c == '.' || isExponentMark c)
def afterWhole (p : CString) : CString := p.dropWhile fun c => !(c == '.' || isExponentMark c)

def fractionDigits : CString → CString
  | '.' :: p => p.takeWhile fun c => !isExponentMark c
  | _ => []

def afterFraction : CString → CString
  | '.' :: p => p.dropWhile fun c => !isExponentMark c
  | p => p

/-- The text after an optional exponent, which must have a digit. -/
def afterExponent : CString → Option CString
  | [] => some []
  | c :: p =>
    if isExponentMark c then
      if (afterSign p).head?.any Char.isDigit then some ((afterSign p).dropWhile Char.isDigit)
      else none
    else some (c :: p)

def validateNumeric (f : ParsedField) : Except CString Unit :=
  let p := afterSign f.insertValue
  if p = [] then
    .error (fieldMessage f ("empty value for numeric type ".toList ++ quoted f.fieldType))
  else
    match (wholeDigits p).find? fun c => !c.isDigit with
    | some c =>
      .error (fieldMessage f ("invalid character ".toList ++ quoted [c] ++
        " in numeric value".toList))
    | none =>
      match (fractionDigits (afterWhole p)).find? fun c => !c.isDigit with
      | some c =>
        .error (fieldMessage f ("invalid character ".toList ++ quoted [c] ++
          " in fractional part".toList))
      | none =>
        match afterExponent (afterFraction (afterWhole p)) with
        | none => .error (fieldMessage f "malformed exponent in numeric value".toList)
        | some rest =>
          let whole : Int := (wholeDigits p).length
          let fraction : Int := (fractionDigits (afterWhole p)).length
          if rest ≠ [] then
            .error (fieldMessage f ("trailing garbage ".toList ++ quoted rest ++
              " in numeric value".toList))
          else if 0 < f.fieldPrecision ∧ 0 ≤ f.fieldScale ∧
              f.fieldPrecision - f.fieldScale < whole then
            .error (fieldMessage f ("integer part (".toList ++ decimal whole ++
              " digits) exceeds ".toList ++ numberType f ++ " precision".toList))
          else if 0 < f.fieldPrecision ∧ 0 ≤ f.fieldScale ∧ f.fieldScale < fraction then
            .error (fieldMessage f ("fractional part (".toList ++ decimal fraction ++
              " digits) exceeds scale ".toList ++ decimal f.fieldScale ++ " of ".toList ++
              numberType f))
          else .ok ()

def validateString (f : ParsedField) : Except CString Unit :=
  let len : Int := f.insertValue.length
  if 0 < f.fieldLength ∧ f.fieldLength < len then
    .error (fieldMessage f ("value length ".toList ++ decimal len ++ " exceeds ".toList ++
      f.fieldType ++ '(' :: decimal f.fieldLength ++ [')']))
  else .ok ()

/-- `isxdigit`. -/
def isXDigit (c : Char) : Bool :=
  c.isDigit || (97 ≤ c.toNat && c.toNat ≤ 102) || (65 ≤ c.toNat && c.toNat ≤ 70)

def validateRaw (f : ParsedField) : Except CString Unit :=
  let len : Int := f.insertValue.length
  match f.insertValue.zipIdx.find? fun entry => !isXDigit entry.1 with
  | some (c, i) =>
    .error (fieldMessage f ("RAW value contains non-hex character ".toList ++ quoted [c] ++
      " at position ".toList ++ decimal (i + 1)))
  | none =>
    if 0 < f.fieldLength ∧ f.fieldLength * 2 < len then
      .error (fieldMessage f ("RAW hex string (".toList ++ decimal len ++ " hex chars = ".toList ++
        decimal (len / 2) ++ " bytes) exceeds RAW(".toList ++ decimal f.fieldLength ++
        " BYTE)".toList))
    else .ok ()

/-- `is_oracle_b64_char`. -/
def isOracleB64Char (c : Char) : Bool := c.isAlpha || c.isDigit || c == '+' || c == '/'

def validateRowid (f : ParsedField) : Except CString Unit :=
  if f.fieldType = "ROWID".toList ∧ f.insertValue.length ≠ 18 then
    .error (fieldMessage f ("ROWID must be exactly 18 characters (got ".toList ++
      decimal f.insertValue.length ++ [')']))
  else
    match f.insertValue.zipIdx.find? fun entry => !isOracleB64Char entry.1 with
    | some (c, i) =>
      .error (fieldMessage f ("ROWID/UROWID value contains invalid character ".toList ++
        quoted [c] ++ " at position ".toList ++ decimal (i + 1)))
    | none => .ok ()

/-- `validate_field`; `interval` is what the validators of the two interval types make of a field
with `sscanf`. -/
def validateField (interval : ParsedField → Except CString Unit) (f : ParsedField) :
    Except CString Unit :=
  if f.insertValue = [] then
    if f.fieldNullable.head? = some 'N' ∧ f.fieldDefault = [] then
      .error ("Field ".toList ++ quoted f.fieldName ++ " (".toList ++ f.fieldType ++
        "): NOT NULL column has empty insert_value and no column default".toList)
    else .ok ()
  else
    match dbTypeClass f.fieldType with
    | .numeric => validateNumeric f
    | .string => validateString f
    | .intervalYm | .intervalDs => interval f
    | .binary => validateRaw f
    | .rowid => validateRowid f
    | .date | .timestamp | .lob | .other => .ok ()

/-- The digits of a number fit its column, where the column has a precision. -/
def FitsPrecision (precision scale : Int) (whole fraction : Nat) : Prop :=
  0 < precision ∧ 0 ≤ scale → (whole : Int) ≤ precision - scale ∧ (fraction : Int) ≤ scale

section Numbers

variable {s p whole fraction : CString}

theorem exponentText_of_scan (scanned : afterExponent s = some []) : ExponentText s := by
  cases s with
  | nil => exact Or.inl rfl
  | cons mark p =>
    rw [afterExponent] at scanned
    split at scanned
    next marked =>
      split at scanned
      next digit =>
        obtain ⟨sign, signed, same⟩ := exists_afterSign p
        have each : Digits (afterSign p) := List.dropWhile_eq_nil_iff.mp (Option.some.inj scanned)
        have filled : afterSign p ≠ [] := by
          intro empty
          rw [empty] at digit
          cases digit
        exact Or.inr ⟨mark, sign, afterSign p, marked, signed, filled, each, by rw [← same]⟩
      · cases scanned
    · cases scanned

theorem fractionText_of_scan (each : Digits (fractionDigits s))
    (scanned : afterExponent (afterFraction s) = some []) :
    ∃ point exponent, s = point ++ exponent ∧ FractionText point (fractionDigits s) ∧
      ExponentText exponent := by
  by_cases pointed : ∃ p, s = '.' :: p
  · obtain ⟨p, rfl⟩ := pointed
    refine ⟨'.' :: fractionDigits ('.' :: p), afterFraction ('.' :: p), ?_, Or.inr ⟨rfl, each⟩,
      exponentText_of_scan scanned⟩
    rw [fractionDigits, afterFraction, List.cons_append, List.takeWhile_append_dropWhile]
  · have bare : fractionDigits s = [] ∧ afterFraction s = s := by
      cases s with
      | nil => exact ⟨rfl, rfl⟩
      | cons c p =>
        have other : c ≠ '.' := by
          rintro rfl
          exact pointed ⟨p, rfl⟩
        constructor
        · rw [fractionDigits]
          simp [other]
        · rw [afterFraction]
          simp [other]
    rw [bare.2] at scanned
    exact ⟨[], s, rfl, Or.inl ⟨rfl, bare.1⟩, exponentText_of_scan scanned⟩

theorem numberText_of_scan (filled : afterSign s ≠ []) (digits : Digits (wholeDigits (afterSign s)))
    (each : Digits (fractionDigits (afterWhole (afterSign s))))
    (scanned : afterExponent (afterFraction (afterWhole (afterSign s))) = some []) :
    NumberText s (wholeDigits (afterSign s)) (fractionDigits (afterWhole (afterSign s))) := by
  obtain ⟨sign, signed, same⟩ := exists_afterSign s
  obtain ⟨point, exponent, split, point', exponent'⟩ := fractionText_of_scan each scanned
  have joined : wholeDigits (afterSign s) ++ (point ++ exponent) = afterSign s := by
    rw [← split, wholeDigits, afterWhole, List.takeWhile_append_dropWhile]
  exact ⟨sign, point, exponent, by rw [joined, ← same], signed, digits, point', exponent',
    by rw [joined]; exact filled⟩

/-- The digits before the point end where it, or the exponent, begins. -/
theorem scan_whole {rest : CString} (digits : Digits whole)
    (stops : ∀ c, rest.head? = some c → c = '.' ∨ isExponentMark c = true) :
    wholeDigits (whole ++ rest) = whole ∧ afterWhole (whole ++ rest) = rest := by
  have runs : ∀ c ∈ whole, (!(c == '.' || isExponentMark c)) = true := by
    intro c member
    have digit := digits c member
    rw [Bool.not_eq_true', Bool.or_eq_false_iff, beq_eq_false_iff_ne]
    constructor
    · rintro rfl
      cases digit
    · rw [Bool.eq_false_iff]
      intro marked
      rw [not_isDigit_of_mark marked] at digit
      cases digit
  rw [wholeDigits, afterWhole, List.takeWhile_append_of_pos runs, List.dropWhile_append_of_pos runs]
  cases rest with
  | nil => simp
  | cons c rest =>
    have stopped : (!(c == '.' || isExponentMark c)) = false := by
      rcases stops c rfl with rfl | marked
      · decide
      · simp [marked]
    simp only [List.takeWhile_cons, List.dropWhile_cons, stopped, Bool.false_eq_true, if_false,
      List.append_nil, and_self]

theorem scan_exponent {exponent : CString} (text : ExponentText exponent) :
    afterExponent exponent = some [] := by
  rcases text with rfl | ⟨mark, sign, digits, marked, signed, some, each, rfl⟩
  · rfl
  · obtain ⟨d, rest, rfl⟩ := List.exists_cons_of_ne_nil some
    have digit := each d List.mem_cons_self
    have unsigned : afterSign (sign ++ d :: rest) = d :: rest := by
      apply afterSign_sign signed
      intro c first
      cases first
      constructor
      · rintro rfl
        cases digit
      · rintro rfl
        cases digit
    have all : (d :: rest).dropWhile Char.isDigit = [] := List.dropWhile_eq_nil_iff.mpr each
    rw [afterExponent, if_pos marked, unsigned, List.head?_cons, Option.any_some, digit, if_pos rfl,
      all]

theorem scan_fraction {point exponent : CString} (text : FractionText point fraction)
    (exponent' : ExponentText exponent) :
    fractionDigits (point ++ exponent) = fraction ∧
      afterFraction (point ++ exponent) = exponent := by
  have noPoint : ∀ p, exponent ≠ '.' :: p := by
    rintro p rfl
    have marked := exponent'.head rfl
    cases marked
  rcases text with ⟨rfl, rfl⟩ | ⟨rfl, each⟩
  · rw [List.nil_append]
    constructor
    · unfold fractionDigits
      split
      · exact (noPoint _ rfl).elim
      · rfl
    · unfold afterFraction
      split
      · exact (noPoint _ rfl).elim
      · rfl
  · have runs : ∀ c ∈ fraction, (!isExponentMark c) = true := by
      intro c member
      rw [Bool.not_eq_true', Bool.eq_false_iff]
      intro marked
      have digit := each c member
      rw [not_isDigit_of_mark marked] at digit
      cases digit
    rw [List.cons_append, fractionDigits, afterFraction, List.takeWhile_append_of_pos runs,
      List.dropWhile_append_of_pos runs]
    cases exponent with
    | nil => simp
    | cons c exponent =>
      have marked := exponent'.head rfl
      have stopped : (!isExponentMark c) = false := by simp [marked]
      simp only [List.takeWhile_cons, List.dropWhile_cons, stopped, Bool.false_eq_true, if_false,
        List.append_nil, and_self]

/-- The scans of a number stop at its parts. -/
theorem scan_parts {sign point exponent : CString} (signed : SignText sign) (digits : Digits whole)
    (point' : FractionText point fraction) (exponent' : ExponentText exponent) :
    afterSign (sign ++ (whole ++ (point ++ exponent))) = whole ++ (point ++ exponent) ∧
      wholeDigits (whole ++ (point ++ exponent)) = whole ∧
      fractionDigits (afterWhole (whole ++ (point ++ exponent))) = fraction ∧
      afterFraction (afterWhole (whole ++ (point ++ exponent))) = exponent := by
  have stops : ∀ c, (point ++ exponent).head? = some c → c = '.' ∨ isExponentMark c = true := by
    intro c first
    rcases point' with ⟨rfl, rfl⟩ | ⟨rfl, -⟩
    · exact Or.inr (exponent'.head first)
    · cases first
      exact Or.inl rfl
  have unsigned : afterSign (sign ++ (whole ++ (point ++ exponent))) =
      whole ++ (point ++ exponent) := by
    apply afterSign_sign signed
    intro c first
    cases whole with
    | nil =>
      rcases stops c first with rfl | marked
      · decide
      · rcases isExponentMark_iff.mp marked with rfl | rfl <;> decide
    | cons d whole =>
      cases first
      have digit := digits c List.mem_cons_self
      constructor
      · rintro rfl
        cases digit
      · rintro rfl
        cases digit
  obtain ⟨before, after⟩ := scan_whole digits stops
  obtain ⟨places, tail⟩ := scan_fraction point' exponent'
  rw [after]
  exact ⟨unsigned, before, places, tail⟩

theorem scan_of_numberText (number : NumberText s whole fraction) :
    afterSign s ≠ [] ∧ wholeDigits (afterSign s) = whole ∧
      fractionDigits (afterWhole (afterSign s)) = fraction ∧
      afterExponent (afterFraction (afterWhole (afterSign s))) = some [] := by
  obtain ⟨sign, point, exponent, rfl, signed, digits, point', exponent', filled⟩ := number
  obtain ⟨unsigned, before, places, tail⟩ := scan_parts signed digits point' exponent'
  rw [unsigned, before, places, tail]
  exact ⟨filled, rfl, rfl, scan_exponent exponent'⟩

end Numbers

section Rules

variable {f : ParsedField}

theorem find?_digits (s : CString) : (s.find? fun c => !c.isDigit) = none ↔ Digits s := by
  simp [Digits, List.find?_eq_none]

theorem validateNumeric_ok :
    validateNumeric f = .ok () ↔ ∃ whole fraction, NumberText f.insertValue whole fraction ∧
      FitsPrecision f.fieldPrecision f.fieldScale whole.length fraction.length := by
  constructor
  · intro valid
    unfold validateNumeric at valid
    dsimp only at valid
    split at valid
    · cases valid
    next filled =>
    split at valid
    · cases valid
    next digits =>
    split at valid
    · cases valid
    next each =>
    split at valid
    · cases valid
    next rest scanned =>
    split at valid
    · cases valid
    next ended =>
    split at valid
    · cases valid
    next fewWhole =>
    split at valid
    · cases valid
    next fewPlaces =>
      rw [of_not_not ended] at scanned
      refine ⟨_, _, numberText_of_scan filled ((find?_digits _).mp digits)
        ((find?_digits _).mp each) scanned, fun precise => ?_⟩
      omega
  · intro ⟨whole, fraction, number, fits⟩
    obtain ⟨filled, before, places, scanned⟩ := scan_of_numberText number
    have digits : Digits whole := by
      obtain ⟨_, _, _, _, _, digits, _, _, _⟩ := number
      exact digits
    have each : Digits fraction := by
      obtain ⟨_, _, _, _, _, _, point, _, _⟩ := number
      exact point.digits
    have fewWhole : ¬(0 < f.fieldPrecision ∧ 0 ≤ f.fieldScale ∧
        f.fieldPrecision - f.fieldScale < (whole.length : Int)) := by
      intro ⟨precise, scaled, beyond⟩
      have room := (fits ⟨precise, scaled⟩).1
      omega
    have fewPlaces : ¬(0 < f.fieldPrecision ∧ 0 ≤ f.fieldScale ∧
        f.fieldScale < (fraction.length : Int)) := by
      intro ⟨precise, scaled, beyond⟩
      have room := (fits ⟨precise, scaled⟩).2
      omega
    unfold validateNumeric
    simp only [if_neg filled, before, places, scanned, (find?_digits _).mpr digits,
      (find?_digits _).mpr each, if_neg fewWhole, if_neg fewPlaces, ne_eq, not_true, if_false]

theorem validateString_ok :
    validateString f = .ok () ↔
      f.fieldLength ≤ 0 ∨ (f.insertValue.length : Int) ≤ f.fieldLength := by
  unfold validateString
  dsimp only
  split
  · simp only [reduceCtorEq, false_iff]
    omega
  · simp only [true_iff]
    omega

theorem validateRaw_ok :
    validateRaw f = .ok () ↔ (∀ c ∈ f.insertValue, isXDigit c = true) ∧
      (f.fieldLength ≤ 0 ∨ (f.insertValue.length : Int) ≤ f.fieldLength * 2) := by
  have hex : (f.insertValue.zipIdx.find? fun entry => !isXDigit entry.1) = none ↔
      ∀ c ∈ f.insertValue, isXDigit c = true := by
    rw [List.find?_eq_none]
    constructor
    · intro each c member
      obtain ⟨i, inside, same⟩ := List.getElem_of_mem member
      have entry : (c, i) ∈ f.insertValue.zipIdx :=
        List.mem_zipIdx_iff_getElem?.mpr (by rw [List.getElem?_eq_getElem inside, same])
      simpa using each (c, i) entry
    · intro each entry member
      have inside := List.mem_of_getElem? (List.mem_zipIdx_iff_getElem?.mp member)
      simpa using each entry.1 inside
  unfold validateRaw
  dsimp only
  split
  next c i found =>
    have broken : ¬∀ c ∈ f.insertValue, isXDigit c = true := by
      rw [← hex, found]
      exact Option.some_ne_none _
    simp [broken]
  next none =>
    have fine := hex.mp none
    split
    · simp only [reduceCtorEq, false_iff]
      omega
    · refine iff_of_true rfl ⟨fine, ?_⟩
      omega

end Rules

end OciWrapper.Dml
