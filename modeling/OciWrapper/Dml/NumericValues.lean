import OciWrapper.Dml.ValidateField
import OciWrapper.Text.DecimalValue

namespace OciWrapper.Dml

open OciWrapper.Text

/-- The value of a field is a decimal number that fits its column; a column without a precision
takes every number. -/
def DecimalFits (f : ParsedField) : Prop :=
  ∃ v, IsDecimal f.insertValue v ∧
    (0 < f.fieldPrecision → FitsNumber f.fieldPrecision f.fieldScale v)

/-- What `validate_numeric` takes for the exponent of the text. -/
def scannedExponent (s : CString) : Int :=
  exponentValue (afterFraction (afterWhole (afterSign s)))

/-- The digits of a number, counted as they stand, decide as those that count do; a text without
digits is too long for its column. -/
def CountsDecide (f : ParsedField) : Prop :=
  ∀ whole fraction, NumberText f.insertValue whole fraction →
    if whole ++ fraction = [] then ¬FitsPrecision f.fieldPrecision f.fieldScale 0 0
    else (FitsPrecision f.fieldPrecision f.fieldScale whole.length fraction.length ↔
      (0 < f.fieldPrecision → SignificantFits f.fieldPrecision f.fieldScale whole fraction
        (scannedExponent f.insertValue)))

section Decimals

variable {s whole fraction : CString}

theorem isDecimal_numberText {v : ℚ} (decimal : IsDecimal s v) : ∃ whole fraction,
    NumberText s whole fraction ∧ whole ++ fraction ≠ [] := by
  obtain ⟨sign, whole, point, fraction, exponent, rfl, signed, digits, point', exponent', filled,
    -⟩ := decimal
  refine ⟨whole, fraction, ⟨sign, point, exponent, rfl, signed, digits, point', exponent', ?_⟩,
    filled⟩
  intro empty
  obtain ⟨rfl, rest⟩ := List.append_eq_nil_iff.mp empty
  obtain ⟨rfl, -⟩ := List.append_eq_nil_iff.mp rest
  rcases point' with ⟨-, rfl⟩ | ⟨pointed, -⟩
  · exact filled rfl
  · cases pointed

theorem numberText_unique {whole' fraction' : CString} (number : NumberText s whole fraction)
    (other : NumberText s whole' fraction') : whole' = whole ∧ fraction' = fraction := by
  obtain ⟨-, before, places, -⟩ := scan_of_numberText number
  obtain ⟨-, before', places', -⟩ := scan_of_numberText other
  exact ⟨before'.symm.trans before, places'.symm.trans places⟩

/-- The value of a number with digits is the only one. -/
theorem decimal_fits_iff (number : NumberText s whole fraction) (filled : whole ++ fraction ≠ [])
    (precision scale : Int) :
    (∃ v, IsDecimal s v ∧ (0 < precision → FitsNumber precision scale v)) ↔
      (0 < precision → SignificantFits precision scale whole fraction (scannedExponent s)) := by
  constructor
  · rintro ⟨v, decimal, fits⟩ precise
    obtain ⟨sign, whole', point, fraction', exponent, rfl, signed, digits, point', exponent',
      filled', rfl⟩ := decimal
    obtain ⟨unsigned, before, places, tail⟩ := scan_parts signed digits point' exponent'
    obtain ⟨-, before', places', -⟩ := scan_of_numberText number
    rw [unsigned] at before' places'
    obtain rfl : whole' = whole := before.symm.trans before'
    obtain rfl : fraction' = fraction := places.symm.trans places'
    have each : Digits (whole' ++ fraction') :=
      List.forall_mem_append.mpr ⟨digits, point'.digits⟩
    rw [scannedExponent, unsigned, tail]
    exact (fitsNumber_iff each).mp (fits precise)
  · intro fits
    obtain ⟨sign, point, exponent, rfl, signed, digits, point', exponent', -⟩ := number
    obtain ⟨unsigned, before, places, tail⟩ := scan_parts signed digits point' exponent'
    have each : Digits (whole ++ fraction) :=
      List.forall_mem_append.mpr ⟨digits, point'.digits⟩
    rw [scannedExponent, unsigned, tail] at fits
    exact ⟨_, ⟨sign, whole, point, fraction, exponent, rfl, signed, digits, point', exponent',
      filled, rfl⟩, fun precise => (fitsNumber_iff each).mpr (fits precise)⟩

end Decimals

/-- `validate_numeric` accepts just the numbers that fit the column exactly when the digits of the
text decide that as they stand. -/
theorem numeric_decides_iff (f : ParsedField) :
    (validateNumeric f = .ok () ↔ DecimalFits f) ↔ CountsDecide f := by
  by_cases number : ∃ whole fraction, NumberText f.insertValue whole fraction
  · obtain ⟨whole, fraction, number⟩ := number
    have accepted : validateNumeric f = .ok () ↔
        FitsPrecision f.fieldPrecision f.fieldScale whole.length fraction.length := by
      rw [validateNumeric_ok]
      constructor
      · rintro ⟨whole', fraction', other, fits⟩
        obtain ⟨rfl, rfl⟩ := numberText_unique number other
        exact fits
      · intro fits
        exact ⟨whole, fraction, number, fits⟩
    have only : CountsDecide f ↔ if whole ++ fraction = [] then
        ¬FitsPrecision f.fieldPrecision f.fieldScale 0 0
        else (FitsPrecision f.fieldPrecision f.fieldScale whole.length fraction.length ↔
          (0 < f.fieldPrecision → SignificantFits f.fieldPrecision f.fieldScale whole fraction
            (scannedExponent f.insertValue))) := by
      constructor
      · intro all
        exact all whole fraction number
      · intro here whole' fraction' other
        obtain ⟨rfl, rfl⟩ := numberText_unique number other
        exact here
    rw [only, accepted]
    split
    next empty =>
      have none : ¬DecimalFits f := by
        rintro ⟨v, decimal, -⟩
        obtain ⟨whole', fraction', other, filled⟩ := isDecimal_numberText decimal
        obtain ⟨rfl, rfl⟩ := numberText_unique number other
        exact filled empty
      obtain ⟨rfl, rfl⟩ := List.append_eq_nil_iff.mp empty
      rw [iff_false_right none]
      exact Iff.rfl
    next filled =>
      rw [DecimalFits, decimal_fits_iff number filled]
  · refine iff_of_true (iff_of_false ?_ ?_) ?_
    · rw [validateNumeric_ok]
      rintro ⟨whole, fraction, text, -⟩
      exact number ⟨whole, fraction, text⟩
    · rintro ⟨v, decimal, -⟩
      obtain ⟨whole, fraction, text, -⟩ := isDecimal_numberText decimal
      exact number ⟨whole, fraction, text⟩
    · intro whole fraction text
      exact absurd ⟨whole, fraction, text⟩ number

/-- `validate_numeric` does not look at the value of an exponent. -/
theorem exponent_not_counted :
    ¬(validateNumeric ⟨1, ['N'], "NUMBER".toList, 0, 3, 2, ['Y'], [], "1e5".toList⟩ = .ok () ↔
      DecimalFits ⟨1, ['N'], "NUMBER".toList, 0, 3, 2, ['Y'], [], "1e5".toList⟩) := by
  have number : NumberText "1e5".toList ['1'] [] :=
    ⟨[], [], ['e', '5'], rfl, Or.inl rfl, List.forall_mem_singleton.mpr rfl, Or.inl ⟨rfl, rfl⟩,
      Or.inr ⟨'e', [], ['5'], rfl, Or.inl rfl, List.cons_ne_nil _ _,
        List.forall_mem_singleton.mpr rfl, rfl⟩, List.cons_ne_nil _ _⟩
  have beyond : ¬(0 < (3 : Int) →
      SignificantFits 3 2 ['1'] [] (scannedExponent "1e5".toList)) := by
    unfold SignificantFits
    decide +kernel
  rw [DecimalFits, decimal_fits_iff number (by decide)]
  intro same
  exact beyond (same.mp (by decide +kernel))

end OciWrapper.Dml
