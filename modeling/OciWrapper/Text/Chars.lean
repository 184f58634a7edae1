import Mathlib

namespace OciWrapper.Text

/-- A C string: the bytes before the terminator, one `Char` for a byte. -/
abbrev CString := List Char

instance : LawfulBEq CString := inferInstance

/-- `isspace` of the C locale; its `toupper` is `Char.toUpper`. -/
def isSpace (c : Char) : Bool :=
  c == ' ' || c == '\t' || c == '\n' || c == '\x0b' || c == '\x0c' || c == '\r'

theorem isSpace_blank : isSpace ' ' = true := rfl

theorem char_eq_iff (a b : Char) : a = b ↔ a.toNat = b.toNat :=
  ⟨fun h => h ▸ rfl, fun h => Char.toNat_inj.mp h⟩

theorem isSpace_iff (c : Char) :
    isSpace c = true ↔ c.toNat = 32 ∨ (9 ≤ c.toNat ∧ c.toNat ≤ 13) := by
  simp only [isSpace, Bool.or_eq_true, beq_iff_eq, char_eq_iff, show ' '.toNat = 32 from rfl,
    show '\t'.toNat = 9 from rfl, show '\n'.toNat = 10 from rfl, show '\x0b'.toNat = 11 from rfl,
    show '\x0c'.toNat = 12 from rfl, show '\r'.toNat = 13 from rfl]
  omega

theorem isLower_iff (c : Char) : c.isLower = true ↔ 97 ≤ c.toNat ∧ c.toNat ≤ 122 := by
  simp only [Char.isLower, Bool.and_eq_true, decide_eq_true_eq]
  exact Iff.rfl

theorem isUpper_iff (c : Char) : c.isUpper = true ↔ 65 ≤ c.toNat ∧ c.toNat ≤ 90 := by
  simp only [Char.isUpper, decide_eq_true_eq]
  exact Iff.rfl

theorem not_space_of_alpha {c : Char} (alpha : c.isAlpha = true) : isSpace c = false := by
  rw [Bool.eq_false_iff]
  intro blank
  rw [Char.isAlpha, Bool.or_eq_true, isUpper_iff, isLower_iff] at alpha
  rw [isSpace_iff] at blank
  omega

theorem toUpper_of_not_alpha {c : Char} (plain : c.isAlpha = false) : c.toUpper = c := by
  apply Char.toUpper_eq_of_not_isLower
  intro lower
  simp [Char.isAlpha, lower] at plain

@[simp] theorem isSpace_toUpper (c : Char) : isSpace c.toUpper = isSpace c := by
  cases alpha : c.isAlpha
  · rw [toUpper_of_not_alpha alpha]
  · rw [not_space_of_alpha alpha, not_space_of_alpha]
    rw [Char.isAlpha_toUpper_eq_isAlpha, alpha]

/-- Every letter has another letter that `toupper` does not tell from it. -/
theorem exists_other_case {c : Char} (alpha : c.isAlpha = true) :
    ∃ d : Char, d ≠ c ∧ d.toUpper = c.toUpper := by
  rw [Char.isAlpha, Bool.or_eq_true] at alpha
  rcases alpha with upper | lower
  · refine ⟨c.toLower, fun same => ?_, Char.toUpper_toLower_eq_toUpper c⟩
    have low := Char.isUpper_toLower_eq_false c
    rw [same, upper] at low
    cases low
  · refine ⟨c.toUpper, fun same => ?_, Char.toUpper_toUpper_eq_toUpper c⟩
    have high := Char.isLower_toUpper_eq_false c
    rw [same, lower] at high
    cases high

/-- Every blank has another blank beside it. -/
theorem exists_other_space (c : Char) : ∃ d : Char, d ≠ c ∧ isSpace d = true := by
  by_cases blank : c = ' '
  · subst blank
    exact ⟨'\t', by decide, by decide⟩
  · exact ⟨' ', fun same => blank same.symm, by decide⟩

end OciWrapper.Text
