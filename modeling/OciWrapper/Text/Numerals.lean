import OciWrapper.Text.Chars

namespace OciWrapper.Text

theorem isDigit_iff (c : Char) : c.isDigit = true ↔ 48 ≤ c.toNat ∧ c.toNat ≤ 57 := by
  simp only [Char.isDigit, Bool.and_eq_true, decide_eq_true_eq]
  exact Iff.rfl

/-- `%ld` and `%d`. -/
def decimal (n : Int) : CString :=
  if n < 0 then '-' :: Nat.toDigits 10 n.natAbs else Nat.toDigits 10 n.natAbs

def digitsValue (s : CString) : Nat :=
  (s.takeWhile Char.isDigit).foldl (fun value c => 10 * value + (c.toNat - 48)) 0

/-- `atol` and `atoi`, for numbers that fit. -/
def atol (s : CString) : Int :=
  match s.dropWhile isSpace with
  | '-' :: digits => -(digitsValue digits : Int)
  | '+' :: digits => digitsValue digits
  | digits => digitsValue digits

theorem digitsValue_toDigits (n : Nat) : digitsValue (Nat.toDigits 10 n) = n := by
  have all : (Nat.toDigits 10 n).takeWhile Char.isDigit = Nat.toDigits 10 n :=
    List.takeWhile_eq_self_iff.mpr fun c member =>
      Nat.isDigit_of_mem_toDigits (by omega) (by omega) member
  rw [digitsValue, all]
  exact Nat.ofDigitChars_ten_toDigits

theorem not_space_of_isDigit {c : Char} (digit : c.isDigit = true) : isSpace c = false := by
  rw [Bool.eq_false_iff]
  intro blank
  rw [isSpace_iff] at blank
  rw [isDigit_iff] at digit
  omega

/-- A text that begins with a digit has no sign and no blank before its number. -/
theorem atol_digit {c : Char} {s : CString} (digit : c.isDigit = true) :
    atol (c :: s) = digitsValue (c :: s) := by
  have unsigned : c ≠ '-' ∧ c ≠ '+' := by
    constructor <;> rintro rfl <;> cases digit
  rw [atol, List.dropWhile_cons, not_space_of_isDigit digit]
  simp only [Bool.false_eq_true, if_false]
  split
  · simp_all
  · simp_all
  · rfl

theorem atol_decimal (n : Int) : atol (decimal n) = n := by
  have value := digitsValue_toDigits n.natAbs
  rw [decimal]
  split
  next negative =>
    have signed : atol ('-' :: Nat.toDigits 10 n.natAbs) =
        -(digitsValue (Nat.toDigits 10 n.natAbs) : Int) := rfl
    rw [signed, value]
    omega
  next positive =>
    cases digits : Nat.toDigits 10 n.natAbs with
    | nil =>
      have some := @Nat.length_toDigits_pos 10 n.natAbs
      rw [digits] at some
      cases some
    | cons c s =>
      have member : c ∈ Nat.toDigits 10 n.natAbs := by
        rw [digits]
        exact List.mem_cons_self
      rw [atol_digit (Nat.isDigit_of_mem_toDigits (by omega) (by omega) member), ← digits, value]
      omega

/-- The tokens of `strtok` with the one separator: an empty piece is no token. -/
def strtokAll (separator : Char) (s : CString) : List CString :=
  (s.splitOn separator).filter (· ≠ [])

end OciWrapper.Text
