import OciWrapper.Text.NumberText

namespace OciWrapper.Text

def leadingZeros (digits : CString) : Nat := (digits.takeWhile (· == '0')).length

def trailingZeros (digits : CString) : Nat := leadingZeros digits.reverse

/-- The exponent that a text adds to its digits. -/
def exponentValue : CString → Int
  | [] => 0
  | _ :: exponent => atol exponent

/-- The text of a decimal number with at least one digit, and its value. -/
def IsDecimal (s : CString) (v : ℚ) : Prop :=
  ∃ sign whole point fraction exponent, s = sign ++ (whole ++ (point ++ exponent)) ∧
    SignText sign ∧ Digits whole ∧ FractionText point fraction ∧ ExponentText exponent ∧
    whole ++ fraction ≠ [] ∧ v = (if sign = ['-'] then -1 else 1) *
      (digitsValue (whole ++ fraction) * 10 ^ (exponentValue exponent - fraction.length))

/-- A number fits `NUMBER(precision, scale)`. -/
def FitsNumber (precision scale : Int) (v : ℚ) : Prop :=
  |v| < 10 ^ (precision - scale) ∧ ∃ z : ℤ, v * 10 ^ scale = z

/-- The digits of a number that count fit `NUMBER(precision, scale)`. -/
def SignificantFits (precision scale : Int) (whole fraction : CString) (exponent : Int) : Prop :=
  digitsValue (whole ++ fraction) = 0 ∨
    whole.length - leadingZeros (whole ++ fraction) + exponent ≤ precision - scale ∧
      fraction.length - trailingZeros (whole ++ fraction) - exponent ≤ scale

section Values

theorem digitsValue_append {front : CString} (digits : Digits front) (back : CString) :
    digitsValue (front ++ back) =
      (back.takeWhile Char.isDigit).foldl (fun value c => 10 * value + (c.toNat - 48))
        (digitsValue front) := by
  have all : front.takeWhile Char.isDigit = front := List.takeWhile_eq_self_iff.mpr digits
  rw [digitsValue, digitsValue, List.takeWhile_append_of_pos digits, List.foldl_append, all]

theorem digitsValue_concat {front : CString} (digits : Digits front) {d : Char}
    (digit : d.isDigit = true) :
    digitsValue (front ++ [d]) = 10 * digitsValue front + (d.toNat - 48) := by
  rw [digitsValue_append digits, List.takeWhile_cons_of_pos digit]
  rfl

theorem digit_lt {d : Char} (digit : d.isDigit = true) : d.toNat - 48 < 10 := by
  rw [isDigit_iff] at digit
  omega

theorem digit_eq_zero {d : Char} (digit : d.isDigit = true) : d.toNat - 48 = 0 ↔ d = '0' := by
  rw [isDigit_iff] at digit
  rw [char_eq_iff]
  change _ ↔ d.toNat = 48
  omega

theorem digits_concat {front : CString} {d : Char} :
    Digits (front ++ [d]) ↔ Digits front ∧ d.isDigit = true := by
  rw [Digits, List.forall_mem_append, List.forall_mem_singleton]
  exact Iff.rfl

theorem digitsValue_lt {digits : CString} (each : Digits digits) :
    digitsValue digits < 10 ^ digits.length := by
  induction digits using List.reverseRecOn with
  | nil => decide
  | append_singleton front d ih =>
    obtain ⟨first, last⟩ := digits_concat.mp each
    have bound := ih first
    have small := digit_lt last
    rw [digitsValue_concat first last, List.length_append, List.length_singleton, Nat.pow_succ]
    omega

theorem digitsValue_cons_zero (digits : CString) :
    digitsValue ('0' :: digits) = digitsValue digits := by
  rw [digitsValue, List.takeWhile_cons_of_pos rfl, List.foldl_cons]
  rfl

/-- Digits whose first is no zero. -/
theorem le_digitsValue {d : Char} {digits : CString} (each : Digits (d :: digits))
    (first : d ≠ '0') :
    10 ^ digits.length ≤ digitsValue (d :: digits) := by
  induction digits using List.reverseRecOn with
  | nil =>
    have digit := each d List.mem_cons_self
    have zero := mt (digit_eq_zero digit).mp first
    have value : digitsValue [d] = 10 * 0 + (d.toNat - 48) :=
      digitsValue_concat (List.forall_mem_nil _) digit
    rw [value, List.length_nil]
    omega
  | append_singleton front e ih =>
    rw [← List.cons_append] at each ⊢
    obtain ⟨before, last⟩ := digits_concat.mp each
    have bound := ih before
    rw [digitsValue_concat before last, List.length_append, List.length_singleton, Nat.pow_succ]
    omega

theorem digitsValue_bounds {digits : CString} (each : Digits digits)
    (filled : digitsValue digits ≠ 0) :
    leadingZeros digits < digits.length ∧
      10 ^ (digits.length - leadingZeros digits - 1) ≤ digitsValue digits ∧
      digitsValue digits < 10 ^ (digits.length - leadingZeros digits) := by
  induction digits with
  | nil => exact absurd rfl filled
  | cons d digits ih =>
    by_cases zero : d = '0'
    · subst zero
      rw [digitsValue_cons_zero] at filled ⊢
      have rest := ih (fun c member => each c (List.mem_cons_of_mem _ member)) filled
      have count : leadingZeros ('0' :: digits) = leadingZeros digits + 1 := rfl
      rw [count, List.length_cons, Nat.add_sub_add_right]
      exact ⟨Nat.succ_lt_succ rest.1, rest.2⟩
    · have count : leadingZeros (d :: digits) = 0 := by
        rw [leadingZeros, List.takeWhile_cons_of_neg (by simpa using zero)]
        rfl
      rw [count]
      exact ⟨Nat.succ_pos _, le_digitsValue each zero, digitsValue_lt each⟩

theorem trailingZeros_concat (front : CString) (d : Char) :
    trailingZeros (front ++ [d]) = if d = '0' then trailingZeros front + 1 else 0 := by
  rw [trailingZeros, List.reverse_append, List.reverse_singleton, List.singleton_append,
    leadingZeros]
  split
  next zero =>
    subst zero
    rfl
  next other =>
    rw [List.takeWhile_cons_of_neg (by simpa using other)]
    rfl

/-- A power of ten divides the value of digits that end in as many zeros, and no greater one. -/
theorem pow_dvd_digitsValue {digits : CString} (each : Digits digits)
    (filled : digitsValue digits ≠ 0) (k : Nat) :
    10 ^ k ∣ digitsValue digits ↔ k ≤ trailingZeros digits := by
  induction digits using List.reverseRecOn generalizing k with
  | nil => exact absurd rfl filled
  | append_singleton front d ih =>
    obtain ⟨first, last⟩ := digits_concat.mp each
    have small := digit_lt last
    rw [digitsValue_concat first last] at filled ⊢
    rw [trailingZeros_concat]
    cases k with
    | zero => exact iff_of_true (one_dvd _) (Nat.zero_le _)
    | succ k =>
      split
      next zero =>
        have last_zero : d.toNat - 48 = 0 := (digit_eq_zero last).mpr zero
        rw [last_zero, Nat.add_zero (10 * digitsValue front)] at filled ⊢
        rw [Nat.pow_succ', Nat.mul_dvd_mul_iff_left (by decide), Nat.add_le_add_iff_right]
        exact ih first (by omega) k
      next other =>
        have digit := mt (digit_eq_zero last).mp other
        refine iff_of_false ?_ (Nat.not_succ_le_zero k)
        rw [Nat.pow_succ']
        intro whole
        have ten := (Nat.dvd_add_right (Nat.dvd_mul_right 10 (digitsValue front))).mp
          ((Nat.dvd_mul_right 10 (10 ^ k)).trans whole)
        exact digit (Nat.eq_zero_of_dvd_of_lt ten small)

end Values

section Rationals

variable {n : Nat} {k : Int}

/-- Where a number with `length` digits stands to a power of ten. -/
theorem lt_zpow_iff {length : Nat} (low : 10 ^ (length - 1) ≤ n) (high : n < 10 ^ length)
    (some : 0 < length) : (n : ℚ) < 10 ^ k ↔ (length : Int) ≤ k := by
  have low' : (10 : ℚ) ^ ((length : Int) - 1) ≤ n := by
    rw [← Nat.cast_one, ← Nat.cast_sub some, zpow_natCast]
    exact_mod_cast low
  have high' : (n : ℚ) < 10 ^ (length : Int) := by
    rw [zpow_natCast]
    exact_mod_cast high
  constructor
  · intro below
    by_contra short
    have bound : (10 : ℚ) ^ k ≤ 10 ^ ((length : Int) - 1) :=
      zpow_le_zpow_right₀ (by norm_num) (by omega)
    exact absurd (below.trans_le bound) (not_lt_of_ge low')
  · intro long
    exact high'.trans_le (zpow_le_zpow_right₀ (by norm_num) long)

/-- A whole number times a power of ten is whole when the power divides it. -/
theorem whole_mul_zpow_iff : (∃ z : ℤ, (n : ℚ) * 10 ^ k = z) ↔ 10 ^ (-k).toNat ∣ n := by
  obtain ⟨m, rfl | rfl⟩ := Int.eq_nat_or_neg k
  · refine iff_of_true ⟨(n : ℤ) * 10 ^ m, ?_⟩ ?_
    · rw [zpow_natCast]
      push_cast
      rfl
    · rw [Int.toNat_of_nonpos (by omega), pow_zero]
      exact one_dvd n
  · rw [neg_neg, Int.toNat_natCast, zpow_neg, zpow_natCast]
    have positive : (10 : ℚ) ^ m ≠ 0 := pow_ne_zero m (by norm_num)
    have whole : ∀ z : ℤ, (n : ℚ) * (10 ^ m)⁻¹ = z ↔ (n : ℤ) = 10 ^ m * z := by
      intro z
      rw [mul_inv_eq_iff_eq_mul₀ positive, mul_comm (z : ℚ)]
      exact_mod_cast Iff.rfl
    simp only [whole]
    rw [← Int.natCast_dvd_natCast, Nat.cast_pow]
    exact Iff.rfl

theorem mul_zpow_lt_iff {i j : Int} : (n : ℚ) * 10 ^ i < 10 ^ j ↔ (n : ℚ) < 10 ^ (j - i) := by
  rw [zpow_sub₀ (by norm_num), lt_div_iff₀ (zpow_pos (by norm_num) i)]

/-- The value of a text fits exactly when its counting digits do. -/
theorem fitsNumber_iff {precision scale exponent : Int} {sign whole fraction : CString}
    (digits : Digits (whole ++ fraction)) :
    FitsNumber precision scale ((if sign = ['-'] then -1 else 1) *
      (digitsValue (whole ++ fraction) * 10 ^ (exponent - fraction.length))) ↔
      SignificantFits precision scale whole fraction exponent := by
  have size : |(if sign = ['-'] then (-1 : ℚ) else 1) *
      (digitsValue (whole ++ fraction) * 10 ^ (exponent - fraction.length))| =
        digitsValue (whole ++ fraction) * 10 ^ (exponent - fraction.length) := by
    have positive : (0 : ℚ) ≤ digitsValue (whole ++ fraction) * 10 ^ (exponent - fraction.length) :=
      mul_nonneg (Nat.cast_nonneg _) (zpow_nonneg (by norm_num) _)
    rw [abs_mul, abs_of_nonneg positive]
    split
    · rw [abs_neg, abs_one, one_mul]
    · rw [abs_one, one_mul]
  have integral : (∃ z : ℤ, (if sign = ['-'] then (-1 : ℚ) else 1) *
      (digitsValue (whole ++ fraction) * 10 ^ (exponent - fraction.length)) * 10 ^ scale = z) ↔
        10 ^ (-(exponent - fraction.length + scale)).toNat ∣ digitsValue (whole ++ fraction) := by
    rw [← whole_mul_zpow_iff, zpow_add₀ (by norm_num)]
    split
    · constructor
      · rintro ⟨z, same⟩
        refine ⟨-z, ?_⟩
        push_cast
        rw [← same]
        ring
      · rintro ⟨z, same⟩
        refine ⟨-z, ?_⟩
        push_cast
        rw [← same]
        ring
    · simp only [one_mul, mul_assoc]
  rw [FitsNumber, size, integral, mul_zpow_lt_iff, SignificantFits]
  by_cases zero : digitsValue (whole ++ fraction) = 0
  · rw [zero]
    refine iff_of_true ⟨?_, dvd_zero _⟩ (Or.inl rfl)
    rw [Nat.cast_zero]
    exact zpow_pos (by norm_num) _
  · obtain ⟨short, low, high⟩ := digitsValue_bounds digits zero
    rw [or_iff_right zero, lt_zpow_iff low high (by omega), pow_dvd_digitsValue digits zero]
    rw [List.length_append] at short ⊢
    omega

end Rationals

end OciWrapper.Text
