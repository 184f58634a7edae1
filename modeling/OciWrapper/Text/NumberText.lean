import OciWrapper.Text.Numerals

namespace OciWrapper.Text

def isExponentMark (c : Char) : Bool := c == 'e' || c == 'E'

/-- The text after an optional sign. -/
def afterSign : CString → CString
  | [] => []
  | c :: s => if c = '+' ∨ c = '-' then s else c :: s

def SignText (s : CString) : Prop := s = [] ∨ s = ['+'] ∨ s = ['-']

def Digits (s : CString) : Prop := ∀ c ∈ s, c.isDigit = true

/-- A point and digits, or nothing. -/
def FractionText (s digits : CString) : Prop :=
  s = [] ∧ digits = [] ∨ s = '.' :: digits ∧ Digits digits

/-- A mark, a sign and some digits, or nothing. -/
def ExponentText (s : CString) : Prop :=
  s = [] ∨ ∃ mark sign digits, isExponentMark mark = true ∧ SignText sign ∧ digits ≠ [] ∧
    Digits digits ∧ s = mark :: (sign ++ digits)

/-- The text of a number with the digits before and after its point. -/
def NumberText (s whole fraction : CString) : Prop :=
  ∃ sign point exponent, s = sign ++ (whole ++ (point ++ exponent)) ∧ SignText sign ∧
    Digits whole ∧ FractionText point fraction ∧ ExponentText exponent ∧
    whole ++ (point ++ exponent) ≠ []

/-- The text breaks off in the mark or after the sign of an exponent. -/
def OpenExponent (s : CString) : Prop :=
  ∃ before mark sign, isExponentMark mark = true ∧ SignText sign ∧ s = before ++ mark :: sign

theorem SignText.length_le {s : CString} (signed : SignText s) : s.length ≤ 1 := by
  rcases signed with rfl | rfl | rfl <;> decide

theorem Digits.take {s : CString} (digits : Digits s) (n : Nat) : Digits (s.take n) :=
  fun c member => digits c (List.mem_of_mem_take member)

theorem isExponentMark_iff {c : Char} : isExponentMark c = true ↔ c = 'e' ∨ c = 'E' := by
  simp [isExponentMark]

theorem not_isDigit_of_mark {c : Char} (mark : isExponentMark c = true) : c.isDigit = false := by
  rcases isExponentMark_iff.mp mark with rfl | rfl <;> rfl

theorem afterSign_sign {sign s : CString} (signed : SignText sign)
    (plain : ∀ c, s.head? = some c → c ≠ '+' ∧ c ≠ '-') : afterSign (sign ++ s) = s := by
  rcases signed with rfl | rfl | rfl
  · cases s with
    | nil => rfl
    | cons c s =>
      obtain ⟨noPlus, noMinus⟩ := plain c rfl
      rw [List.nil_append, afterSign, if_neg (by simp [noPlus, noMinus])]
  · rfl
  · rfl

theorem exists_afterSign (s : CString) : ∃ sign, SignText sign ∧ s = sign ++ afterSign s := by
  cases s with
  | nil => exact ⟨[], Or.inl rfl, rfl⟩
  | cons c s =>
    by_cases signed : c = '+' ∨ c = '-'
    · refine ⟨[c], ?_, by rw [afterSign, if_pos signed]; rfl⟩
      rcases signed with rfl | rfl
      · exact Or.inr (Or.inl rfl)
      · exact Or.inr (Or.inr rfl)
    · exact ⟨[], Or.inl rfl, by rw [afterSign, if_neg signed]; rfl⟩

theorem ExponentText.head {exponent : CString} (text : ExponentText exponent) {c : Char}
    (first : exponent.head? = some c) : isExponentMark c = true := by
  rcases text with rfl | ⟨mark, sign, digits, marked, -, -, -, rfl⟩
  · cases first
  · cases first
    exact marked

theorem SignText.take {s : CString} (signed : SignText s) (n : Nat) : SignText (s.take n) := by
  cases n with
  | zero => exact Or.inl List.take_zero
  | succ n =>
    have short := signed.length_le
    rwa [List.take_of_length_le (by omega)]

theorem FractionText.digits {s digits : CString} (point : FractionText s digits) :
    Digits digits := by
  rcases point with ⟨-, rfl⟩ | ⟨-, each⟩
  · exact List.forall_mem_nil _
  · exact each

theorem FractionText.take {s digits : CString} (point : FractionText s digits) (n : Nat) :
    ∃ digits', FractionText (s.take n) digits' ∧ digits'.length ≤ digits.length := by
  rcases point with ⟨rfl, rfl⟩ | ⟨rfl, each⟩
  · exact ⟨[], Or.inl ⟨List.take_nil, rfl⟩, Nat.le_refl _⟩
  · cases n with
    | zero => exact ⟨[], Or.inl ⟨List.take_zero, rfl⟩, Nat.zero_le _⟩
    | succ n =>
      exact ⟨digits.take n, Or.inr ⟨List.take_succ_cons, each.take n⟩, List.length_take_le' n digits⟩

/-- An exponent that is cut is still one, gone, or broken off before its digits. -/
theorem ExponentText.take {s : CString} (exponent : ExponentText s) (n : Nat) :
    ExponentText (s.take n) ∨
      ∃ mark sign, isExponentMark mark = true ∧ SignText sign ∧ s.take n = mark :: sign := by
  rcases exponent with rfl | ⟨mark, sign, digits, marked, signed, -, each, rfl⟩
  · exact Or.inl (Or.inl List.take_nil)
  · cases n with
    | zero => exact Or.inl (Or.inl List.take_zero)
    | succ n =>
      rw [List.take_succ_cons, List.take_append]
      by_cases broken : digits.take (n - sign.length) = []
      · rw [broken, List.append_nil]
        exact Or.inr ⟨mark, sign.take n, marked, signed.take n, rfl⟩
      · exact Or.inl (Or.inr ⟨mark, sign.take n, digits.take (n - sign.length), marked,
          signed.take n, broken, each.take _, rfl⟩)

/-- A number ends in a digit or in its point. -/
theorem NumberText.last {s whole fraction : CString} (number : NumberText s whole fraction) {c : Char}
    (last : s.getLast? = some c) : c.isDigit = true ∨ c = '.' := by
  obtain ⟨sign, point, exponent, rfl, -, digits, point', exponent', filled⟩ := number
  rw [List.getLast?_append_of_ne_nil _ filled] at last
  rcases exponent' with rfl | ⟨mark, sign', digits', -, -, some, each, rfl⟩
  · rw [List.append_nil] at last
    rcases point' with ⟨rfl, rfl⟩ | ⟨rfl, each⟩
    · rw [List.append_nil] at last
      exact Or.inl (digits c (List.mem_of_getLast? last))
    · rw [List.getLast?_append_of_ne_nil _ (List.cons_ne_nil _ _)] at last
      rcases List.mem_cons.mp (List.mem_of_getLast? last) with rfl | member
      · exact Or.inr rfl
      · exact Or.inl (each c member)
  · rw [List.getLast?_append_of_ne_nil _ (by simp), List.getLast?_append_of_ne_nil _ (by simp),
      List.getLast?_cons_of_ne_nil (by simp [some]), List.getLast?_append_of_ne_nil _ some] at last
    exact Or.inl (each c (List.mem_of_getLast? last))

theorem NumberText.not_open {s whole fraction : CString} (number : NumberText s whole fraction) :
    ¬OpenExponent s := by
  intro ⟨before, mark, sign, marked, signed, same⟩
  have last : s.getLast? = some ((mark :: sign).getLast (List.cons_ne_nil mark sign)) := by
    rw [same, List.getLast?_append_of_ne_nil _ (List.cons_ne_nil mark sign),
      List.getLast?_eq_getLast_of_ne_nil]
  have final := number.last last
  have bare : (mark :: sign).getLast (List.cons_ne_nil mark sign) ∈ ['e', 'E', '+', '-'] := by
    rcases isExponentMark_iff.mp marked with rfl | rfl <;>
      rcases signed with rfl | rfl | rfl <;> decide
  generalize (mark :: sign).getLast (List.cons_ne_nil mark sign) = c at final bare
  simp only [List.mem_cons, List.not_mem_nil, or_false] at bare
  rcases bare with rfl | rfl | rfl | rfl <;> exact absurd final (by decide)

/-- A number that is cut is still one, unless it is cut in the mark of its exponent. -/
theorem NumberText.take {s whole fraction : CString} (number : NumberText s whole fraction) {n : Nat}
    (several : 2 ≤ n) (within : n ≤ s.length) :
    (∃ whole' fraction', NumberText (s.take n) whole' fraction' ∧ whole'.length ≤ whole.length ∧
      fraction'.length ≤ fraction.length) ∨ OpenExponent (s.take n) := by
  obtain ⟨sign, point, exponent, rfl, signed, digits, point', exponent', filled⟩ := number
  have short := signed.length_le
  have cut : (sign ++ (whole ++ (point ++ exponent))).take n =
      sign ++ (whole ++ (point ++ exponent)).take (n - sign.length) := by
    rw [List.take_append, List.take_of_length_le (by omega)]
  rw [cut]
  generalize left : n - sign.length = m
  have positive : 0 < m := by omega
  have room : m ≤ (whole ++ (point ++ exponent)).length := by
    rw [List.length_append] at within
    omega
  have size := List.length_take_of_le room
  rw [List.take_append, List.take_append] at size ⊢
  generalize m - whole.length = k at size ⊢
  generalize k - point.length = j at size ⊢
  have filled' : whole.take m ++ (point.take k ++ exponent.take j) ≠ [] := by
    intro empty
    rw [empty, List.length_nil] at size
    omega
  obtain ⟨fraction', pointCut, fewer⟩ := point'.take k
  rcases exponent'.take j with whole' | ⟨mark, sign', marked, signed', same⟩
  · exact Or.inl ⟨whole.take m, fraction', ⟨sign, _, _, rfl, signed, digits.take m, pointCut, whole',
      filled'⟩, List.length_take_le' m whole, fewer⟩
  · refine Or.inr ⟨sign ++ (whole.take m ++ point.take k), mark, sign', marked, signed', ?_⟩
    rw [same]
    simp only [List.append_assoc]

end OciWrapper.Text
