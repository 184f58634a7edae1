import OciWrapper.Dates.CanonicalReading

namespace OciWrapper.Dates

open OciWrapper.Text

/-- Leap years by the Julian rule and by the Gregorian rule. -/
def JulianLeap (y : Nat) : Prop := 4 ∣ y
def GregorianLeap (y : Nat) : Prop := 4 ∣ y ∧ (100 ∣ y → 400 ∣ y)

/-- The months up to the change of the calendar in October 1582. -/
def IsJulian (y m : Nat) : Prop := y < 1582 ∨ y = 1582 ∧ m ≤ 10

/-- The days of a month of Oracle's calendar, its change apart. -/
def InMonth (y m d : Nat) : Prop :=
  1 ≤ d ∧
    ((m ∈ [1, 3, 5, 7, 8, 10, 12] ∧ d ≤ 31) ∨ (m ∈ [4, 6, 9, 11] ∧ d ≤ 30) ∨
      (m = 2 ∧ (d ≤ 28 ∨ d = 29 ∧ (IsJulian y m ∧ JulianLeap y ∨ ¬ IsJulian y m ∧ GregorianLeap y))))

/-- A date and time of Oracle's calendar, to the nanosecond. -/
structure OracleDateTime where
  year : Nat
  month : Nat
  day : Nat
  hour : Nat
  minute : Nat
  second : Nat
  fraction : CString
  yearRange : 1 ≤ year ∧ year ≤ 9999
  inMonth : InMonth year month day
  -- 4 October 1582 is followed by the 15th
  outsideGap : ¬ (year = 1582 ∧ month = 10 ∧ 5 ≤ day ∧ day ≤ 14)
  hourRange : hour ≤ 23
  minuteRange : minute ≤ 59
  secondRange : second ≤ 59
  nanoseconds : fraction.length = 9 ∧ ∀ c ∈ fraction, c.isDigit = true

/-- The canonical form: a date to the second, a timestamp to the microsecond. -/
def OracleDateTime.canonicalForm (t : OracleDateTime) (isTimestamp : Bool) : CString :=
  padded 4 t.year ++ '-' :: padded 2 t.month ++ '-' :: padded 2 t.day ++ ' ' ::
    padded 2 t.hour ++ ':' :: padded 2 t.minute ++ ':' :: padded 2 t.second ++
    if isTimestamp then '.' :: t.fraction.take 6 else []

theorem isLeap_iff (y : Nat) :
    isLeap y = true ↔ IsJulian y 2 ∧ JulianLeap y ∨ ¬ IsJulian y 2 ∧ GregorianLeap y := by
  unfold isLeap IsJulian JulianLeap GregorianLeap
  split <;>
    simp only [Bool.or_eq_true, Bool.and_eq_true, beq_iff_eq, bne_iff_ne] <;>
    omega

theorem inMonth_iff (y m d : Nat) :
    InMonth y m d ↔ (1 ≤ m ∧ m ≤ 12) ∧ 1 ≤ d ∧ d ≤ daysInMonth y m := by
  have leap := isLeap_iff y
  by_cases months : 1 ≤ m ∧ m ≤ 12
  · obtain ⟨low, high⟩ := months
    have cases : m = 1 ∨ m = 2 ∨ m = 3 ∨ m = 4 ∨ m = 5 ∨ m = 6 ∨ m = 7 ∨ m = 8 ∨ m = 9 ∨
        m = 10 ∨ m = 11 ∨ m = 12 := by omega
    rcases cases with rfl | rfl | rfl | rfl | rfl | rfl | rfl | rfl | rfl | rfl | rfl | rfl
    case inr.inl =>
      rw [InMonth, ← leap, daysInMonth]
      cases isLeap y <;> simp <;> omega
    all_goals simp [InMonth, daysInMonth]
  · refine iff_of_false ?_ fun both => months both.1
    rintro ⟨-, within⟩
    simp only [List.mem_cons, List.not_mem_nil, or_false] at within
    omega

/-- The parts that `finish` writes out are a date and time of the calendar. -/
theorem canonicalText_form {dt : DtParts} (calendar : InCalendar dt) (isTimestamp : Bool) :
    ∃ t : OracleDateTime, canonicalText dt isTimestamp = t.canonicalForm isTimestamp := by
  have long := sixDigits_length dt.frac
  have days : InMonth dt.year dt.month dt.day :=
    (inMonth_iff _ _ _).mpr ⟨calendar.month, calendar.day.1, calendar.inMonth⟩
  have nanoseconds : ∀ c ∈ sixDigits dt.frac ++ ['0', '0', '0'], c.isDigit = true := by
    intro c member
    rcases List.mem_append.mp member with digit | zero
    · exact sixDigits_isDigit calendar.frac c digit
    · fin_cases zero <;> rfl
  refine ⟨⟨dt.year, dt.month, dt.day, dt.hour, dt.minute, dt.second,
    sixDigits dt.frac ++ ['0', '0', '0'], calendar.year, days, calendar.outsideGap, calendar.hour,
    calendar.minute, calendar.second, by simp [long], nanoseconds⟩, ?_⟩
  rw [canonicalText, OracleDateTime.canonicalForm]
  simp only [List.take_left' long]

/-- The parts that stand for the date and time. -/
def OracleDateTime.parts (t : OracleDateTime) : DtParts :=
  ⟨t.year, t.month, t.day, t.hour, t.minute, t.second, true, true, true, true, false, .none,
    t.fraction⟩

theorem OracleDateTime.parts_inCalendar (t : OracleDateTime) : InCalendar t.parts := by
  obtain ⟨month, day, days⟩ := (inMonth_iff _ _ _).mp t.inMonth
  have longest : daysInMonth t.year t.month ≤ 31 := by
    have cases : t.month = 1 ∨ t.month = 2 ∨ t.month = 3 ∨ t.month = 4 ∨ t.month = 5 ∨
        t.month = 6 ∨ t.month = 7 ∨ t.month = 8 ∨ t.month = 9 ∨ t.month = 10 ∨ t.month = 11 ∨
        t.month = 12 := by omega
    unfold daysInMonth
    split
    · omega
    · rcases cases with same | same | same | same | same | same | same | same | same | same |
        same | same <;> simp [same]
  exact ⟨t.yearRange, month, ⟨day, days.trans longest⟩, days, t.outsideGap, t.hourRange,
    t.minuteRange, t.secondRange, t.nanoseconds.2⟩

theorem OracleDateTime.canonicalText_parts (t : OracleDateTime) (isTimestamp : Bool) :
    canonicalText t.parts isTimestamp = t.canonicalForm isTimestamp := by
  have long : 6 ≤ t.fraction.length := by
    rw [t.nanoseconds.1]
    omega
  have six : sixDigits t.fraction = t.fraction.take 6 := by
    rw [sixDigits, Nat.sub_eq_zero_of_le long, List.replicate_zero, List.append_nil]
  simp only [canonicalText, canonicalForm, parts, six]

end OciWrapper.Dates
