import OciWrapper.Dates.DateNormalize

namespace OciWrapper.Dates

open OciWrapper.Text

theorem ran_of_bind {ε α β : Type} {x : Except ε α} {f : α → Except ε β} {out : β}
    (ran : (x >>= f) = .ok out) : ∃ a, x = .ok a ∧ f a = .ok out := by
  cases x with
  | error reason => cases ran
  | ok a => exact ⟨a, rfl, ran⟩

theorem ran_of_mapError {ε δ α : Type} {x : Except ε α} {f : ε → δ} {out : α}
    (ran : x.mapError f = .ok out) : x = .ok out := by
  cases x with
  | error reason => cases ran
  | ok a =>
    cases ran
    rfl

/-- What holds of the parts at every point of `parse_value`. -/
structure WellRead (dt : DtParts) : Prop where
  hour : dt.hourSet = false → dt.hour = 0
  frac : ∀ c ∈ dt.frac, c.isDigit = true

theorem emptyParts_wellRead : WellRead emptyParts :=
  ⟨fun _ => rfl, fun _ member => nomatch member⟩

theorem leadingDigits_isDigit (maxWidth : Nat) (v : CString) :
    ∀ c ∈ leadingDigits maxWidth v, c.isDigit = true := by
  intro c member
  exact List.mem_takeWhile_imp member

theorem readMonth_wellRead {v v' : CString} {dt dt' : DtParts} (read : WellRead dt)
    (ran : readMonth v dt = .ok (v', dt')) : WellRead dt' := by
  rw [readMonth] at ran
  split at ran
  · cases ran
    exact ⟨read.hour, read.frac⟩
  · cases ran

theorem readMeridian_wellRead {v v' : CString} {dt dt' : DtParts} (read : WellRead dt)
    (ran : readMeridian v dt = .ok (v', dt')) : WellRead dt' := by
  rw [readMeridian] at ran
  repeat' split at ran
  all_goals cases ran
  all_goals exact ⟨read.hour, read.frac⟩

theorem parseElement_wellRead {currentYear : Nat} {el : FmtEl} {v v' : CString} {dt dt' : DtParts}
    (read : WellRead dt) (ran : parseElement currentYear el v dt = .ok (v', dt')) :
    WellRead dt' := by
  have same : ∀ changed : DtParts, changed.hour = dt.hour → changed.hourSet = dt.hourSet →
      changed.frac = dt.frac → WellRead changed := by
    intro changed hour hourSet frac
    exact ⟨by rw [hour, hourSet]; exact read.hour, by rw [frac]; exact read.frac⟩
  unfold parseElement at ran
  split at ran
  · cases ran
    exact read
  · split at ran
    · cases ran
      exact read
    · cases ran
  iterate 4
    obtain ⟨⟨nd, num, rest⟩, -, ran⟩ := ran_of_bind ran
    cases ran
    exact same _ rfl rfl rfl
  · split at ran
    · exact readMonth_wellRead read ran
    · obtain ⟨⟨nd, num, rest⟩, -, ran⟩ := ran_of_bind ran
      cases ran
      exact same _ rfl rfl rfl
  · exact readMonth_wellRead read ran
  · exact readMonth_wellRead read ran
  · obtain ⟨⟨nd, num, rest⟩, -, ran⟩ := ran_of_bind ran
    cases ran
    exact same _ rfl rfl rfl
  iterate 2
    obtain ⟨⟨nd, num, rest⟩, -, ran⟩ := ran_of_bind ran
    cases ran
    exact ⟨(nomatch ·), read.frac⟩
  iterate 2
    obtain ⟨⟨nd, num, rest⟩, -, ran⟩ := ran_of_bind ran
    cases ran
    exact same _ rfl rfl rfl
  · by_cases none : leadingDigits (if el.ffDigits = 0 then 9 else el.ffDigits) v = []
    · simp only [none, if_true] at ran
      cases ran
    · simp only [none, if_false] at ran
      cases ran
      exact ⟨read.hour, leadingDigits_isDigit _ _⟩
  · exact readMeridian_wellRead read ran

theorem parseElements_wellRead {currentYear : Nat} {els : List FmtEl} {v v' : CString}
    {dt dt' : DtParts} (read : WellRead dt)
    (ran : parseElements currentYear els v dt = .ok (v', dt')) : WellRead dt' := by
  induction els generalizing v dt with
  | nil =>
    cases ran
    exact read
  | cons el els ih =>
    rw [parseElements] at ran
    split at ran
    · split at ran
      · cases ran
        exact read
      · cases ran
    · obtain ⟨⟨rest, next⟩, element, ran⟩ := ran_of_bind ran
      exact ih (parseElement_wellRead read element) ran

theorem parseValue_wellRead {value : CString} {els : List FmtEl} {currentYear : Nat} {dt : DtParts}
    (ran : parseValue value els currentYear = .ok dt) : WellRead dt := by
  obtain ⟨⟨rest, parts⟩, elements, ran⟩ := ran_of_bind ran
  dsimp only at ran
  split at ran
  · cases ran
    exact parseElements_wellRead emptyParts_wellRead elements
  · cases ran

/-- The parts that `finish` writes out. -/
structure InCalendar (dt : DtParts) : Prop where
  year : 1 ≤ dt.year ∧ dt.year ≤ 9999
  month : 1 ≤ dt.month ∧ dt.month ≤ 12
  day : 1 ≤ dt.day ∧ dt.day ≤ 31
  inMonth : dt.day ≤ daysInMonth dt.year dt.month
  outsideGap : ¬ (dt.year = 1582 ∧ dt.month = 10 ∧ 5 ≤ dt.day ∧ dt.day ≤ 14)
  hour : dt.hour ≤ 23
  minute : dt.minute ≤ 59
  second : dt.second ≤ 59
  frac : ∀ c ∈ dt.frac, c.isDigit = true

theorem checkDate_ok {dt dt' : DtParts} (ran : checkDate dt = .ok dt') :
    ∃ day, dt' = { dt with day := day } ∧ (1 ≤ dt.year ∧ dt.year ≤ 9999) ∧
      (1 ≤ dt.month ∧ dt.month ≤ 12) ∧ (1 ≤ day ∧ day ≤ 31) ∧ day ≤ daysInMonth dt.year dt.month ∧
      ¬ (dt.year = 1582 ∧ dt.month = 10 ∧ 5 ≤ day ∧ day ≤ 14) := by
  unfold checkDate at ran
  split at ran
  · cases ran
  split at ran
  · cases ran
  split at ran
  · cases ran
  split at ran
  · cases ran
  split at ran
  next gap =>
    cases ran
    have october : daysInMonth dt.year dt.month = 31 := by rw [gap.1, gap.2.1]; rfl
    exact ⟨15, rfl, by omega, by omega, by omega, by omega, by omega⟩
  next =>
    cases ran
    exact ⟨dt.day, rfl, by omega, by omega, by omega, by omega, by assumption⟩

theorem checkHour_le {dt : DtParts} {hour : Nat} (unset : dt.hourSet = false → dt.hour = 0)
    (ran : checkHour dt = .ok hour) : hour ≤ 23 := by
  unfold checkHour at ran
  split at ran
  next given =>
    cases ran
    rw [unset (by simpa using given)]
    omega
  split at ran
  · split at ran
    · cases ran
    · split at ran <;> cases ran <;> omega
  · split at ran
    · cases ran
    · cases ran
      omega

theorem checkTime_ok {dt dt' : DtParts} (ran : checkTime dt = .ok dt')
    (unset : dt.hourSet = false → dt.hour = 0) :
    ∃ hour, dt' = { dt with hour := hour } ∧ hour ≤ 23 ∧ dt.minute ≤ 59 ∧ dt.second ≤ 59 := by
  obtain ⟨hour, hours, ran⟩ := ran_of_bind ran
  split at ran
  · cases ran
  split at ran
  · cases ran
  cases ran
  exact ⟨hour, rfl, checkHour_le unset hours, by omega, by omega⟩

theorem finish_ok {dt : DtParts} {isTimestamp : Bool} {today : Today} {out : CString}
    (read : WellRead dt) (ran : finish dt isTimestamp today = .ok out) :
    ∃ parts, InCalendar parts ∧ out = canonicalText parts isTimestamp := by
  obtain ⟨dated, dates, ran⟩ := ran_of_bind ran
  obtain ⟨timed, times, ran⟩ := ran_of_bind ran
  obtain ⟨day, rfl, year, month, days, inMonth, gap⟩ := checkDate_ok (ran_of_mapError dates)
  obtain ⟨hour, rfl, hours, minute, second⟩ := checkTime_ok (ran_of_mapError times) read.hour
  split at ran
  next out written =>
    cases ran
    exact ⟨{ withDefaults dt today with day := day, hour := hour },
      ⟨year, month, days, inMonth, gap, hours, minute, second, read.frac⟩, (fmt_eq_some written).1⟩
  · cases ran

/-- What `date_normalize` gives is the canonical text of a date in the calendar. -/
theorem dateNormalize_ok {value mask : CString} {isTimestamp : Bool} {today : Today} {out : CString}
    (ran : dateNormalize value mask isTimestamp today = .ok out) :
    ∃ parts, InCalendar parts ∧ out = canonicalText parts isTimestamp := by
  obtain ⟨els, -, ran⟩ := ran_of_bind ran
  obtain ⟨dt, parsed, ran⟩ := ran_of_bind ran
  exact finish_ok (parseValue_wellRead (ran_of_mapError parsed)) ran

end OciWrapper.Dates
