import OciWrapper.Dates.CanonicalDates

namespace OciWrapper.Dates

open OciWrapper.Text

theorem padded_length {width n : Nat} (wide : 0 < width) (small : n < 10 ^ width) :
    (padded width n).length = width := by
  have short := (Nat.length_toDigits_le_iff (by omega : 1 < 10) wide).mpr small
  rw [padded, List.length_append, List.length_replicate]
  omega

theorem padded_isDigit (width n : Nat) : ∀ c ∈ padded width n, c.isDigit = true := by
  intro c member
  rw [padded, List.mem_append] at member
  rcases member with zero | digit
  · rw [List.eq_of_mem_replicate zero]
    rfl
  · exact Nat.isDigit_of_mem_toDigits (by omega) (by omega) digit

theorem padded_value (width n : Nat) : Nat.ofDigitChars 10 (padded width n) 0 = n := by
  rw [padded, Nat.ofDigitChars_append, Nat.ofDigitChars_replicate_zero, Nat.mul_zero,
    Nat.ofDigitChars_ten_toDigits]

theorem leadingDigits_append {width : Nat} {digits : CString} (rest : CString)
    (long : digits.length = width) (numeric : ∀ c ∈ digits, c.isDigit = true) :
    leadingDigits width (digits ++ rest) = digits := by
  rw [leadingDigits, ← long, List.take_left, List.takeWhile_eq_self_iff]
  exact numeric

theorem readNumber_padded {width n : Nat} (rest : CString) (wide : 0 < width)
    (small : n < 10 ^ width) :
    readNumber width (padded width n ++ rest) = .ok (width, n, rest) := by
  have long := padded_length wide small
  have full : padded width n ≠ [] := by
    intro none
    rw [none, List.length_nil] at long
    omega
  rw [readNumber, leadingDigits_append rest long (padded_isDigit width n), if_neg full,
    List.drop_left, padded_value, long]

theorem isAlphanum_of_isDigit {c : Char} (digit : c.isDigit = true) : c.isAlphanum = true := by
  rw [Char.isAlphanum, digit, Bool.or_true]

theorem not_alpha_of_isDigit {c : Char} (digit : c.isDigit = true) : c.isAlpha = false := by
  rw [isDigit_iff] at digit
  rw [Bool.eq_false_iff]
  intro alpha
  rw [Char.isAlpha, Bool.or_eq_true, isUpper_iff, isLower_iff] at alpha
  omega

/-- A text whose first byte is a digit. -/
def StartsNumeric (v : CString) : Prop := ∃ c rest, v = c :: rest ∧ c.isDigit = true

theorem startsNumeric_append {digits : CString} (rest : CString) (long : 0 < digits.length)
    (numeric : ∀ c ∈ digits, c.isDigit = true) : StartsNumeric (digits ++ rest) := by
  cases digits with
  | nil => cases long
  | cons c digits => exact ⟨c, digits ++ rest, rfl, numeric c List.mem_cons_self⟩

theorem startsNumeric_padded {width n : Nat} (rest : CString) (wide : 0 < width)
    (small : n < 10 ^ width) : StartsNumeric (padded width n ++ rest) := by
  apply startsNumeric_append rest _ (padded_isDigit width n)
  rw [padded_length wide small]
  exact wide

/-- One separator of the mask takes the one separator of the text. -/
theorem skipSeparator_one {c : Char} {v : CString} (punct : c.isAlphanum = false)
    (number : StartsNumeric v) : skipSeparator 1 (c :: v) = v := by
  obtain ⟨d, rest, rfl, digit⟩ := number
  have here := isAlphanum_of_isDigit digit
  rw [skipSeparator, punct]
  split
  · cases ‹false = true›
  split <;> simp [skipSeparator, here]

def canonicalElements (isTimestamp : Bool) : List FmtEl :=
  [⟨.yyyy, 0, "YYYY".toList⟩, ⟨.sep, 0, ['-']⟩, ⟨.mm, 0, "MM".toList⟩, ⟨.sep, 0, ['-']⟩,
    ⟨.dd, 0, "DD".toList⟩, ⟨.sep, 0, [' ']⟩, ⟨.hh24, 0, "HH24".toList⟩, ⟨.sep, 0, [':']⟩,
    ⟨.mi, 0, "MI".toList⟩, ⟨.sep, 0, [':']⟩, ⟨.ss, 0, "SS".toList⟩] ++
    if isTimestamp then [⟨.sep, 0, ['.']⟩, ⟨.ff, 6, "FF6".toList⟩] else []

theorem tokenizeMask_canonical (isTimestamp : Bool) :
    tokenizeMask (if isTimestamp then canonicalMaskTs else canonicalMask) isTimestamp =
      .ok (canonicalElements isTimestamp) := by
  cases isTimestamp <;> decide +kernel

theorem StartsNumeric.ne_nil {v : CString} (number : StartsNumeric v) : v ≠ [] := by
  obtain ⟨d, rest, rfl, -⟩ := number
  exact List.cons_ne_nil d rest

theorem parseElements_cons {currentYear : Nat} {el : FmtEl} (els : List FmtEl) {v v' : CString}
    {dt dt' : DtParts} (present : v ≠ []) (ran : parseElement currentYear el v dt = .ok (v', dt')) :
    parseElements currentYear (el :: els) v dt = parseElements currentYear els v' dt' := by
  rw [parseElements, if_neg present, ran]
  rfl

section Elements

variable {currentYear digits n : Nat} {text rest : CString} {dt : DtParts}

theorem parseElement_sep {c : Char} {v : CString} (punct : c.isAlphanum = false)
    (number : StartsNumeric v) :
    parseElement currentYear ⟨.sep, digits, [c]⟩ (c :: v) dt = .ok (v, dt) := by
  have skipped : skipSeparator [c].length (c :: v) = v := skipSeparator_one punct number
  simp only [parseElement, skipped]

theorem parseElement_yyyy (small : n < 10 ^ 4) :
    parseElement currentYear ⟨.yyyy, digits, text⟩ (padded 4 n ++ rest) dt =
      .ok (rest, { dt with year := n, yearSet := true }) := by
  simp [parseElement, readNumber_padded rest _ small, bind, Except.bind]

theorem parseElement_mm (small : n < 10 ^ 2) :
    parseElement currentYear ⟨.mm, digits, text⟩ (padded 2 n ++ rest) dt =
      .ok (rest, { dt with month := n, monthSet := true }) := by
  obtain ⟨d, tail, value, digit⟩ := startsNumeric_padded rest (by omega) small
  have number : ((padded 2 n ++ rest).head?.map Char.isAlpha).getD false = false := by
    rw [value]
    exact not_alpha_of_isDigit digit
  simp only [parseElement, number, Bool.false_eq_true, if_false]
  rw [readNumber_padded rest (by omega) small]
  rfl

theorem parseElement_dd (small : n < 10 ^ 2) :
    parseElement currentYear ⟨.dd, digits, text⟩ (padded 2 n ++ rest) dt =
      .ok (rest, { dt with day := n, daySet := true }) := by
  simp [parseElement, readNumber_padded rest _ small, bind, Except.bind]

theorem parseElement_hh24 (small : n < 10 ^ 2) :
    parseElement currentYear ⟨.hh24, digits, text⟩ (padded 2 n ++ rest) dt =
      .ok (rest, { dt with hour := n, hourSet := true, hourIs12 := false }) := by
  simp [parseElement, readNumber_padded rest _ small, bind, Except.bind]

theorem parseElement_mi (small : n < 10 ^ 2) :
    parseElement currentYear ⟨.mi, digits, text⟩ (padded 2 n ++ rest) dt =
      .ok (rest, { dt with minute := n }) := by
  simp [parseElement, readNumber_padded rest _ small, bind, Except.bind]

theorem parseElement_ss (small : n < 10 ^ 2) :
    parseElement currentYear ⟨.ss, digits, text⟩ (padded 2 n ++ rest) dt =
      .ok (rest, { dt with second := n }) := by
  simp [parseElement, readNumber_padded rest _ small, bind, Except.bind]

theorem parseElement_ff {frac : CString} (long : frac.length = 6)
    (numeric : ∀ c ∈ frac, c.isDigit = true) :
    parseElement currentYear ⟨.ff, 6, text⟩ frac dt = .ok ([], { dt with frac := frac }) := by
  have all : leadingDigits 6 frac = frac := by
    have lone := leadingDigits_append [] long numeric
    rwa [List.append_nil] at lone
  have full : frac ≠ [] := by
    intro none
    rw [none] at long
    cases long
  simp [parseElement, all, full]

end Elements

theorem sixDigits_length (frac : CString) : (sixDigits frac).length = 6 := by
  rw [sixDigits, List.length_append, List.length_take, List.length_replicate]
  omega

theorem sixDigits_isDigit {frac : CString} (numeric : ∀ c ∈ frac, c.isDigit = true) :
    ∀ c ∈ sixDigits frac, c.isDigit = true := by
  intro c member
  rw [sixDigits, List.mem_append] at member
  rcases member with digit | zero
  · exact numeric c (List.mem_of_mem_take digit)
  · rw [List.eq_of_mem_replicate zero]
    rfl

theorem sixDigits_sixDigits (frac : CString) : sixDigits (sixDigits frac) = sixDigits frac := by
  have long := sixDigits_length frac
  rw [sixDigits, long, List.take_of_length_le (by omega), Nat.sub_self, List.replicate_zero,
    List.append_nil]

/-- The parts that are read back from the canonical text. -/
def reread (dt : DtParts) (isTimestamp : Bool) : DtParts :=
  ⟨dt.year, dt.month, dt.day, dt.hour, dt.minute, dt.second, true, true, true, true, false, .none,
    if isTimestamp then sixDigits dt.frac else []⟩

theorem canonicalText_eq (dt : DtParts) (isTimestamp : Bool) :
    canonicalText dt isTimestamp = padded 4 dt.year ++ ('-' :: (padded 2 dt.month ++ ('-' ::
      (padded 2 dt.day ++ (' ' :: (padded 2 dt.hour ++ (':' :: (padded 2 dt.minute ++ (':' ::
      (padded 2 dt.second ++ if isTimestamp then '.' :: sixDigits dt.frac else [])))))))))) := by
  simp only [canonicalText, List.append_assoc, List.cons_append]

theorem parseElements_canonical {dt : DtParts} (calendar : InCalendar dt) (isTimestamp : Bool)
    (currentYear : Nat) :
    parseElements currentYear (canonicalElements isTimestamp) (canonicalText dt isTimestamp)
      emptyParts = .ok ([], reread dt isTimestamp) := by
  have year : dt.year < 10 ^ 4 := by have := calendar.year; omega
  have month : dt.month < 10 ^ 2 := by have := calendar.month; omega
  have day : dt.day < 10 ^ 2 := by have := calendar.day; omega
  have hour : dt.hour < 10 ^ 2 := by have := calendar.hour; omega
  have minute : dt.minute < 10 ^ 2 := by have := calendar.minute; omega
  have second : dt.second < 10 ^ 2 := by have := calendar.second; omega
  have starts {n : Nat} (rest : CString) (small : n < 10 ^ 2) :
      StartsNumeric (padded 2 n ++ rest) := startsNumeric_padded rest (by omega) small
  rw [canonicalText_eq, canonicalElements]
  simp only [List.cons_append, List.nil_append]
  rw [parseElements_cons _ (startsNumeric_padded _ (by omega) year).ne_nil (parseElement_yyyy year),
    parseElements_cons _ (List.cons_ne_nil _ _) (parseElement_sep rfl (starts _ month)),
    parseElements_cons _ (starts _ month).ne_nil (parseElement_mm month),
    parseElements_cons _ (List.cons_ne_nil _ _) (parseElement_sep rfl (starts _ day)),
    parseElements_cons _ (starts _ day).ne_nil (parseElement_dd day),
    parseElements_cons _ (List.cons_ne_nil _ _) (parseElement_sep rfl (starts _ hour)),
    parseElements_cons _ (starts _ hour).ne_nil (parseElement_hh24 hour),
    parseElements_cons _ (List.cons_ne_nil _ _) (parseElement_sep rfl (starts _ minute)),
    parseElements_cons _ (starts _ minute).ne_nil (parseElement_mi minute),
    parseElements_cons _ (List.cons_ne_nil _ _) (parseElement_sep rfl (starts _ second)),
    parseElements_cons _ (starts _ second).ne_nil (parseElement_ss second)]
  cases isTimestamp with
  | false => rfl
  | true =>
    have long := sixDigits_length dt.frac
    have numeric := sixDigits_isDigit calendar.frac
    have number : StartsNumeric (sixDigits dt.frac) := by
      have lone := startsNumeric_append [] (by omega) numeric
      rwa [List.append_nil] at lone
    simp only [if_true]
    rw [parseElements_cons _ (List.cons_ne_nil _ _) (parseElement_sep rfl number),
      parseElements_cons _ number.ne_nil (parseElement_ff long numeric)]
    rfl

theorem canonicalText_startsNumeric {dt : DtParts} (calendar : InCalendar dt)
    (isTimestamp : Bool) : StartsNumeric (canonicalText dt isTimestamp) := by
  rw [canonicalText_eq]
  apply startsNumeric_padded _ (by omega)
  have := calendar.year
  omega

theorem StartsNumeric.dropWhile_isSpace {v : CString} (number : StartsNumeric v) :
    v.dropWhile isSpace = v := by
  obtain ⟨d, rest, rfl, digit⟩ := number
  rw [List.dropWhile_cons, not_space_of_isDigit digit]
  rfl

theorem parseValue_canonical {dt : DtParts} (calendar : InCalendar dt) (isTimestamp : Bool)
    (currentYear : Nat) :
    parseValue (canonicalText dt isTimestamp) (canonicalElements isTimestamp) currentYear =
      .ok (reread dt isTimestamp) := by
  rw [parseValue, (canonicalText_startsNumeric calendar isTimestamp).dropWhile_isSpace,
    parseElements_canonical calendar]
  rfl

theorem canonicalText_length {dt : DtParts} (calendar : InCalendar dt) (isTimestamp : Bool) :
    (canonicalText dt isTimestamp).length < dateNormalizeOutMax := by
  have year : (padded 4 dt.year).length = 4 := by
    apply padded_length (by omega)
    have := calendar.year
    omega
  have two {n : Nat} (small : n < 100) : (padded 2 n).length = 2 := padded_length (by omega) small
  have month := two (Nat.lt_of_le_of_lt calendar.month.2 (by omega))
  have day := two (Nat.lt_of_le_of_lt calendar.day.2 (by omega))
  have hour := two (Nat.lt_of_le_of_lt calendar.hour (by omega))
  have minute := two (Nat.lt_of_le_of_lt calendar.minute (by omega))
  have second := two (Nat.lt_of_le_of_lt calendar.second (by omega))
  have frac := sixDigits_length dt.frac
  rw [canonicalText_eq, dateNormalizeOutMax]
  cases isTimestamp <;>
    simp [year, month, day, hour, minute, second, frac]

theorem checkDate_calendar {dt : DtParts} (calendar : InCalendar dt) : checkDate dt = .ok dt := by
  have year := calendar.year
  have month := calendar.month
  have day := calendar.day
  have inMonth := calendar.inMonth
  rw [checkDate, if_neg (by omega), if_neg (by omega), if_neg (by omega), if_neg (by omega),
    if_neg calendar.outsideGap]

theorem checkTime_calendar {dt : DtParts} (calendar : InCalendar dt) (is24 : dt.hourIs12 = false) :
    checkTime dt = .ok dt := by
  have hour := calendar.hour
  have minute := calendar.minute
  have second := calendar.second
  have hours : checkHour dt = .ok dt.hour := by
    rw [checkHour, is24, if_neg Bool.false_ne_true, if_neg (by omega : ¬ 23 < dt.hour), ite_self]
  rw [checkTime, hours]
  simp only [bind, Except.bind]
  rw [if_neg (by omega), if_neg (by omega)]

theorem reread_inCalendar {dt : DtParts} (calendar : InCalendar dt) (isTimestamp : Bool) :
    InCalendar (reread dt isTimestamp) := by
  refine ⟨calendar.year, calendar.month, calendar.day, calendar.inMonth, calendar.outsideGap,
    calendar.hour, calendar.minute, calendar.second, ?_⟩
  cases isTimestamp with
  | false => exact fun _ member => nomatch member
  | true => exact sixDigits_isDigit calendar.frac

theorem canonicalText_reread (dt : DtParts) (isTimestamp : Bool) :
    canonicalText (reread dt isTimestamp) isTimestamp = canonicalText dt isTimestamp := by
  cases isTimestamp with
  | false => rfl
  | true => simp [canonicalText, reread, sixDigits_sixDigits]

theorem withDefaults_set {dt : DtParts} (year : dt.yearSet = true) (month : dt.monthSet = true)
    (day : dt.daySet = true) (today : Today) : withDefaults dt today = dt := by
  cases dt
  cases year
  cases month
  cases day
  rfl

/-- Parts that name a day are written out as they are. -/
theorem finish_calendar {dt : DtParts} (calendar : InCalendar dt) (is24 : dt.hourIs12 = false)
    {today : Today} (named : withDefaults dt today = dt) (isTimestamp : Bool) :
    finish dt isTimestamp today = .ok (canonicalText dt isTimestamp) := by
  have short : fmt dateNormalizeOutMax (canonicalText dt isTimestamp) =
      some (canonicalText dt isTimestamp) := if_pos (canonicalText_length calendar isTimestamp)
  rw [finish, named, checkDate_calendar calendar]
  simp only [Except.mapError, bind, Except.bind]
  rw [checkTime_calendar calendar is24]
  simp only [short]

theorem finish_reread {dt : DtParts} (calendar : InCalendar dt) (isTimestamp : Bool)
    (today : Today) :
    finish (reread dt isTimestamp) isTimestamp today = .ok (canonicalText dt isTimestamp) := by
  have named : withDefaults (reread dt isTimestamp) today = reread dt isTimestamp :=
    withDefaults_set rfl rfl rfl today
  rw [finish_calendar (reread_inCalendar calendar isTimestamp) rfl named, canonicalText_reread]

/-- The canonical text is read as it was written, on any day. -/
theorem dateNormalize_canonical {dt : DtParts} (calendar : InCalendar dt) (isTimestamp : Bool)
    (today : Today) :
    dateNormalize (canonicalText dt isTimestamp) [] isTimestamp today =
      .ok (canonicalText dt isTimestamp) := by
  simp only [dateNormalize, if_true, tokenizeMask_canonical, Except.mapError, bind, Except.bind,
    parseValue_canonical calendar, finish_reread calendar]

/-- What `date_normalize` gives is a fixed point of it under the default mask. -/
theorem dateNormalize_fixed {value mask : CString} {isTimestamp : Bool} {today later : Today}
    {out : CString} (ran : dateNormalize value mask isTimestamp today = .ok out) :
    dateNormalize out [] isTimestamp later = .ok out := by
  obtain ⟨parts, calendar, rfl⟩ := dateNormalize_ok ran
  exact dateNormalize_canonical calendar isTimestamp later

/-- What `date_normalize` gives is a text that a buffer of 32 bytes holds. -/
theorem dateNormalize_length {value mask : CString} {isTimestamp : Bool} {today : Today}
    {out : CString} (ran : dateNormalize value mask isTimestamp today = .ok out) :
    out ≠ [] ∧ out.length < dateNormalizeOutMax := by
  obtain ⟨parts, calendar, rfl⟩ := dateNormalize_ok ran
  exact ⟨(canonicalText_startsNumeric calendar isTimestamp).ne_nil,
    canonicalText_length calendar isTimestamp⟩

end OciWrapper.Dates
