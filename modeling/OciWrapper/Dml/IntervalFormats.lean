import OciWrapper.Dml.ValidateField
import OciWrapper.Text.Scanf

namespace OciWrapper.Dml

open OciWrapper.Text

/-- `"%d-%d"`. -/
def ymFormat : List Directive := [.int, .literal '-', .int]

/-- `"%d %d:%d:%d"`. -/
def dsFormat : List Directive :=
  [.int, .blanks, .int, .literal ':', .int, .literal ':', .int]

def ymMessage (f : ParsedField) : CString :=
  fieldMessage f ("INTERVAL YEAR TO MONTH value ".toList ++ quoted f.insertValue ++
    " does not match [+/-]YY-MM (months 0-11)".toList)

def validateIntervalYm (f : ParsedField) : Except CString Unit :=
  match sscanf ymFormat (afterSign f.insertValue) with
  | [_, mm] => if mm < 0 ∨ 11 < mm then .error (ymMessage f) else .ok ()
  | _ => .error (ymMessage f)

def dsMessage (f : ParsedField) : CString :=
  fieldMessage f ("INTERVAL DAY TO SECOND value ".toList ++ quoted f.insertValue ++
    " does not match [+/-]DD HH:MI:SS[.ffffff]".toList)

def validateIntervalDs (f : ParsedField) : Except CString Unit :=
  match sscanf dsFormat (afterSign f.insertValue) with
  | [_, hh, mi, ss] =>
    if hh < 0 ∨ 23 < hh ∨ mi < 0 ∨ 59 < mi ∨ ss < 0 ∨ 59 < ss then .error (dsMessage f)
    else .ok ()
  | _ => .error (dsMessage f)

/-- `YY-MM` with an optional sign. -/
def IntervalYm (s : CString) : Prop :=
  ∃ sign yy mm, s = sign ++ (yy ++ '-' :: mm) ∧ SignText sign ∧ WholeNumber yy ∧ WholeNumber mm ∧
    digitsValue mm ≤ 11

/-- `[.ffffff]`. -/
def SecondFraction (s : CString) : Prop :=
  s = [] ∨ ∃ digits, s = '.' :: digits ∧ digits ≠ [] ∧ Digits digits

/-- `DD HH:MI:SS[.ffffff]` with an optional sign. -/
def IntervalDs (s : CString) : Prop :=
  ∃ sign dd hh mi ss fraction,
    s = sign ++ (dd ++ ' ' :: (hh ++ ':' :: (mi ++ ':' :: (ss ++ fraction)))) ∧ SignText sign ∧
    WholeNumber dd ∧ WholeNumber hh ∧ WholeNumber mi ∧ WholeNumber ss ∧ digitsValue hh ≤ 23 ∧
    digitsValue mi ≤ 59 ∧ digitsValue ss ≤ 59 ∧ SecondFraction fraction

/-- What `"%d-%d"` takes a text for. -/
structure YmReading where
  years : Numeral
  months : Numeral
  rest : CString

structure YmReading.Of (s : CString) (r : YmReading) : Prop where
  text : s = r.years.text ++ '-' :: (r.months.text ++ r.rest)
  ends : EndsNumber r.rest
  month : 0 ≤ r.months.value ∧ r.months.value ≤ 11

def YmReading.Plain (r : YmReading) : Prop := r.years.Plain ∧ r.months.Plain ∧ r.rest = []

/-- What `"%d %d:%d:%d"` takes a text for. -/
structure DsReading where
  days : Numeral
  blanks : CString
  hours : Numeral
  minutes : Numeral
  seconds : Numeral
  rest : CString

def DsReading.behindDays (r : DsReading) : CString :=
  r.blanks ++ (r.hours.text ++ ':' :: (r.minutes.text ++ ':' :: (r.seconds.text ++ r.rest)))

structure DsReading.Of (s : CString) (r : DsReading) : Prop where
  text : s = r.days.text ++ r.behindDays
  day : EndsNumber r.behindDays
  blank : ∀ c ∈ r.blanks, isSpace c = true
  unblanked : r.hours.blanks = []
  ends : EndsNumber r.rest
  hour : 0 ≤ r.hours.value ∧ r.hours.value ≤ 23
  minute : 0 ≤ r.minutes.value ∧ r.minutes.value ≤ 59
  second : 0 ≤ r.seconds.value ∧ r.seconds.value ≤ 59

def DsReading.Plain (r : DsReading) : Prop :=
  r.days.Plain ∧ r.blanks = [' '] ∧ r.hours.Plain ∧ r.minutes.Plain ∧ r.seconds.Plain ∧
    SecondFraction r.rest

/-- Texts are read in one way at most: those read are the good ones when each reading is good. -/
theorem agrees_iff {Reading : Type} {accepted grammar : Prop} {Of Plain : Reading → Prop}
    (reads : accepted ↔ ∃ r, Of r) (plain : grammar ↔ ∃ r, Of r ∧ Plain r)
    (unique : ∀ r r', Of r → Of r' → r = r') :
    (accepted ↔ grammar) ↔ ∀ r, Of r → Plain r := by
  constructor
  · intro same r found
    obtain ⟨r', found', good⟩ := plain.mp (same.mp (reads.mpr ⟨r, found⟩))
    exact unique r r' found found' ▸ good
  · intro all
    constructor
    · intro taken
      obtain ⟨r, found⟩ := reads.mp taken
      exact plain.mpr ⟨r, found, all r found⟩
    · intro good
      obtain ⟨r, found, -⟩ := plain.mp good
      exact reads.mpr ⟨r, found⟩

section Readings

theorem endsNumber_cons {c : Char} {s : CString} (other : c.isDigit = false) :
    EndsNumber (c :: s) := by
  intro d head
  cases head
  exact other

theorem scanned_literal {c : Char} {format : List Directive} {s : CString} {n : Int}
    {numbers : List Int} (stored : sscanf (.literal c :: format) s = n :: numbers) :
    ∃ rest, s = c :: rest ∧ sscanf format rest = n :: numbers := by
  cases s with
  | nil => cases stored
  | cons d rest =>
    rw [sscanf] at stored
    split at stored
    next same => exact ⟨rest, by rw [same], stored⟩
    next => cases stored

theorem scanned_int {format : List Directive} {s : CString} {n : Int} {numbers : List Int}
    (stored : sscanf (.int :: format) s = n :: numbers) :
    ∃ (numeral : Numeral) (rest : CString), s = numeral.text ++ rest ∧ n = numeral.value ∧
      EndsNumber rest ∧ sscanf format rest = numbers := by
  rw [sscanf] at stored
  split at stored
  · cases stored
  next m rest scanned =>
    obtain ⟨rfl, later⟩ := List.cons.inj stored
    obtain ⟨numeral, text, value, ends⟩ := exists_numeral scanned
    exact ⟨numeral, rest, text, value, ends, later⟩

theorem sscanf_int (numeral : Numeral) {rest : CString} (ends : EndsNumber rest)
    (format : List Directive) :
    sscanf (.int :: format) (numeral.text ++ rest) = numeral.value :: sscanf format rest := by
  rw [sscanf, scanInt_text numeral ends]

theorem sscanf_literal (c : Char) (rest : CString) (format : List Directive) :
    sscanf (.literal c :: format) (c :: rest) = sscanf format rest := if_pos rfl

theorem validateIntervalYm_ok (f : ParsedField) :
    validateIntervalYm f = .ok () ↔ ∃ r, YmReading.Of (afterSign f.insertValue) r := by
  constructor
  · intro valid
    rw [validateIntervalYm] at valid
    split at valid
    next yy mm stored =>
      split at valid
      · cases valid
      next month =>
        obtain ⟨years, behind, text, -, -, later⟩ := scanned_int stored
        obtain ⟨rest, rfl, later⟩ := scanned_literal later
        obtain ⟨months, rest, rfl, rfl, ends, -⟩ := scanned_int later
        exact ⟨⟨years, months, rest⟩, text, ends, by dsimp only; omega⟩
    · cases valid
  · rintro ⟨⟨years, months, rest⟩, text, ends, month⟩
    dsimp only at text ends month
    have stored : sscanf ymFormat (afterSign f.insertValue) = [years.value, months.value] := by
      rw [text, ymFormat, sscanf_int years (endsNumber_cons (by decide)), sscanf_literal,
        sscanf_int months ends, sscanf]
    rw [validateIntervalYm, stored]
    exact if_neg (by omega)

theorem validateIntervalDs_ok (f : ParsedField) :
    validateIntervalDs f = .ok () ↔ ∃ r, DsReading.Of (afterSign f.insertValue) r := by
  constructor
  · intro valid
    rw [validateIntervalDs] at valid
    split at valid
    next dd hh mi ss stored =>
      split at valid
      · cases valid
      next ranges =>
        obtain ⟨days, behind, text, -, day, later⟩ := scanned_int stored
        rw [sscanf] at later
        obtain ⟨hours, behind', hoursText, rfl, -, later⟩ := scanned_int later
        obtain ⟨rest, rfl, later⟩ := scanned_literal later
        obtain ⟨minutes, behind', rfl, rfl, -, later⟩ := scanned_int later
        obtain ⟨rest, rfl, later⟩ := scanned_literal later
        obtain ⟨seconds, rest, rfl, rfl, ends, -⟩ := scanned_int later
        have whole : behind = behind.takeWhile isSpace ++ (hours.text ++ ':' :: (minutes.text ++
            ':' :: (seconds.text ++ rest))) := by
          rw [← hoursText, List.takeWhile_append_dropWhile]
        have unblanked : hours.blanks = [] := by
          have stop := List.head?_dropWhile_not isSpace behind
          rw [hoursText, Numeral.text] at stop
          cases blanks : hours.blanks with
          | nil => rfl
          | cons c blanks =>
            rw [blanks] at stop
            have blank := hours.blank c (blanks ▸ List.mem_cons_self)
            exact absurd blank (Bool.eq_false_iff.mp stop)
        refine ⟨⟨days, behind.takeWhile isSpace, hours, minutes, seconds, rest⟩, ?_, ?_,
          fun c member => List.mem_takeWhile_imp member, unblanked, ends, ?_, ?_, ?_⟩
        · rw [DsReading.behindDays, ← whole]
          exact text
        · rw [DsReading.behindDays, ← whole]
          exact day
        all_goals dsimp only
        all_goals omega
    · cases valid
  · rintro ⟨⟨days, blanks, hours, minutes, seconds, rest⟩, text, day, blank, unblanked, ends, hour,
      minute, second⟩
    dsimp only at blank unblanked ends hour minute second
    have colon : ∀ s, EndsNumber (':' :: s) := fun s => endsNumber_cons (by decide)
    have stored : sscanf dsFormat (afterSign f.insertValue) =
        [days.value, hours.value, minutes.value, seconds.value] := by
      rw [text, dsFormat, sscanf_int days day, DsReading.behindDays, sscanf,
        dropWhile_blanks blank (hours.unblanked_head unblanked _), sscanf_int hours (colon _),
        sscanf_literal, sscanf_int minutes (colon _), sscanf_literal, sscanf_int seconds ends, sscanf]
    rw [validateIntervalDs, stored]
    exact if_neg (by omega)

theorem afterSign_number {sign digits : CString} (signed : SignText sign)
    (number : WholeNumber digits) (rest : CString) :
    afterSign (sign ++ (digits ++ rest)) = digits ++ rest := by
  refine afterSign_sign signed fun c head => ?_
  have digit := (plainNumeral digits number.2.1 number.1).first rest c head
  constructor
  · rintro rfl
    cases digit
  · rintro rfl
    cases digit

theorem intervalYm_iff (s : CString) :
    IntervalYm s ↔ ∃ r, YmReading.Of (afterSign s) r ∧ r.Plain := by
  constructor
  · rintro ⟨sign, yy, mm, rfl, signed, years, months, small⟩
    refine ⟨⟨plainNumeral yy years.2.1 years.1, plainNumeral mm months.2.1 months.1, []⟩,
      ⟨?_, nofun, ?_⟩, plainNumeral_plain years, plainNumeral_plain months, rfl⟩
    · rw [afterSign_number signed years, plainNumeral_text years, plainNumeral_text months,
        List.append_nil]
    · rw [(plainNumeral_plain months).value]
      exact ⟨Int.natCast_nonneg _, Int.ofNat_le.mpr small⟩
  · rintro ⟨⟨years, months, rest⟩, ⟨text, -, month⟩, yearPlain, monthPlain, rfl⟩
    obtain ⟨sign, signed, split⟩ := exists_afterSign s
    dsimp only at text month yearPlain monthPlain
    refine ⟨sign, years.digits, months.digits, ?_, signed, yearPlain.number, monthPlain.number, ?_⟩
    · rw [split, text, yearPlain.text, monthPlain.text, List.append_nil]
    · rw [monthPlain.value] at month
      omega

theorem ymReading_unique {s : CString} (r r' : YmReading) (found : r.Of s) (found' : r'.Of s) :
    r = r' := by
  obtain ⟨years, months, rest⟩ := r
  obtain ⟨years', months', rest'⟩ := r'
  obtain ⟨rfl, behind⟩ := Numeral.unique (endsNumber_cons (by decide)) (endsNumber_cons (by decide))
    (found.text.symm.trans found'.text)
  obtain ⟨rfl, rfl⟩ := Numeral.unique found.ends found'.ends (List.cons.inj behind).2
  rfl

theorem intervalDs_iff (s : CString) :
    IntervalDs s ↔ ∃ r, DsReading.Of (afterSign s) r ∧ r.Plain := by
  constructor
  · rintro ⟨sign, dd, hh, mi, ss, fraction, rfl, signed, days, hours, minutes, seconds, hour,
      minute, second, point⟩
    refine ⟨⟨plainNumeral dd days.2.1 days.1, [' '], plainNumeral hh hours.2.1 hours.1,
      plainNumeral mi minutes.2.1 minutes.1, plainNumeral ss seconds.2.1 seconds.1, fraction⟩,
      ⟨?_, endsNumber_cons (by decide), List.forall_mem_singleton.mpr rfl, rfl, ?_, ?_, ?_, ?_⟩,
      plainNumeral_plain days, rfl, plainNumeral_plain hours, plainNumeral_plain minutes,
      plainNumeral_plain seconds, point⟩
    · rw [afterSign_number signed days]
      rfl
    · rcases point with rfl | ⟨digits, rfl, -⟩
      · exact nofun
      · exact endsNumber_cons (by decide)
    · rw [(plainNumeral_plain hours).value]
      exact ⟨Int.natCast_nonneg _, Int.ofNat_le.mpr hour⟩
    · rw [(plainNumeral_plain minutes).value]
      exact ⟨Int.natCast_nonneg _, Int.ofNat_le.mpr minute⟩
    · rw [(plainNumeral_plain seconds).value]
      exact ⟨Int.natCast_nonneg _, Int.ofNat_le.mpr second⟩
  · rintro ⟨⟨days, blanks, hours, minutes, seconds, rest⟩,
      ⟨text, -, -, -, -, hour, minute, second⟩, dayPlain, rfl, hourPlain, minutePlain,
      secondPlain, point⟩
    obtain ⟨sign, signed, split⟩ := exists_afterSign s
    dsimp only at hour minute second dayPlain hourPlain minutePlain secondPlain
    rw [hourPlain.value] at hour
    rw [minutePlain.value] at minute
    rw [secondPlain.value] at second
    refine ⟨sign, days.digits, hours.digits, minutes.digits, seconds.digits, rest, ?_, signed,
      dayPlain.number, hourPlain.number, minutePlain.number, secondPlain.number, by omega,
      by omega, by omega, point⟩
    rw [split, text, DsReading.behindDays, dayPlain.text, hourPlain.text, minutePlain.text,
      secondPlain.text]
    rfl

theorem dsReading_unique {s : CString} (r r' : DsReading) (found : r.Of s) (found' : r'.Of s) :
    r = r' := by
  have colon : ∀ s, EndsNumber (':' :: s) := fun s => endsNumber_cons (by decide)
  obtain ⟨days, blanks, hours, minutes, seconds, rest⟩ := r
  obtain ⟨days', blanks', hours', minutes', seconds', rest'⟩ := r'
  obtain ⟨rfl, behind⟩ := Numeral.unique found.day found'.day (found.text.symm.trans found'.text)
  rw [DsReading.behindDays, DsReading.behindDays] at behind
  dsimp only at behind
  have unblanked := congrArg (List.dropWhile isSpace) behind
  rw [dropWhile_blanks found.blank (hours.unblanked_head found.unblanked _),
    dropWhile_blanks found'.blank (hours'.unblanked_head found'.unblanked _)] at unblanked
  rw [unblanked] at behind
  obtain rfl := List.append_cancel_right behind
  obtain ⟨rfl, afterHours⟩ := Numeral.unique (colon _) (colon _) unblanked
  obtain ⟨rfl, afterMinutes⟩ := Numeral.unique (colon _) (colon _) (List.cons.inj afterHours).2
  obtain ⟨rfl, rfl⟩ := Numeral.unique found.ends found'.ends (List.cons.inj afterMinutes).2
  rfl

end Readings

/-- The two validators accept just the intervals of a text exactly when `sscanf` can read it only
without further signs or blanks, numbers beyond an `int`, or a rest. -/
theorem interval_formats_iff (f : ParsedField) :
    ((validateIntervalYm f = .ok () ↔ IntervalYm f.insertValue) ↔
      ∀ r, YmReading.Of (afterSign f.insertValue) r → r.Plain) ∧
    ((validateIntervalDs f = .ok () ↔ IntervalDs f.insertValue) ↔
      ∀ r, DsReading.Of (afterSign f.insertValue) r → r.Plain) :=
  ⟨agrees_iff (validateIntervalYm_ok f) (intervalYm_iff _) ymReading_unique,
    agrees_iff (validateIntervalDs_ok f) (intervalDs_iff _) dsReading_unique⟩

/-- What follows the months is not looked at. -/
theorem trailing_text_accepted :
    ¬(validateIntervalYm ⟨1, ['T'], "INTERVAL YEAR TO MONTH".toList, 0, 0, 0, ['Y'], [],
      "1-6x".toList⟩ = .ok () ↔ IntervalYm "1-6x".toList) := by
  have reading : YmReading.Of "1-6x".toList
      ⟨plainNumeral ['1'] (List.forall_mem_singleton.mpr rfl) (List.cons_ne_nil _ _),
        plainNumeral ['6'] (List.forall_mem_singleton.mpr rfl) (List.cons_ne_nil _ _), ['x']⟩ :=
    ⟨rfl, endsNumber_cons (by decide), by decide +kernel⟩
  rw [agrees_iff (validateIntervalYm_ok _) (intervalYm_iff _) ymReading_unique]
  intro all
  exact absurd (all _ reading).2.2 (List.cons_ne_nil _ _)

end OciWrapper.Dml
