import OciWrapper.Dates.DateMask
import OciWrapper.Text.Buffers

namespace OciWrapper.Dates

open OciWrapper.Text

inductive Meridian
  | none | am | pm
  deriving DecidableEq

/-- `dt_parts_t`. -/
structure DtParts where
  year : Nat
  month : Nat
  day : Nat
  hour : Nat
  minute : Nat
  second : Nat
  yearSet : Bool
  monthSet : Bool
  daySet : Bool
  hourSet : Bool
  hourIs12 : Bool
  meridian : Meridian
  frac : CString

def emptyParts : DtParts := ⟨0, 0, 0, 0, 0, 0, false, false, false, false, false, .none, []⟩

/-- The date that `localtime_r` gives. -/
structure Today where
  year : Nat
  month : Nat

def monthFull : List String :=
  ["JANUARY", "FEBRUARY", "MARCH", "APRIL", "MAY", "JUNE", "JULY", "AUGUST", "SEPTEMBER", "OCTOBER",
    "NOVEMBER", "DECEMBER"]

/-- `read_month_name`: the month and the text behind its name. -/
def readMonthName (v : CString) : Option (Nat × CString) :=
  match monthFull.zipIdx.find? fun (name, _) => startsWith name.toList v with
  | some (name, m) => some (m + 1, v.drop name.length)
  | none =>
    (monthFull.zipIdx.find? fun (name, _) => startsWith (name.toList.take 3) v).map fun (_, m) =>
      (m + 1, v.drop 3)

/-- The digits that `read_digits` takes. -/
def leadingDigits (maxWidth : Nat) (v : CString) : CString :=
  (v.take maxWidth).takeWhile Char.isDigit

/-- `expand_two_digit_year`. -/
def expandTwoDigitYear (yy : Nat) (isRr : Bool) (currentYear : Nat) : Nat :=
  let century := currentYear / 100
  if !isRr then century * 100 + yy
  else if yy < 50 then (if currentYear % 100 < 50 then century else century + 1) * 100 + yy
  else (if currentYear % 100 < 50 then century - 1 else century) * 100 + yy

/-- The loop of a separator: blanks freely, other punctuation up to its length. -/
def skipSeparator : Nat → CString → CString
  | _, [] => []
  | punct, c :: v =>
    if c.isAlphanum then c :: v
    else if isSpace c then skipSeparator punct v
    else
      match punct with
      | 0 => c :: v
      | punct + 1 => skipSeparator punct v

def nonNumeric : CString := "a non-numeric character was found where a numeric was expected".toList
def badMonth : CString := "not a valid month".toList

/-- A number of at most `maxWidth` digits: how many, its value and the text behind it. -/
def readNumber (maxWidth : Nat) (v : CString) : Except CString (Nat × Nat × CString) :=
  let digits := leadingDigits maxWidth v
  if digits = [] then .error nonNumeric
  else .ok (digits.length, Nat.ofDigitChars 10 digits 0, v.drop digits.length)

def readMonth (v : CString) (dt : DtParts) : Except CString (CString × DtParts) :=
  match readMonthName v with
  | some (m, v) => .ok (v, { dt with month := m, monthSet := true })
  | none => .error badMonth

def readMeridian (v : CString) (dt : DtParts) : Except CString (CString × DtParts) :=
  if startsWith "A.M.".toList v then .ok (v.drop 4, { dt with meridian := .am })
  else if startsWith "P.M.".toList v then .ok (v.drop 4, { dt with meridian := .pm })
  else if startsWith "AM".toList v then .ok (v.drop 2, { dt with meridian := .am })
  else if startsWith "PM".toList v then .ok (v.drop 2, { dt with meridian := .pm })
  else .error "AM/A.M. or PM/P.M. required".toList

/-- One element of the mask against a value that has not run out. -/
def parseElement (currentYear : Nat) (el : FmtEl) (v : CString) (dt : DtParts) :
    Except CString (CString × DtParts) :=
  match el.kind with
  | .sep => .ok (skipSeparator el.text.length v, dt)
  | .lit =>
    if startsWith el.text v then .ok (v.drop el.text.length, dt)
    else .error "literal does not match format string".toList
  | .yyyy | .rrrr | .yy | .rr => do
    let (nd, num, v) ← readNumber 4 v
    let year := if nd ≤ 2 ∧ el.kind ≠ .yyyy then
        expandTwoDigitYear num (el.kind = .rr || el.kind = .rrrr) currentYear
      else num
    .ok (v, { dt with year := year, yearSet := true })
  | .mm =>
    if (v.head?.map Char.isAlpha).getD false then readMonth v dt
    else do
      let (_, num, v) ← readNumber 2 v
      .ok (v, { dt with month := num, monthSet := true })
  | .mon | .month => readMonth v dt
  | .dd => do
    let (_, num, v) ← readNumber 2 v
    .ok (v, { dt with day := num, daySet := true })
  | .hh24 | .hh12 => do
    let (_, num, v) ← readNumber 2 v
    .ok (v, { dt with hour := num, hourSet := true, hourIs12 := el.kind = .hh12 })
  | .mi => do
    let (_, num, v) ← readNumber 2 v
    .ok (v, { dt with minute := num })
  | .ss => do
    let (_, num, v) ← readNumber 2 v
    .ok (v, { dt with second := num })
  | .ff =>
    let digits := leadingDigits (if el.ffDigits = 0 then 9 else el.ffDigits) v
    if digits = [] then .error nonNumeric
    else .ok (v.drop digits.length, { dt with frac := digits })
  | .ampm => readMeridian v dt

/-- What a value that has run out can leave of the mask. -/
def canBeLeft (el : FmtEl) : Bool := el.kind = .sep || el.kind = .lit || isTimeElement el.kind

def parseElements (currentYear : Nat) :
    List FmtEl → CString → DtParts → Except CString (CString × DtParts)
  | [], v, dt => .ok (v, dt)
  | el :: els, v, dt =>
    if v = [] then
      if (el :: els).all canBeLeft then .ok (v, dt)
      else .error "input value not long enough for date format".toList
    else do
      let (v, dt) ← parseElement currentYear el v dt
      parseElements currentYear els v dt

/-- `parse_value`: the parts, or the reason of `DATE_NORM_BAD_VALUE`. -/
def parseValue (value : CString) (els : List FmtEl) (currentYear : Nat) :
    Except CString DtParts := do
  let (v, dt) ← parseElements currentYear els (value.dropWhile isSpace) emptyParts
  if v.dropWhile isSpace = [] then .ok dt
  else .error "date format picture ends before converting entire input string".toList

/-- Julian before 1582, Gregorian from then on. -/
def isLeap (y : Nat) : Bool :=
  if y < 1582 then y % 4 == 0 else (y % 4 == 0 && y % 100 != 0) || y % 400 == 0

def daysInMonth (y m : Nat) : Nat :=
  if m = 2 ∧ isLeap y then 29
  else [31, 28, 31, 30, 31, 30, 31, 31, 30, 31, 30, 31].getD (m - 1) 0

/-- `%04d` and `%02d`. -/
def padded (width n : Nat) : CString :=
  List.replicate (width - (Nat.toDigits 10 n).length) '0' ++ Nat.toDigits 10 n

/-- `DATE_NORMALIZE_OUT_MAX`. -/
def dateNormalizeOutMax : Nat := 32

inductive DateNormError
  | badValue | badMask | badArg
  deriving DecidableEq

/-- The defaults of the parts that the mask does not name. -/
def withDefaults (dt : DtParts) (today : Today) : DtParts :=
  { dt with
    year := if dt.yearSet then dt.year else today.year
    month := if dt.monthSet then dt.month else today.month
    day := if dt.daySet then dt.day else 1 }

/-- The calendar checks of `finish`. -/
def checkDate (dt : DtParts) : Except CString DtParts :=
  if dt.year < 1 ∨ 9999 < dt.year then .error "year must be between 1 and 9999".toList
  else if dt.month < 1 ∨ 12 < dt.month then .error badMonth
  else if dt.day < 1 ∨ 31 < dt.day then
    .error "day of month must be between 1 and last day of month".toList
  else if daysInMonth dt.year dt.month < dt.day then
    .error "date not valid for month specified".toList
  -- 5 to 14 October 1582 are taken for the 15th
  else if dt.year = 1582 ∧ dt.month = 10 ∧ 5 ≤ dt.day ∧ dt.day ≤ 14 then .ok { dt with day := 15 }
  else .ok dt

/-- The hour that was read, on the clock of 24. -/
def checkHour (dt : DtParts) : Except CString Nat :=
  if !dt.hourSet then .ok dt.hour
  else if dt.hourIs12 then
    if dt.hour < 1 ∨ 12 < dt.hour then .error "hour must be between 1 and 12".toList
    else
      match dt.meridian with
      | .none => .ok dt.hour
      | .am => .ok (dt.hour % 12)
      | .pm => .ok (dt.hour % 12 + 12)
  else if 23 < dt.hour then .error "hour must be between 0 and 23".toList
  else .ok dt.hour

/-- The checks of the time of day. -/
def checkTime (dt : DtParts) : Except CString DtParts := do
  let hour ← checkHour dt
  if 59 < dt.minute then .error "minutes must be between 0 and 59".toList
  else if 59 < dt.second then .error "seconds must be between 0 and 59".toList
  else .ok { dt with hour := hour }

/-- Six digits of a fraction, with zeros behind. -/
def sixDigits (frac : CString) : CString :=
  frac.take 6 ++ List.replicate (6 - frac.length) '0'

def canonicalText (dt : DtParts) (isTimestamp : Bool) : CString :=
  padded 4 dt.year ++ '-' :: padded 2 dt.month ++ '-' :: padded 2 dt.day ++ ' ' ::
    padded 2 dt.hour ++ ':' :: padded 2 dt.minute ++ ':' :: padded 2 dt.second ++
    if isTimestamp then '.' :: sixDigits dt.frac else []

def finish (dt : DtParts) (isTimestamp : Bool) (today : Today) :
    Except (DateNormError × CString) CString := do
  let dt ← (checkDate (withDefaults dt today)).mapError (.badValue, ·)
  let dt ← (checkTime dt).mapError (.badValue, ·)
  match fmt dateNormalizeOutMax (canonicalText dt isTimestamp) with
  | some out => .ok out
  | none => .error (.badArg, "output buffer too small".toList)

def canonicalMask : CString := "YYYY-MM-DD HH24:MI:SS".toList
def canonicalMaskTs : CString := "YYYY-MM-DD HH24:MI:SS.FF6".toList

/-- `date_normalize`; an empty mask stands for the canonical one. -/
def dateNormalize (value mask : CString) (isTimestamp : Bool) (today : Today) :
    Except (DateNormError × CString) CString := do
  let mask := if mask = [] then (if isTimestamp then canonicalMaskTs else canonicalMask) else mask
  let els ← (tokenizeMask mask isTimestamp).mapError (.badMask, ·)
  let dt ← (parseValue value els today.year).mapError (.badValue, ·)
  finish dt isTimestamp today

example : dateNormalize "25 /12/2026".toList "DD/MM/YYYY".toList false ⟨2026, 10⟩ =
    .ok "2026-12-25 00:00:00".toList := by
  decide +kernel

end OciWrapper.Dates
