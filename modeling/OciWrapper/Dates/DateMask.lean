import OciWrapper.Text.Numerals
import OciWrapper.Text.Search

namespace OciWrapper.Dates

open OciWrapper.Text

/-- `el_kind_t`. -/
inductive ElementKind
  | sep | lit | yyyy | rrrr | yy | rr | mm | mon | month | dd | hh24 | hh12 | mi | ss | ff | ampm
  deriving DecidableEq

/-- `el_group_t`. -/
inductive ElementGroup
  | year | month | day | hour | min | sec | frac | mer
  deriving DecidableEq

/-- `fmt_el_t`. -/
structure FmtEl where
  kind : ElementKind
  ffDigits : Nat
  text : CString
  deriving DecidableEq

def maxElements : Nat := 48

/-- `sizeof(el->text) - 1`. -/
def elementTextMax : Nat := 63

def keywords : List (String × ElementKind) :=
  [("HH24", .hh24), ("HH12", .hh12), ("HH", .hh12), ("MONTH", .month), ("MON", .mon), ("MM", .mm),
    ("MI", .mi), ("YYYY", .yyyy), ("RRRR", .rrrr), ("YY", .yy), ("RR", .rr), ("DD", .dd),
    ("SS", .ss), ("A.M.", .ampm), ("P.M.", .ampm), ("AM", .ampm), ("PM", .ampm)]

def unsupportedPrefixes : List String := ["SSSSS", "DDD", "DAY"]

def groupOf : ElementKind → Option ElementGroup
  | .yyyy | .rrrr | .yy | .rr => some .year
  | .mm | .mon | .month => some .month
  | .dd => some .day
  | .hh24 | .hh12 => some .hour
  | .mi => some .min
  | .ss => some .sec
  | .ff => some .frac
  | .ampm => some .mer
  | .sep | .lit => none

def isTimeElement : ElementKind → Bool
  | .hh24 | .hh12 | .mi | .ss | .ff | .ampm => true
  | _ => false

/-- `strncasecmp(s, word, strlen(word)) == 0`. -/
def startsWith (word : CString) (s : CString) : Bool := strcasecmp (s.take word.length) word

def unsupportedElement (element : CString) : CString :=
  "unsupported format element '".toList ++ element ++ ['\'']

/-- `FF` with its digits, at the start of the mask. -/
def fractionElement (p : CString) : FmtEl × CString :=
  match p.drop 2 with
  | c :: rest =>
    if '1' ≤ c ∧ c ≤ '9' then (⟨.ff, c.toNat - 48, ['F', 'F', c]⟩, rest)
    else (⟨.ff, 0, ['F', 'F']⟩, c :: rest)
  | [] => (⟨.ff, 0, ['F', 'F']⟩, [])

/-- The element whose name the mask begins with, and the mask behind it. -/
def keywordElement (p : CString) : Except CString (FmtEl × CString) :=
  match unsupportedPrefixes.find? fun word => startsWith word.toList p with
  | some word => .error (unsupportedElement (p.take word.length))
  | none =>
    if startsWith ['F', 'F'] p then .ok (fractionElement p)
    else
      match keywords.find? fun entry => startsWith entry.1.toList p with
      | some (word, kind) => .ok (⟨kind, 0, word.toList⟩, p.drop word.length)
      | none => .error (unsupportedElement ((p.takeWhile Char.isAlphanum).take 16))

def separatorRun (p : CString) : CString := p.takeWhile fun c => c != '"' && !c.isAlphanum

/-- The loop of `tokenize_mask`; each round takes a character off the mask. -/
def tokenizeLoop (isTimestamp : Bool) : Nat → CString → List FmtEl → Except CString (List FmtEl)
  | 0, _, els => .ok els
  | _ + 1, [], els => .ok els
  | fuel + 1, c :: p, els =>
    if maxElements ≤ els.length then .error "format is too long".toList
    else if c = '"' then
      let body := p.takeWhile (· ≠ '"')
      if body.length = p.length then .error "format has unterminated quoted text".toList
      else
        tokenizeLoop isTimestamp fuel (p.drop (body.length + 1))
          (els ++ [⟨.lit, 0, body.take elementTextMax⟩])
    else if !c.isAlphanum then
      let run := separatorRun (c :: p)
      tokenizeLoop isTimestamp fuel ((c :: p).drop run.length)
        (els ++ [⟨.sep, 0, run.take elementTextMax⟩])
    else
      match keywordElement (c :: p) with
      | .error reason => .error reason
      | .ok (el, rest) =>
        if els.any fun earlier => (groupOf earlier.kind).isSome &&
            groupOf earlier.kind == groupOf el.kind then
          .error ("format element '".toList ++ el.text ++
            "' appears twice (or clashes with another element for the same field)".toList)
        else if el.kind = .ff ∧ isTimestamp = false then
          .error "fractional seconds (FF) are only valid for TIMESTAMP columns".toList
        else tokenizeLoop isTimestamp fuel rest (els ++ [el])

/-- `tokenize_mask`: the elements, or the reason of `DATE_NORM_BAD_MASK`. -/
def tokenizeMask (mask : CString) (isTimestamp : Bool) : Except CString (List FmtEl) := do
  let els ← tokenizeLoop isTimestamp (mask.length + 1) mask []
  if els.any (·.kind = .hh24) && els.any (·.kind = .ampm) then
    .error "HH24 cannot be used with AM/PM".toList
  else if els.all fun el => el.kind = .sep || el.kind = .lit then
    .error "format has no date or time elements".toList
  else .ok els

end OciWrapper.Dates
