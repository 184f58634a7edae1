import OciWrapper.Text.Chars

namespace OciWrapper.Text

/-- A character that can close a quoted region: neither a letter nor a blank. -/
structure Mark where
  char : Char
  notLetter : char.isAlpha = false
  notBlank : isSpace char = false

/-- The quoting rules of a SQL dialect: the mark that closes the region a
    character opens, and whether block comments nest. -/
structure Quoting where
  closer : Char → Option Mark
  nested : Bool
  opener_plain : ∀ c, closer c ≠ none → c.isAlpha = false ∧ isSpace c = false

/-- What the next character of a text is part of. -/
inductive Mode
  | code
  | dash
  | slash
  | quoted (close : Mark)
  | closed (close : Mark)
  | line
  | block (level : Nat)
  | blockStar (level : Nat)
  | blockSlash (level : Nat)

namespace Mode

def isQuoted : Mode → Bool
  | .quoted _ => true
  | _ => false

def isLine : Mode → Bool
  | .line => true
  | _ => false

def ofCode (q : Quoting) (c : Char) : Mode :=
  match q.closer c with
  | some close => .quoted close
  | none => if c = '-' then .dash else if c = '/' then .slash else .code

def ofBlock (level : Nat) (c : Char) : Mode :=
  if c = '*' then .blockStar level else if c = '/' then .blockSlash level else .block level

def next (q : Quoting) (m : Mode) (c : Char) : Mode :=
  match m with
  | .code => ofCode q c
  | .dash => if c = '-' then .line else ofCode q c
  | .slash => if c = '*' then .block 0 else ofCode q c
  | .quoted close => if c = close.char then .closed close else .quoted close
  -- a doubled mark is an escaped one: the region goes on
  | .closed close => if c = close.char then .quoted close else ofCode q c
  | .line => if c = '\n' then .code else .line
  | .block level => ofBlock level c
  | .blockStar level =>
    if c = '/' then (match level with | 0 => .code | level + 1 => .block level)
    else ofBlock level c
  | .blockSlash level =>
    if c = '*' then (if q.nested then .block (level + 1) else .blockStar level)
    else ofBlock level c

end Mode

/-- The blanks read since the last character kept. -/
inductive Gap
  | start
  | none
  | blank
  | newline
  deriving DecidableEq

namespace Gap

def pad : Gap → CString
  | .start | .none => []
  | .blank => [' ']
  | .newline => ['\n']

/-- The newline that ends a line comment is more than a blank. -/
def widen (g : Gap) (ends : Bool) : Gap :=
  match g with
  | .start => .start
  | .newline => .newline
  | .none | .blank => if ends then .newline else .blank

end Gap

/-- Upper case, runs of blanks as one space, none at either end. -/
def foldFrom (g : Gap) : CString → CString
  | [] => []
  | c :: s =>
    if isSpace c then foldFrom (g.widen false) s
    else g.pad ++ c.toUpper :: foldFrom .none s

def fold (s : CString) : CString := foldFrom .start s

/-- `foldFrom` outside quotes; quoted text is kept as it is, and so is the
    newline that ends a line comment. -/
def canonicalFrom (q : Quoting) (m : Mode) (g : Gap) : CString → CString
  | [] => []
  | c :: s =>
    if m.isQuoted then c :: canonicalFrom q (m.next q c) .none s
    else if isSpace c then
      canonicalFrom q (m.next q c) (g.widen (m.isLine && c == '\n')) s
    else g.pad ++ c.toUpper :: canonicalFrom q (m.next q c) .none s

def canonical (q : Quoting) (s : CString) : CString := canonicalFrom q .code .start s

/-- The texts differ only in letter case and blanks that lie outside quotes. -/
def SameOutsideQuotes (q : Quoting) (s t : CString) : Prop := canonical q s = canonical q t

/-- Every quote is closed and holds neither a letter nor a blank, and nothing
    follows the first blank of a line comment. -/
def plainFrom (q : Quoting) (m : Mode) : CString → Bool
  | [] => !m.isQuoted
  | c :: s =>
    if m.isQuoted then !c.isAlpha && !isSpace c && plainFrom q (m.next q c) s
    else if m.isLine && isSpace c then s.all isSpace
    else plainFrom q (m.next q c) s

def plain (q : Quoting) (s : CString) : Bool := plainFrom q .code s

end OciWrapper.Text
