import OciWrapper.Text.Lexical

namespace OciWrapper.Text

/-- How a SQL dialect splits a text in tokens: its quoting rules, the characters of its words, and
the words that open an alternative literal with the quote behind them. -/
structure SqlLexis where
  quoting : Quoting
  wordChar : Char → Bool
  alternative : CString → Bool

inductive SqlPiece
  | word (w : CString)
  | quoted (text : CString)
  | punct (c : Char)
  deriving DecidableEq

/-- What is being read: a token's text so far, or a comment. -/
inductive Pending
  | code
  | word (w : CString)
  | dash
  | slash
  | quoted (opener : Char) (text : CString)
  | closed (opener : Char) (text : CString)
  | delimiter (text : CString)
  | delimited (close : Char) (text : CString)
  | undelimited (close : Char) (text : CString)
  | line
  | block (level : Nat)
  | blockStar (level : Nat)
  | blockSlash (level : Nat)
  deriving DecidableEq

/-- The tokens read, and what is pending. -/
structure Reading where
  pieces : List SqlPiece
  pending : Pending

/-- The character that ends an alternative literal, before its quote. -/
def delimiterClose (c : Char) : Char :=
  if c = '[' then ']' else if c = '(' then ')' else if c = '<' then '>'
  else if c = '\x7b' then '\x7d' else c

namespace SqlLexis

variable (x : SqlLexis)

def closes (opener c : Char) : Bool := (x.quoting.closer opener).any fun mark => c == mark.char

/-- A character that stands where a token may start. -/
def readCode (pieces : List SqlPiece) (c : Char) : Reading :=
  match x.quoting.closer c with
  | some _ => ⟨pieces, .quoted c [c]⟩
  | none =>
    if c = '-' then ⟨pieces, .dash⟩
    else if c = '/' then ⟨pieces, .slash⟩
    else if isSpace c then ⟨pieces, .code⟩
    else if x.wordChar c then ⟨pieces, .word [c]⟩
    else ⟨pieces ++ [.punct c], .code⟩

def readBlock (pieces : List SqlPiece) (level : Nat) (c : Char) : Reading :=
  if c = '*' then ⟨pieces, .blockStar level⟩
  else if c = '/' then ⟨pieces, .blockSlash level⟩
  else ⟨pieces, .block level⟩

def step (st : Reading) (c : Char) : Reading :=
  match st.pending with
  | .code => x.readCode st.pieces c
  | .word w =>
    if x.wordChar c then ⟨st.pieces, .word (w ++ [c])⟩
    else if c = '\'' ∧ x.alternative w = true then ⟨st.pieces, .delimiter (w ++ [c])⟩
    else x.readCode (st.pieces ++ [.word w]) c
  | .dash => if c = '-' then ⟨st.pieces, .line⟩ else x.readCode (st.pieces ++ [.punct '-']) c
  | .slash => if c = '*' then ⟨st.pieces, .block 0⟩ else x.readCode (st.pieces ++ [.punct '/']) c
  | .quoted opener text =>
    if x.closes opener c then ⟨st.pieces, .closed opener (text ++ [c])⟩
    else ⟨st.pieces, .quoted opener (text ++ [c])⟩
  -- a doubled mark is an escaped one: the token goes on
  | .closed opener text =>
    if x.closes opener c then ⟨st.pieces, .quoted opener (text ++ [c])⟩
    else x.readCode (st.pieces ++ [.quoted text]) c
  | .delimiter text => ⟨st.pieces, .delimited (delimiterClose c) (text ++ [c])⟩
  | .delimited close text =>
    if c = close then ⟨st.pieces, .undelimited close (text ++ [c])⟩
    else ⟨st.pieces, .delimited close (text ++ [c])⟩
  | .undelimited close text =>
    if c = '\'' then ⟨st.pieces ++ [.quoted (text ++ [c])], .code⟩
    else if c = close then ⟨st.pieces, .undelimited close (text ++ [c])⟩
    else ⟨st.pieces, .delimited close (text ++ [c])⟩
  | .line => if c = '\n' then ⟨st.pieces, .code⟩ else ⟨st.pieces, .line⟩
  | .block level => readBlock st.pieces level c
  | .blockStar level =>
    if c = '/' then
      match level with
      | 0 => ⟨st.pieces, .code⟩
      | level + 1 => ⟨st.pieces, .block level⟩
    else readBlock st.pieces level c
  | .blockSlash level =>
    if c = '*' then
      if x.quoting.nested then ⟨st.pieces, .block (level + 1)⟩ else ⟨st.pieces, .blockStar level⟩
    else readBlock st.pieces level c

def read (st : Reading) (s : CString) : Reading := s.foldl x.step st

def start : Reading := ⟨[], .code⟩

end SqlLexis

/-- The tokens at the end of a text. -/
def Reading.finish (st : Reading) : List SqlPiece :=
  match st.pending with
  | .word w => st.pieces ++ [.word w]
  | .dash => st.pieces ++ [.punct '-']
  | .slash => st.pieces ++ [.punct '/']
  | .closed _ text => st.pieces ++ [.quoted text]
  | _ => st.pieces

/-- Between two tokens, or behind one that another character may yet prolong. -/
def Pending.isCode : Pending → Bool
  | .code | .word _ | .dash | .slash | .closed .. => true
  | _ => false

def Pending.isLine : Pending → Bool
  | .line => true
  | _ => false

def Pending.isBlock : Pending → Bool
  | .block _ | .blockStar _ | .blockSlash _ => true
  | _ => false

namespace SqlLexis

variable (x : SqlLexis)

def tokens (s : CString) : List SqlPiece := (x.read start s).finish

def endsInLineComment (s : CString) : Bool := (x.read start s).pending.isLine

/-- The text ends outside literals, quoted names and block comments. -/
def closed (s : CString) : Bool :=
  (x.read start s).pending.isCode || (x.read start s).pending.isLine

/-- A character that can prolong no token. -/
structure Separates (c : Char) : Prop where
  word : x.wordChar c = false
  quote : c ≠ '\''
  dash : c ≠ '-'
  star : c ≠ '*'
  mark : ∀ opener close, x.quoting.closer opener = some close → c ≠ close.char

end SqlLexis

def Reading.behind (front : List SqlPiece) (st : Reading) : Reading :=
  ⟨front ++ st.pieces, st.pending⟩

namespace SqlLexis

section Runs

variable {x : SqlLexis}

@[simp] theorem read_nil (st : Reading) : x.read st [] = st := rfl

@[simp] theorem read_cons (st : Reading) (c : Char) (s : CString) :
    x.read st (c :: s) = x.read (x.step st c) s := rfl

theorem read_append (st : Reading) (s t : CString) :
    x.read st (s ++ t) = x.read (x.read st s) t := List.foldl_append

theorem readCode_behind (front pieces : List SqlPiece) (c : Char) :
    x.readCode (front ++ pieces) c = (x.readCode pieces c).behind front := by
  simp only [readCode, Reading.behind]
  cases x.quoting.closer c with
  | some close => rfl
  | none =>
    dsimp only
    split_ifs <;> simp only [List.append_assoc]

theorem readBlock_behind (front pieces : List SqlPiece) (level : Nat) (c : Char) :
    readBlock (front ++ pieces) level c = (readBlock pieces level c).behind front := by
  simp only [readBlock, Reading.behind]
  split_ifs <;> rfl

theorem step_behind (front : List SqlPiece) (st : Reading) (c : Char) :
    x.step (st.behind front) c = (x.step st c).behind front := by
  obtain ⟨pieces, pending⟩ := st
  cases pending with
  | blockStar level =>
    cases level <;> simp only [step, Reading.behind, readBlock_behind] <;> split_ifs <;> rfl
  | _ =>
    simp only [step, Reading.behind, List.append_assoc, readCode_behind, readBlock_behind]
    try split_ifs
    all_goals rfl

/-- What was read before is left alone. -/
theorem read_behind (front : List SqlPiece) (s : CString) : ∀ st : Reading,
    x.read (st.behind front) s = (x.read st s).behind front := by
  induction s with
  | nil =>
    intro st
    rfl
  | cons c s ih =>
    intro st
    rw [read_cons, read_cons, step_behind, ih]

theorem finish_behind (front : List SqlPiece) (st : Reading) :
    (st.behind front).finish = front ++ st.finish := by
  obtain ⟨pieces, pending⟩ := st
  cases pending <;> simp only [Reading.finish, Reading.behind, List.append_assoc]

theorem Separates.closes {c : Char} (separates : x.Separates c) (opener : Char) :
    x.closes opener c = false := by
  rw [SqlLexis.closes]
  cases found : x.quoting.closer opener with
  | none => rfl
  | some close => exact beq_false_of_ne (separates.mark opener close found)

/-- A character that prolongs no token ends the one that is pending. -/
theorem step_finish {c : Char} (separates : x.Separates c) {st : Reading}
    (code : st.pending.isCode = true) : x.step st c = x.readCode st.finish c := by
  obtain ⟨pieces, pending⟩ := st
  cases pending with
  | code => rfl
  | word w =>
    have letter : ¬(x.wordChar c = true) := Bool.eq_false_iff.mp separates.word
    have quote : ¬(c = '\'' ∧ x.alternative w = true) := fun both => separates.quote both.1
    simp only [step, Reading.finish]
    rw [if_neg letter, if_neg quote]
  | dash => exact if_neg separates.dash
  | slash => exact if_neg separates.star
  | closed opener text =>
    have other : ¬(x.closes opener c = true) := Bool.eq_false_iff.mp (separates.closes opener)
    simp only [step, Reading.finish]
    rw [if_neg other]
  | _ => cases code

/-- A text whose first character ends the pending token reads as it does alone. -/
theorem read_apart {st : Reading} {c : Char} (ended : x.step st c = x.readCode st.finish c)
    (t : CString) : x.read st (c :: t) = (x.read start (c :: t)).behind st.finish := by
  have front : (⟨st.finish, .code⟩ : Reading) = start.behind st.finish := by
    rw [Reading.behind, start, List.append_nil]
  rw [read_cons, ended, ← read_behind, ← front]
  rfl

theorem read_separated {c : Char} (separates : x.Separates c) {st : Reading}
    (code : st.pending.isCode = true) (t : CString) :
    x.read st (c :: t) = (x.read start (c :: t)).behind st.finish :=
  read_apart (step_finish separates code) t

theorem closer_blank {c : Char} (blank : isSpace c = true) : x.quoting.closer c = none := by
  by_contra opener
  rw [(x.quoting.opener_plain c opener).2] at blank
  cases blank

/-- A blank that no word holds separates. -/
theorem separates_blank {c : Char} (blank : isSpace c = true) (word : x.wordChar c = false) :
    x.Separates c where
  word := word
  quote := by
    rintro rfl
    cases blank
  dash := by
    rintro rfl
    cases blank
  star := by
    rintro rfl
    cases blank
  mark := by
    rintro opener close - rfl
    rw [close.notBlank] at blank
    cases blank

theorem step_blank {c : Char} (blank : isSpace c = true) : x.step start c = start := by
  have plain : ¬(c = '-') ∧ ¬(c = '/') := by
    constructor
    all_goals
      rintro rfl
      cases blank
  simp only [step, start, readCode, closer_blank blank]
  rw [if_neg plain.1, if_neg plain.2, if_pos blank]

theorem read_word {w : CString} (chars : ∀ c ∈ w, x.wordChar c = true) :
    ∀ {pieces : List SqlPiece} {v : CString},
      x.read ⟨pieces, .word v⟩ w = ⟨pieces, .word (v ++ w)⟩ := by
  induction w with
  | nil =>
    intro pieces v
    rw [read_nil, List.append_nil]
  | cons c w ih =>
    intro pieces v
    obtain ⟨first, rest⟩ := List.forall_mem_cons.mp chars
    have grows : x.step ⟨pieces, .word v⟩ c = ⟨pieces, .word (v ++ [c])⟩ := if_pos first
    rw [read_cons, grows, ih rest, List.append_assoc, List.singleton_append]

/-- Behind a line comment, so does one that starts with the end of the line. -/
theorem read_newLine {st : Reading} (line : st.pending.isLine = true) (t : CString) :
    x.read st ('\n' :: t) = (x.read start ('\n' :: t)).behind st.finish := by
  obtain ⟨pieces, pending⟩ := st
  have blank : x.step start '\n' = start := step_blank rfl
  have front : x.step ⟨pieces, .line⟩ '\n' = (x.step start '\n').behind pieces := by
    rw [blank, Reading.behind, start, List.append_nil]
    rfl
  cases pending with
  | line =>
    rw [read_cons, front, read_behind]
    rfl
  | _ => cases line

/-- A line comment takes all that stands on its line. -/
theorem read_line {t : CString} (inside : '\n' ∉ t) (pieces : List SqlPiece) :
    x.read ⟨pieces, .line⟩ t = ⟨pieces, .line⟩ := by
  induction t with
  | nil => rfl
  | cons c t ih =>
    have other : ¬(c = '\n') := fun same => inside (same ▸ List.mem_cons_self)
    have stays : x.step ⟨pieces, .line⟩ c = ⟨pieces, .line⟩ := if_neg other
    rw [read_cons, stays, ih fun member => inside (List.mem_cons_of_mem c member)]

/-- A front that ends between two tokens. -/
theorem read_front {before : CString} (whole : (x.read start before).pending = .code)
    (s : CString) : x.read start (before ++ s) = (x.read start s).behind (x.tokens before) := by
  have front : x.read start before = start.behind (x.tokens before) := by
    rw [tokens]
    generalize x.read start before = st at whole
    obtain ⟨pieces, pending⟩ := st
    cases whole
    rw [Reading.behind, start, List.append_nil]
    rfl
  rw [read_append, front, read_behind]

/-- A text between a front and a back that are read apart from it. -/
theorem tokens_between {before s after : CString} {c : Char}
    (whole : (x.read start before).pending = .code) (closed : x.closed s = true)
    (apart : x.endsInLineComment s = false ∧ x.Separates c ∨
      c = '\n' ∧ x.Separates '\n') :
    x.read start (before ++ s ++ c :: after) =
      (x.read start (c :: after)).behind (x.tokens before ++ x.tokens s) := by
  have split : x.read (x.read start s) (c :: after) =
      (x.read start (c :: after)).behind (x.tokens s) := by
    rw [SqlLexis.closed, Bool.or_eq_true] at closed
    rcases apart with ⟨line, separates⟩ | ⟨rfl, separates⟩
    · rw [endsInLineComment] at line
      rw [line] at closed
      exact read_separated separates (closed.resolve_right Bool.false_ne_true) after
    · rcases closed with code | line
      · exact read_separated separates code after
      · exact read_newLine line after
  rw [List.append_assoc, read_front whole, read_append, split]
  simp only [Reading.behind, List.append_assoc]

theorem kept_between {whole after : CString} {front : List SqlPiece}
    (read : x.read start whole = (x.read start after).behind front)
    (code : (x.read start after).pending.isCode = true) :
    x.closed whole = true ∧ x.tokens whole = front ++ x.tokens after := by
  constructor
  · rw [SqlLexis.closed, read, Reading.behind, code]
    rfl
  · rw [tokens, read, finish_behind]
    rfl

end Runs

end SqlLexis

end OciWrapper.Text
