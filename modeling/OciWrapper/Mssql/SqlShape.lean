import OciWrapper.Text.Search

namespace OciWrapper.Mssql

open OciWrapper.Text

def msWordChar (c : Char) : Bool :=
  c.isAlphanum || c == '_' || c == '@' || c == '#' || c == '$' || decide (0x80 ≤ c.toNat)

/-- `ms_base_is`. -/
def isKeyword (w : CString) (name : String) : Bool := strcasecmp w name.toList

/-- What `mssql_sql_shape` keeps while it scans. -/
structure ShapeState where
  depth : Nat
  afterOrder : Bool
  seenOrder : Bool
  seenOffset : Bool
  offsetPending : Bool
  afterBy : Bool
  topWords : Nat
  firstSelect : Bool
  quantifier : Bool
  top : Bool
  deriving DecidableEq

def ShapeState.start : ShapeState := ⟨0, false, false, false, false, false, 0, false, false, false⟩

/-- `after_order = after_by = 0`. -/
def ShapeState.interrupt (st : ShapeState) : ShapeState :=
  { st with afterOrder := false, afterBy := false }

/-- A word at the top level. -/
def ShapeState.word (st : ShapeState) (w : CString) : ShapeState :=
  let second := st.topWords == 1 && st.firstSelect
  let third := !(st.topWords == 0) && !second && st.topWords == 2 && st.quantifier
  let isBy := st.afterOrder && isKeyword w "BY"
  { st with
    firstSelect := if st.topWords = 0 then isKeyword w "SELECT" else st.firstSelect
    quantifier := st.quantifier ||
      second && !isKeyword w "TOP" && (isKeyword w "ALL" || isKeyword w "DISTINCT")
    top := st.top || (second || third) && isKeyword w "TOP"
    seenOffset := st.seenOffset ||
      st.offsetPending && (isKeyword w "ROW" || isKeyword w "ROWS")
    offsetPending := st.offsetPending ||
      st.seenOrder && !st.afterBy && isKeyword w "OFFSET"
    afterBy := isBy
    seenOrder := st.seenOrder || isBy
    afterOrder := isKeyword w "ORDER"
    topWords := st.topWords + 1 }

/-- The rest behind a block comment; these nest. -/
def skipBlock : Nat → CString → CString
  | 0, s => s
  | level + 1, '/' :: '*' :: s => skipBlock (level + 2) s
  | level + 1, '*' :: '/' :: s => skipBlock level s
  | level + 1, _ :: s => skipBlock (level + 1) s
  | _, [] => []

/-- The rest behind a quoted text; a closing quote that is doubled is part of it. -/
def skipQuoted (close : Char) : CString → CString
  | [] => []
  | [_] => []
  | c :: d :: s =>
    if c = close then if d = close then skipQuoted close s else d :: s
    else skipQuoted close (d :: s)

/-- The loop of `mssql_sql_shape`; each round takes a character. -/
def shapeScan : Nat → ShapeState → CString → ShapeState × Bool
  | 0, st, _ => (st, false)
  | _ + 1, st, [] => (st, false)
  | fuel + 1, st, c :: p =>
    if isSpace c then shapeScan fuel st p
    else if c = '-' ∧ p.head? = some '-' then
      let rest := (p.drop 1).dropWhile (· != '\n')
      if rest = [] then (st, true) else shapeScan fuel st rest
    else if c = '/' ∧ p.head? = some '*' then shapeScan fuel st (skipBlock 1 (p.drop 1))
    else if c = '\'' ∨ c = '"' ∨ c = '[' then
      shapeScan fuel st.interrupt (skipQuoted (if c = '[' then ']' else c) p)
    else if c = '(' then shapeScan fuel { st.interrupt with depth := st.depth + 1 } p
    else if c = ')' then shapeScan fuel { st.interrupt with depth := st.depth - 1 } p
    else if msWordChar c then
      let w := c :: p.takeWhile msWordChar
      let rest := p.dropWhile msWordChar
      if w.length = 1 ∧ (c = 'N' ∨ c = 'n') ∧ rest.head? = some '\'' then shapeScan fuel st rest
      else shapeScan fuel (if st.depth = 0 then st.word w else st) rest
    else shapeScan fuel st.interrupt p

structure SqlShape where
  orderBy : Bool
  offset : Bool
  startsTop : Bool
  endsInLineComment : Bool
  deriving DecidableEq

def mssqlSqlShape (sql : CString) : SqlShape :=
  let (st, ends) := shapeScan (sql.length + 1) .start sql
  ⟨st.seenOrder, st.seenOffset, st.top, ends⟩

inductive SqlToken
  | word (w : CString)
  | quoted
  | opening
  | closing
  | punct (c : Char)

/-- A block comment behind its opening, to its end. -/
inductive CommentBody : CString → Prop
  | closed : CommentBody ['*', '/']
  | nested {inner rest : CString} (comment : CommentBody inner) (more : CommentBody rest) :
      CommentBody ('/' :: '*' :: (inner ++ rest))
  | char {c : Char} {rest : CString} (opens : ¬(c = '/' ∧ rest.head? = some '*'))
      (closes : ¬(c = '*' ∧ rest.head? = some '/')) (more : CommentBody rest) :
      CommentBody (c :: rest)

/-- A block comment that the text ends in. -/
inductive OpenComment : CString → Prop
  | ended : OpenComment []
  | inside {rest : CString} (more : OpenComment rest) : OpenComment ('/' :: '*' :: rest)
  | nested {inner rest : CString} (comment : CommentBody inner) (more : OpenComment rest) :
      OpenComment ('/' :: '*' :: (inner ++ rest))
  | char {c : Char} {rest : CString} (opens : ¬(c = '/' ∧ rest.head? = some '*'))
      (closes : ¬(c = '*' ∧ rest.head? = some '/')) (more : OpenComment rest) :
      OpenComment (c :: rest)

/-- The content of a quoted text: its closing quote only doubled. -/
inductive QuotedBody (close : Char) : CString → Prop
  | ended : QuotedBody close []
  | doubled {rest : CString} (more : QuotedBody close rest) :
      QuotedBody close (close :: close :: rest)
  | char {c : Char} {rest : CString} (other : c ≠ close) (more : QuotedBody close rest) :
      QuotedBody close (c :: rest)

/-- The character that ends what another one opens. -/
def closeOf (c : Char) : Option Char :=
  if c = '\'' ∨ c = '"' then some c else if c = '[' then some ']' else none

/-- A character that stands for itself. -/
def Plain (c : Char) : Prop :=
  isSpace c = false ∧ closeOf c = none ∧ c ≠ '(' ∧ c ≠ ')' ∧ msWordChar c = false

/-- The tokens of a SQL text, and whether it ends in a line comment. -/
inductive Lexes : CString → List SqlToken → Bool → Prop
  | done : Lexes [] [] false
  | blank {c : Char} {s : CString} {tokens : List SqlToken} {ends : Bool}
      (space : isSpace c = true) (rest : Lexes s tokens ends) : Lexes (c :: s) tokens ends
  | lineComment {text s : CString} {tokens : List SqlToken} {ends : Bool} (inside : '\n' ∉ text)
      (rest : Lexes s tokens ends) : Lexes ('-' :: '-' :: (text ++ '\n' :: s)) tokens ends
  | lastLine {text : CString} (inside : '\n' ∉ text) : Lexes ('-' :: '-' :: text) [] true
  | blockComment {body s : CString} {tokens : List SqlToken} {ends : Bool}
      (comment : CommentBody body) (rest : Lexes s tokens ends) :
      Lexes ('/' :: '*' :: (body ++ s)) tokens ends
  | lastBlock {body : CString} (comment : OpenComment body) :
      Lexes ('/' :: '*' :: body) [] false
  | quoted {mark close : Char} {body s : CString} {tokens : List SqlToken} {ends : Bool}
      (opens : closeOf mark = some close) (content : QuotedBody close body)
      (single : s.head? ≠ some close) (rest : Lexes s tokens ends) :
      Lexes (mark :: (body ++ close :: s)) (.quoted :: tokens) ends
  | lastQuoted {mark close : Char} {body : CString} (opens : closeOf mark = some close)
      (content : QuotedBody close body) : Lexes (mark :: body) [.quoted] false
  | national {n : Char} {s : CString} {tokens : List SqlToken} {ends : Bool}
      (mark : n = 'N' ∨ n = 'n') (rest : Lexes ('\'' :: s) tokens ends) :
      Lexes (n :: '\'' :: s) tokens ends
  | word {w s : CString} {tokens : List SqlToken} {ends : Bool} (filled : w ≠ [])
      (chars : ∀ c ∈ w, msWordChar c = true) (whole : ∀ c, s.head? = some c → msWordChar c = false)
      (other : ¬((w = ['N'] ∨ w = ['n']) ∧ s.head? = some '\'')) (rest : Lexes s tokens ends) :
      Lexes (w ++ s) (.word w :: tokens) ends
  | opening {s : CString} {tokens : List SqlToken} {ends : Bool} (rest : Lexes s tokens ends) :
      Lexes ('(' :: s) (.opening :: tokens) ends
  | closing {s : CString} {tokens : List SqlToken} {ends : Bool} (rest : Lexes s tokens ends) :
      Lexes (')' :: s) (.closing :: tokens) ends
  | punct {c : Char} {s : CString} {tokens : List SqlToken} {ends : Bool} (plain : Plain c)
      (line : ¬(c = '-' ∧ s.head? = some '-')) (block : ¬(c = '/' ∧ s.head? = some '*'))
      (rest : Lexes s tokens ends) : Lexes (c :: s) (.punct c :: tokens) ends

/-- What stands outside parentheses; a group in them is one token. -/
inductive TopToken
  | word (w : CString)
  | quoted
  | group
  | punct (c : Char)

def topLevel : Nat → List SqlToken → List TopToken
  | _, [] => []
  | 0, .word w :: tokens => .word w :: topLevel 0 tokens
  | 0, .quoted :: tokens => .quoted :: topLevel 0 tokens
  | 0, .opening :: tokens => .group :: topLevel 1 tokens
  | 0, .closing :: tokens => .punct ')' :: topLevel 0 tokens
  | 0, .punct c :: tokens => .punct c :: topLevel 0 tokens
  | depth + 1, .opening :: tokens => topLevel (depth + 2) tokens
  | depth + 1, .closing :: tokens => topLevel depth tokens
  | depth + 1, _ :: tokens => topLevel (depth + 1) tokens

section Skips

theorem skipBlock_char {c : Char} {s : CString} (opens : ¬(c = '/' ∧ s.head? = some '*'))
    (closes : ¬(c = '*' ∧ s.head? = some '/')) (level : Nat) :
    skipBlock (level + 1) (c :: s) = skipBlock (level + 1) s := by
  cases s with
  | nil => rw [skipBlock] <;> rintro rest - ⟨⟩
  | cons d s =>
    rw [skipBlock]
    · rintro rest rfl same
      cases same
      exact opens ⟨rfl, rfl⟩
    · rintro rest rfl same
      cases same
      exact closes ⟨rfl, rfl⟩

theorem head?_append_of_comment {c : Char} {body : CString} (comment : CommentBody body)
    (s : CString) : (body ++ s).head? = some c ↔ body.head? = some c := by
  cases comment <;> rfl

theorem skipBlock_comment {body : CString} (comment : CommentBody body) :
    ∀ (level : Nat) (s : CString), skipBlock (level + 1) (body ++ s) = skipBlock level s := by
  induction comment with
  | closed =>
    intro level s
    rfl
  | @nested inner rest comment more ih ih' =>
    intro level s
    rw [List.cons_append, List.cons_append, List.append_assoc]
    exact (ih (level + 1) (rest ++ s)).trans (ih' level s)
  | @char c rest opens closes more ih =>
    intro level s
    rw [List.cons_append, skipBlock_char _ _ level]
    · exact ih level s
    · rwa [head?_append_of_comment more]
    · rwa [head?_append_of_comment more]

theorem skipBlock_open {body : CString} (comment : OpenComment body) :
    ∀ level, skipBlock (level + 1) body = [] := by
  induction comment with
  | ended =>
    intro level
    rfl
  | inside more ih =>
    intro level
    exact ih (level + 1)
  | @nested inner rest comment more ih =>
    intro level
    exact (skipBlock_comment comment (level + 1) rest).trans (ih level)
  | @char c rest opens closes more ih =>
    intro level
    rw [skipBlock_char opens closes]
    exact ih level

theorem skipQuoted_char {close c : Char} {s : CString} (other : c ≠ close) :
    skipQuoted close (c :: s) = skipQuoted close s := by
  cases s with
  | nil => rfl
  | cons d s => rw [skipQuoted, if_neg other]

theorem skipQuoted_body {close : Char} {body : CString} (content : QuotedBody close body)
    {s : CString} (single : s.head? ≠ some close) : skipQuoted close (body ++ close :: s) = s := by
  induction content with
  | ended =>
    cases s with
    | nil => rfl
    | cons d s =>
      have other : d ≠ close := fun same => single (congrArg some same)
      rw [List.nil_append, skipQuoted, if_pos rfl, if_neg other]
  | doubled more ih =>
    rw [List.cons_append, List.cons_append, skipQuoted, if_pos rfl, if_pos rfl]
    exact ih
  | char other more ih =>
    rw [List.cons_append, skipQuoted_char other]
    exact ih

theorem skipQuoted_open {close : Char} {body : CString} (content : QuotedBody close body) :
    skipQuoted close body = [] := by
  induction content with
  | ended => rfl
  | doubled more ih =>
    rw [skipQuoted, if_pos rfl, if_pos rfl]
    exact ih
  | char other more ih =>
    rw [skipQuoted_char other]
    exact ih

end Skips

section Tokens

/-- What the scan makes of a token. -/
def ShapeState.token (st : ShapeState) : SqlToken → ShapeState
  | .word w => if st.depth = 0 then st.word w else st
  | .opening => { st.interrupt with depth := st.depth + 1 }
  | .closing => { st.interrupt with depth := st.depth - 1 }
  | .quoted | .punct _ => st.interrupt

theorem closeOf_eq_some {mark close : Char} (opens : closeOf mark = some close) :
    (mark = '\'' ∨ mark = '"' ∨ mark = '[') ∧ (if mark = '[' then ']' else mark) = close := by
  rw [closeOf] at opens
  split at opens
  next same =>
    obtain rfl := Option.some.inj opens
    rcases same with rfl | rfl <;> exact ⟨by decide, by decide⟩
  next =>
    split at opens
    next same =>
      obtain rfl := Option.some.inj opens
      exact ⟨Or.inr (Or.inr same), if_pos same⟩
    next => cases opens

theorem closeOf_eq_none {c : Char} (plain : closeOf c = none) :
    ¬(c = '\'' ∨ c = '"' ∨ c = '[') := by
  rintro (rfl | rfl | rfl) <;> cases plain

theorem wordChar_plain {c : Char} (inside : msWordChar c = true) :
    isSpace c = false ∧ c ≠ '-' ∧ c ≠ '/' ∧ ¬(c = '\'' ∨ c = '"' ∨ c = '[') ∧
      c ≠ '(' ∧ c ≠ ')' := by
  refine ⟨?_, ?_, ?_, ?_, ?_, ?_⟩
  · rw [Bool.eq_false_iff]
    intro blank
    simp only [isSpace, Bool.or_eq_true, beq_iff_eq] at blank
    rcases blank with ((((rfl | rfl) | rfl) | rfl) | rfl) | rfl <;> cases inside
  · rintro rfl
    cases inside
  · rintro rfl
    cases inside
  · rintro (rfl | rfl | rfl) <;> cases inside
  · rintro rfl
    cases inside
  · rintro rfl
    cases inside

theorem dropWhile_line {text s : CString} (inside : '\n' ∉ text) :
    (text ++ '\n' :: s).dropWhile (· != '\n') = '\n' :: s := by
  rw [List.dropWhile_append_of_pos]
  · rfl
  · intro c member
    exact bne_iff_ne.mpr fun same => inside (same ▸ member)

theorem dropWhile_last {text : CString} (inside : '\n' ∉ text) :
    text.dropWhile (· != '\n') = [] :=
  List.dropWhile_eq_nil_iff.mpr fun _ member =>
    bne_iff_ne.mpr fun same => inside (same ▸ member)

theorem span_word {w s : CString} (chars : ∀ c ∈ w, msWordChar c = true)
    (whole : ∀ c, s.head? = some c → msWordChar c = false) :
    (w ++ s).takeWhile msWordChar = w ∧ (w ++ s).dropWhile msWordChar = s := by
  rw [List.takeWhile_append_of_pos chars, List.dropWhile_append_of_pos chars]
  cases s with
  | nil => exact ⟨List.append_nil w, rfl⟩
  | cons c s =>
    have stop : ¬msWordChar c = true := by
      rw [whole c rfl]
      decide
    rw [List.takeWhile_cons_of_neg stop, List.dropWhile_cons_of_neg stop, List.append_nil]
    exact ⟨rfl, rfl⟩

/-- The scan takes a word, or the `N` before a literal. -/
theorem shapeScan_word {fuel : Nat} {st : ShapeState} {c : Char} {w s : CString}
    (chars : ∀ d ∈ c :: w, msWordChar d = true)
    (whole : ∀ d, s.head? = some d → msWordChar d = false) :
    shapeScan (fuel + 1) st (c :: (w ++ s)) =
      if (c :: w).length = 1 ∧ (c = 'N' ∨ c = 'n') ∧ s.head? = some '\'' then shapeScan fuel st s
      else shapeScan fuel (if st.depth = 0 then st.word (c :: w) else st) s := by
  have inside := chars c List.mem_cons_self
  obtain ⟨space, dash, slash, quote, opening, closing⟩ := wordChar_plain inside
  obtain ⟨taken, behind⟩ := @span_word w s
    (fun d member => chars d (List.mem_cons_of_mem c member)) whole
  rw [shapeScan, if_neg (by rw [space]; decide), if_neg (fun both => dash both.1),
    if_neg (fun both => slash both.1), if_neg quote, if_neg opening, if_neg closing,
    if_pos inside, taken, behind]

theorem shapeScan_quoted {fuel : Nat} {st : ShapeState} {mark close : Char} {p : CString}
    (opens : closeOf mark = some close) :
    shapeScan (fuel + 1) st (mark :: p) =
      shapeScan fuel st.interrupt (skipQuoted close p) := by
  obtain ⟨quote, same⟩ := closeOf_eq_some opens
  have space : ¬isSpace mark = true := by rcases quote with rfl | rfl | rfl <;> decide
  have dash : mark ≠ '-' := by rcases quote with rfl | rfl | rfl <;> decide
  have slash : mark ≠ '/' := by rcases quote with rfl | rfl | rfl <;> decide
  rw [shapeScan, if_neg space, if_neg (fun both => dash both.1),
    if_neg (fun both => slash both.1), if_pos quote, same]

/-- The scan of a text is that of its tokens. -/
theorem shapeScan_of_lexes {s : CString} {tokens : List SqlToken} {ends : Bool}
    (lexed : Lexes s tokens ends) : ∀ {fuel : Nat} (st : ShapeState), s.length < fuel →
    shapeScan fuel st s = (tokens.foldl ShapeState.token st, ends) := by
  have step : ∀ {fuel n : Nat}, n < fuel → ∃ less, fuel = less + 1 ∧ n ≤ less := by
    intro fuel n enough
    exact ⟨fuel - 1, by omega, by omega⟩
  induction lexed with
  | done =>
    intro fuel st enough
    cases fuel <;> rfl
  | @blank c s tokens ends space rest ih =>
    intro fuel st enough
    obtain ⟨fuel, rfl, room⟩ := step enough
    rw [shapeScan, if_pos space]
    exact ih st room
  | @lineComment text s tokens ends inside rest ih =>
    intro fuel st enough
    obtain ⟨fuel, rfl, room⟩ := step enough
    simp only [List.length_cons, List.length_append] at room
    obtain ⟨fuel, rfl, room⟩ := step room
    rw [shapeScan, if_neg (by decide), if_pos ⟨rfl, rfl⟩, List.drop_one, List.tail_cons,
      dropWhile_line inside, if_neg (List.cons_ne_nil _ _), shapeScan, if_pos (by decide)]
    exact ih st (by omega)
  | @lastLine text inside =>
    intro fuel st enough
    obtain ⟨fuel, rfl, room⟩ := step enough
    rw [shapeScan, if_neg (by decide), if_pos ⟨rfl, rfl⟩, List.drop_one, List.tail_cons,
      dropWhile_last inside, if_pos rfl]
    rfl
  | @blockComment body s tokens ends comment rest ih =>
    intro fuel st enough
    obtain ⟨fuel, rfl, room⟩ := step enough
    simp only [List.length_cons, List.length_append] at room
    rw [shapeScan, if_neg (by decide), if_neg (fun both => absurd both.1 (by decide)),
      if_pos ⟨rfl, rfl⟩, List.drop_one, List.tail_cons, skipBlock_comment comment 0 s, skipBlock]
    exact ih st (by omega)
  | @lastBlock body comment =>
    intro fuel st enough
    obtain ⟨fuel, rfl, room⟩ := step enough
    rw [shapeScan, if_neg (by decide), if_neg (fun both => absurd both.1 (by decide)),
      if_pos ⟨rfl, rfl⟩, List.drop_one, List.tail_cons, skipBlock_open comment 0]
    cases fuel <;> rfl
  | @quoted mark close body s tokens ends opens content single rest ih =>
    intro fuel st enough
    obtain ⟨fuel, rfl, room⟩ := step enough
    simp only [List.length_cons, List.length_append] at room
    rw [shapeScan_quoted opens, skipQuoted_body content single]
    exact ih _ (by omega)
  | @lastQuoted mark close body opens content =>
    intro fuel st enough
    obtain ⟨fuel, rfl, room⟩ := step enough
    rw [shapeScan_quoted opens, skipQuoted_open content]
    cases fuel <;> rfl
  | @national n s tokens ends mark rest ih =>
    intro fuel st enough
    obtain ⟨fuel, rfl, room⟩ := step enough
    have single : ∀ d ∈ [n], msWordChar d = true := by
      rw [List.forall_mem_singleton]
      rcases mark with rfl | rfl <;> decide
    have quote : ∀ d, ('\'' :: s).head? = some d → msWordChar d = false := by
      intro d head
      cases head
      decide
    rw [← List.nil_append ('\'' :: s), shapeScan_word single quote, if_pos ⟨rfl, mark, rfl⟩]
    exact ih st room
  | @word w s tokens ends filled chars whole other rest ih =>
    intro fuel st enough
    obtain ⟨fuel, rfl, room⟩ := step enough
    obtain ⟨c, w, rfl⟩ := List.exists_cons_of_ne_nil filled
    simp only [List.length_append, List.length_cons] at room
    have noPrefix : ¬((c :: w).length = 1 ∧ (c = 'N' ∨ c = 'n') ∧ s.head? = some '\'') := by
      rintro ⟨length, mark, quote⟩
      obtain rfl := List.length_eq_zero_iff.mp (Nat.succ.inj length)
      refine other ⟨?_, quote⟩
      rcases mark with rfl | rfl
      · exact Or.inl rfl
      · exact Or.inr rfl
    rw [List.cons_append, shapeScan_word chars whole, if_neg noPrefix]
    exact ih _ (by omega)
  | @opening s tokens ends rest ih =>
    intro fuel st enough
    obtain ⟨fuel, rfl, room⟩ := step enough
    exact ih _ room
  | @closing s tokens ends rest ih =>
    intro fuel st enough
    obtain ⟨fuel, rfl, room⟩ := step enough
    exact ih _ room
  | @punct c s tokens ends plain line block rest ih =>
    intro fuel st enough
    obtain ⟨space, bare, opening, closing, noWord⟩ := plain
    obtain ⟨fuel, rfl, room⟩ := step enough
    rw [shapeScan, if_neg (by rw [space]; decide), if_neg line, if_neg block,
      if_neg (closeOf_eq_none bare), if_neg opening, if_neg closing,
      if_neg (by rw [noWord]; decide)]
    exact ih _ room

end Tokens

section Total

theorem exists_comment : ∀ (n : Nat) {s : CString}, s.length ≤ n →
    (∃ body rest, s = body ++ rest ∧ CommentBody body) ∨ OpenComment s := by
  intro n
  induction n with
  | zero =>
    intro s short
    obtain rfl := List.length_eq_zero_iff.mp (Nat.le_zero.mp short)
    exact Or.inr .ended
  | succ n ih =>
    intro s short
    cases s with
    | nil => exact Or.inr .ended
    | cons c t =>
      rw [List.length_cons] at short
      by_cases opens : c = '/' ∧ t.head? = some '*'
      · obtain ⟨rfl, star⟩ := opens
        obtain ⟨t, rfl⟩ := List.head?_eq_some_iff.mp star
        rw [List.length_cons] at short
        rcases @ih t (by omega) with ⟨inner, rest, rfl, comment⟩ | more
        · rw [List.length_append] at short
          rcases @ih rest (by omega) with ⟨body, rest, rfl, more⟩ | more
          · exact Or.inl ⟨'/' :: '*' :: (inner ++ body), rest, by simp, .nested comment more⟩
          · exact Or.inr (.nested comment more)
        · exact Or.inr (.inside more)
      by_cases closes : c = '*' ∧ t.head? = some '/'
      · obtain ⟨rfl, slash⟩ := closes
        obtain ⟨t, rfl⟩ := List.head?_eq_some_iff.mp slash
        exact Or.inl ⟨['*', '/'], t, rfl, .closed⟩
      rcases @ih t (by omega) with ⟨body, rest, rfl, more⟩ | more
      · refine Or.inl ⟨c :: body, rest, rfl, .char ?_ ?_ more⟩
        · rwa [← head?_append_of_comment more rest]
        · rwa [← head?_append_of_comment more rest]
      · exact Or.inr (.char opens closes more)

theorem exists_quoted (close : Char) : ∀ (n : Nat) {s : CString}, s.length ≤ n →
    (∃ body rest, s = body ++ close :: rest ∧ QuotedBody close body ∧
      rest.head? ≠ some close) ∨ QuotedBody close s := by
  intro n
  induction n with
  | zero =>
    intro s short
    obtain rfl := List.length_eq_zero_iff.mp (Nat.le_zero.mp short)
    exact Or.inr .ended
  | succ n ih =>
    intro s short
    cases s with
    | nil => exact Or.inr .ended
    | cons c t =>
      rw [List.length_cons] at short
      by_cases same : c = close
      · subst same
        by_cases doubled : t.head? = some c
        · obtain ⟨t, rfl⟩ := List.head?_eq_some_iff.mp doubled
          rw [List.length_cons] at short
          rcases @ih t (by omega) with ⟨body, rest, rfl, content, single⟩ | content
          · exact Or.inl ⟨c :: c :: body, rest, rfl, .doubled content, single⟩
          · exact Or.inr (.doubled content)
        · exact Or.inl ⟨[], t, rfl, .ended, doubled⟩
      · rcases @ih t (by omega) with ⟨body, rest, rfl, content, single⟩ | content
        · exact Or.inl ⟨c :: body, rest, rfl, .char same content, single⟩
        · exact Or.inr (.char same content)

/-- Every text has tokens. -/
theorem exists_lexes : ∀ (n : Nat) {s : CString}, s.length ≤ n →
    ∃ tokens ends, Lexes s tokens ends := by
  intro n
  induction n with
  | zero =>
    intro s short
    obtain rfl := List.length_eq_zero_iff.mp (Nat.le_zero.mp short)
    exact ⟨[], false, .done⟩
  | succ n ih =>
    intro s short
    cases s with
    | nil => exact ⟨[], false, .done⟩
    | cons c t =>
      rw [List.length_cons] at short
      obtain ⟨tokens, ends, rest⟩ := @ih t (by omega)
      cases space : isSpace c with
      | true => exact ⟨_, _, .blank space rest⟩
      | false =>
      by_cases line : c = '-' ∧ t.head? = some '-'
      · obtain ⟨rfl, dash⟩ := line
        obtain ⟨t, rfl⟩ := List.head?_eq_some_iff.mp dash
        by_cases inside : '\n' ∈ t
        · obtain ⟨text, s, rfl, first⟩ := List.eq_append_cons_of_mem inside
          obtain ⟨tokens, ends, rest⟩ := @ih s (by
            simp only [List.length_cons, List.length_append] at short
            omega)
          exact ⟨_, _, .lineComment first rest⟩
        · exact ⟨_, _, .lastLine inside⟩
      by_cases block : c = '/' ∧ t.head? = some '*'
      · obtain ⟨rfl, star⟩ := block
        obtain ⟨t, rfl⟩ := List.head?_eq_some_iff.mp star
        rcases exists_comment t.length (Nat.le_refl t.length) with ⟨body, s, rfl, comment⟩ | comment
        · obtain ⟨tokens, ends, rest⟩ := @ih s (by
            simp only [List.length_cons, List.length_append] at short
            omega)
          exact ⟨_, _, .blockComment comment rest⟩
        · exact ⟨_, _, .lastBlock comment⟩
      cases opens : closeOf c with
      | some close =>
        rcases exists_quoted close t.length (Nat.le_refl t.length) with
          ⟨body, s, rfl, content, single⟩ | content
        · obtain ⟨tokens, ends, rest⟩ := @ih s (by
            simp only [List.length_cons, List.length_append] at short
            omega)
          exact ⟨_, _, .quoted opens content single rest⟩
        · exact ⟨_, _, .lastQuoted opens content⟩
      | none =>
      by_cases opening : c = '('
      · subst opening
        exact ⟨_, _, .opening rest⟩
      by_cases closing : c = ')'
      · subst closing
        exact ⟨_, _, .closing rest⟩
      cases inside : msWordChar c with
      | false => exact ⟨_, _, .punct ⟨space, opens, opening, closing, inside⟩ line block rest⟩
      | true =>
        have split : c :: t = (c :: t.takeWhile msWordChar) ++ t.dropWhile msWordChar := by
          rw [List.cons_append, List.takeWhile_append_dropWhile]
        have chars : ∀ d ∈ c :: t.takeWhile msWordChar, msWordChar d = true := by
          rw [List.forall_mem_cons]
          exact ⟨inside, fun d member => List.mem_takeWhile_imp member⟩
        have whole : ∀ d, (t.dropWhile msWordChar).head? = some d → msWordChar d = false := by
          intro d head
          have stop := List.head?_dropWhile_not msWordChar t
          rw [head] at stop
          exact stop
        by_cases other : (c :: t.takeWhile msWordChar = ['N'] ∨
            c :: t.takeWhile msWordChar = ['n']) ∧ (t.dropWhile msWordChar).head? = some '\''
        · obtain ⟨mark, quote⟩ := other
          have bare : t.takeWhile msWordChar = [] ∧ (c = 'N' ∨ c = 'n') := by
            rcases mark with same | same
            · exact ⟨(List.cons.inj same).2, Or.inl (List.cons.inj same).1⟩
            · exact ⟨(List.cons.inj same).2, Or.inr (List.cons.inj same).1⟩
          have behind : t = t.dropWhile msWordChar := by
            conv_lhs => rw [← List.takeWhile_append_dropWhile (p := msWordChar) (l := t), bare.1,
              List.nil_append]
          rw [← behind] at quote
          obtain ⟨t, rfl⟩ := List.head?_eq_some_iff.mp quote
          exact ⟨_, _, .national bare.2 rest⟩
        · have shorter := (List.dropWhile_suffix msWordChar (l := t)).length_le
          obtain ⟨tokens, ends, rest⟩ := @ih (t.dropWhile msWordChar) (by omega)
          rw [split]
          exact ⟨_, _, .word (List.cons_ne_nil _ _) chars whole other rest⟩

end Total

example : mssqlSqlShape "SELECT a FROM t ORDER /* x */ BY [offset] OFFSET 5 ROWS --".toList =
    ⟨true, true, false, true⟩ := by decide +kernel
example : mssqlSqlShape "SELECT a FROM t ORDER BY t.offset, t.rows".toList =
    ⟨true, true, false, false⟩ := by decide +kernel
example :
    mssqlSqlShape "SELECT all top 3 N'ORDER BY' FROM (SELECT x ORDER BY /* /* */ */ y".toList =
      ⟨false, false, true, false⟩ := by decide +kernel

end OciWrapper.Mssql
