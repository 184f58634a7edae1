import OciWrapper.Text.SqlTokens
import OciWrapper.Text.Numerals
import OciWrapper.Execute.Dialect
import OciWrapper.Dml.SqlDialect
import OciWrapper.Mssql.SqlShape

namespace OciWrapper.Execute

open OciWrapper.Text OciWrapper.Dml OciWrapper.Mssql

/-- `oracle_row_limit_sql`. -/
def oracleRowLimitSql (sql : CString) (maxRows : Int) (outMax : Nat) : Option CString :=
  if maxRows < 0 then none
  else fmt outMax ("SELECT * FROM (".toList ++ sql ++ ") WHERE ROWNUM <= ".toList ++
    decimal maxRows)

/-- `oracle_count_rows_sql`. -/
def oracleCountRowsSql (sql : CString) (outMax : Nat) : Option CString :=
  fmt outMax ("SELECT COUNT(*) FROM (SELECT 1 FROM (".toList ++ sql ++ "))".toList)

/-- `ms_row_limit_sql`. -/
def msRowLimitSql (sql : CString) (maxRows : Int) (outMax : Nat) : Option CString :=
  if maxRows < 0 then none
  else
    let shape := mssqlSqlShape sql
    if shape.orderBy && !shape.offset && !shape.startsTop then
      fmt outMax (sql ++ (if shape.endsInLineComment then "\n".toList else " ".toList) ++
        "OFFSET 0 ROWS FETCH NEXT ".toList ++ decimal maxRows ++ " ROWS ONLY".toList)
    else
      fmt outMax ("SELECT TOP (".toList ++ decimal maxRows ++ ") * FROM (".toList ++ sql ++
        (if shape.endsInLineComment then "\n".toList else "".toList) ++ ") AS dm_t".toList)

/-- `ms_count_rows_sql`. -/
def msCountRowsSql (sql : CString) (outMax : Nat) : Option CString :=
  let shape := mssqlSqlShape sql
  let mid :=
    if shape.orderBy && !shape.offset && !shape.startsTop then
      if shape.endsInLineComment then "\nOFFSET 0 ROWS".toList else " OFFSET 0 ROWS".toList
    else if shape.endsInLineComment then "\n".toList else "".toList
  fmt outMax ("SELECT COUNT(*) FROM (SELECT 1 AS dm_c FROM (".toList ++ sql ++ mid ++
    ") AS dm_a) AS dm_b".toList)

inductive RowWrapper
  | count
  | limit (maxRows : Int)

/-- `count_rows_sql` and `row_limit_sql` of a driver's dialect. -/
def wrapRows (vendor : Vendor) (wrapper : RowWrapper) (sql : CString) (outMax : Nat) :
    Option CString :=
  match vendor, wrapper with
  | .oracle, .count => oracleCountRowsSql sql outMax
  | .oracle, .limit maxRows => oracleRowLimitSql sql maxRows outMax
  | .mssql, .count => msCountRowsSql sql outMax
  | .mssql, .limit maxRows => msRowLimitSql sql maxRows outMax

def oracleWordChar (c : Char) : Bool :=
  c.isAlphanum || c == '_' || c == '#' || c == '$' || decide (0x80 ≤ c.toNat)

def oracleLexis : SqlLexis where
  quoting := oracleQuoting
  wordChar := oracleWordChar
  alternative := fun w => w.map Char.toLower == "q".toList || w.map Char.toLower == "nq".toList

def mssqlLexis : SqlLexis where
  quoting := mssqlQuoting
  wordChar := msWordChar
  alternative := fun _ => false

def lexis : Vendor → SqlLexis
  | .oracle => oracleLexis
  | .mssql => mssqlLexis

/-- The text that a wrapper puts before the query, and what it puts behind. -/
def wrapperTexts (vendor : Vendor) (wrapper : RowWrapper) (sql : CString) : CString × CString :=
  let shape := mssqlSqlShape sql
  let ordered := shape.orderBy && !shape.offset && !shape.startsTop
  match vendor, wrapper with
  | .oracle, .count => ("SELECT COUNT(*) FROM (SELECT 1 FROM (".toList, "))".toList)
  | .oracle, .limit maxRows =>
    ("SELECT * FROM (".toList, ") WHERE ROWNUM <= ".toList ++ decimal maxRows)
  | .mssql, .count =>
    ("SELECT COUNT(*) FROM (SELECT 1 AS dm_c FROM (".toList,
      (if ordered then
        if shape.endsInLineComment then "\nOFFSET 0 ROWS".toList else " OFFSET 0 ROWS".toList
      else if shape.endsInLineComment then "\n".toList else "".toList) ++
        ") AS dm_a) AS dm_b".toList)
  | .mssql, .limit maxRows =>
    if ordered then
      ([], (if shape.endsInLineComment then "\n".toList else " ".toList) ++
        "OFFSET 0 ROWS FETCH NEXT ".toList ++ decimal maxRows ++ " ROWS ONLY".toList)
    else
      ("SELECT TOP (".toList ++ decimal maxRows ++ ") * FROM (".toList,
        (if shape.endsInLineComment then "\n".toList else "".toList) ++ ") AS dm_t".toList)

/-- The wrapper gives a text, and its tokens are the opening ones, those of the query in order,
and the closing ones. -/
def KeepsTokens (vendor : Vendor) (wrapper : RowWrapper) (sql : CString) (outMax : Nat) : Prop :=
  ∃ out, wrapRows vendor wrapper sql outMax = some out ∧ (lexis vendor).closed out = true ∧
    (lexis vendor).tokens out = (lexis vendor).tokens (wrapperTexts vendor wrapper sql).1 ++
      (lexis vendor).tokens sql ++ (lexis vendor).tokens (wrapperTexts vendor wrapper sql).2

/-- The query and the wrapper's own text fit the caller's buffer, and the limit is one. -/
def Fits (vendor : Vendor) (wrapper : RowWrapper) (sql : CString) (outMax : Nat) : Prop :=
  (wrapperTexts vendor wrapper sql).1.length + sql.length +
      (wrapperTexts vendor wrapper sql).2.length < outMax ∧
    ∀ maxRows, wrapper = .limit maxRows → 0 ≤ maxRows

section Shape

variable {pieces : List SqlPiece}

theorem mssql_closer_none {c : Char} (plain : closeOf c = none) :
    mssqlQuoting.closer c = none := by
  have others := closeOf_eq_none plain
  simp only [not_or] at others
  simp only [mssqlQuoting, oracleQuoting]
  rw [if_neg others.2.2, if_neg others.1, if_neg others.2.1]

theorem mssql_closes {mark close : Char} (opens : closeOf mark = some close) :
    (∃ m, mssqlQuoting.closer mark = some m) ∧
      ∀ c, mssqlLexis.closes mark c = true ↔ c = close := by
  obtain ⟨one, rfl⟩ := closeOf_eq_some opens
  rcases one with rfl | rfl | rfl
  all_goals exact ⟨⟨_, rfl⟩, fun c => beq_iff_eq⟩

theorem read_block_char {c d : Char} {rest : CString} {level : Nat}
    (opens : ¬(c = '/' ∧ (d :: rest).head? = some '*'))
    (closes : ¬(c = '*' ∧ (d :: rest).head? = some '/')) :
    mssqlLexis.read ⟨pieces, .block level⟩ (c :: d :: rest) =
      mssqlLexis.read ⟨pieces, .block level⟩ (d :: rest) := by
  rw [SqlLexis.read_cons, SqlLexis.read_cons, SqlLexis.read_cons]
  congr 1
  by_cases star : c = '*'
  · subst star
    have other : ¬(d = '/') := fun same => closes ⟨rfl, congrArg some same⟩
    exact if_neg other
  by_cases slash : c = '/'
  · subst slash
    have other : ¬(d = '*') := fun same => opens ⟨rfl, congrArg some same⟩
    exact if_neg other
  · simp only [SqlLexis.step, SqlLexis.readBlock, if_neg star, if_neg slash]

/-- The comment, read from inside a block. -/
theorem read_comment {body : CString} (comment : CommentBody body) : ∀ (level : Nat) (s : CString),
    mssqlLexis.read ⟨pieces, .block level⟩ (body ++ s) =
      mssqlLexis.read ⟨pieces, match level with | 0 => .code | level + 1 => .block level⟩ s := by
  induction comment with
  | closed =>
    intro level s
    cases level <;> rfl
  | @nested inner rest comment more ih ih' =>
    intro level s
    rw [List.cons_append, List.cons_append, List.append_assoc]
    exact (ih (level + 1) (rest ++ s)).trans (ih' level s)
  | @char c rest opens closes more ih =>
    intro level s
    have next := ih level s
    cases rest with
    | nil => cases more
    | cons d rest =>
      rw [← next]
      exact read_block_char opens closes

theorem read_open_comment {body : CString} (comment : OpenComment body) : ∀ level : Nat,
    (mssqlLexis.read ⟨pieces, .block level⟩ body).pending.isLine = false := by
  induction comment with
  | ended =>
    intro level
    rfl
  | @inside rest more ih =>
    intro level
    exact ih (level + 1)
  | @nested inner rest comment more ih =>
    intro level
    have skipped := @read_comment pieces inner comment (level + 1) rest
    have opened : mssqlLexis.read ⟨pieces, .block level⟩ ('/' :: '*' :: (inner ++ rest)) =
        mssqlLexis.read ⟨pieces, .block (level + 1)⟩ (inner ++ rest) := rfl
    rw [opened, skipped]
    exact ih level
  | @char c rest opens closes more ih =>
    intro level
    have next := ih level
    cases rest with
    | nil =>
      simp only [SqlLexis.read_cons, SqlLexis.read_nil, SqlLexis.step, SqlLexis.readBlock]
      split_ifs <;> rfl
    | cons d rest =>
      rw [read_block_char opens closes]
      exact next

theorem read_quoted {mark close : Char} (opens : closeOf mark = some close) {body : CString}
    (content : QuotedBody close body) : ∀ text : CString,
    mssqlLexis.read ⟨pieces, .quoted mark text⟩ body =
      ⟨pieces, .quoted mark (text ++ body)⟩ := by
  have same := (mssql_closes opens).2
  induction content with
  | ended =>
    intro text
    rw [SqlLexis.read_nil, List.append_nil]
  | @doubled rest more ih =>
    intro text
    have yes := (same close).mpr rfl
    have twice : mssqlLexis.step (mssqlLexis.step ⟨pieces, .quoted mark text⟩ close) close =
        ⟨pieces, .quoted mark (text ++ [close] ++ [close])⟩ := by
      simp only [SqlLexis.step, yes, if_true]
    rw [SqlLexis.read_cons, SqlLexis.read_cons, twice, ih, List.append_assoc, List.append_assoc]
    rfl
  | @char c rest other more ih =>
    intro text
    have no : ¬(mssqlLexis.closes mark c = true) := fun yes => other ((same c).mp yes)
    have once : mssqlLexis.step ⟨pieces, .quoted mark text⟩ c =
        ⟨pieces, .quoted mark (text ++ [c])⟩ := if_neg no
    rw [SqlLexis.read_cons, once, ih, List.append_assoc]
    rfl

theorem read_mark {mark close : Char} (opens : closeOf mark = some close) :
    mssqlLexis.step SqlLexis.start mark = ⟨[], .quoted mark [mark]⟩ := by
  obtain ⟨⟨m, found⟩, -⟩ := mssql_closes opens
  have closer : mssqlLexis.quoting.closer mark = some m := found
  simp only [SqlLexis.step, SqlLexis.start, SqlLexis.readCode, closer]

/-- How a text ends does not depend on a token before it that it does not prolong. -/
theorem isLine_apart {st : Reading} (code : st.pending.isCode = true) {s : CString}
    (apart : ∀ c, s.head? = some c → mssqlLexis.step st c = mssqlLexis.readCode st.finish c) :
    (mssqlLexis.read st s).pending.isLine = mssqlLexis.endsInLineComment s := by
  cases s with
  | nil =>
    obtain ⟨pieces, pending⟩ := st
    cases pending <;> first | rfl | cases code
  | cons c s =>
    rw [SqlLexis.read_apart (apart c rfl)]
    rfl

/-- `ends_in_line_comment` tells how the text ends. -/
theorem ends_of_lexes {s : CString} {tokens : List SqlToken} {ends : Bool}
    (lexed : Lexes s tokens ends) : mssqlLexis.endsInLineComment s = ends := by
  have quiet : ∀ {c : Char}, closeOf c = none → mssqlLexis.quoting.closer c = none :=
    fun plain => mssql_closer_none plain
  induction lexed with
  | done => rfl
  | @blank c s tokens ends space rest ih =>
    rw [SqlLexis.endsInLineComment, SqlLexis.read_cons, SqlLexis.step_blank space]
    exact ih
  | @lineComment text s tokens ends inside rest ih =>
    have opened : mssqlLexis.read SqlLexis.start ('-' :: '-' :: (text ++ '\n' :: s)) =
        mssqlLexis.read ⟨[], .line⟩ (text ++ '\n' :: s) := rfl
    rw [SqlLexis.endsInLineComment, opened, SqlLexis.read_append, SqlLexis.read_line inside]
    exact ih
  | @lastLine text inside =>
    have opened : mssqlLexis.read SqlLexis.start ('-' :: '-' :: text) =
        mssqlLexis.read ⟨[], .line⟩ text := rfl
    rw [SqlLexis.endsInLineComment, opened, SqlLexis.read_line inside]
    rfl
  | @blockComment body s tokens ends comment rest ih =>
    have opened : mssqlLexis.read SqlLexis.start ('/' :: '*' :: (body ++ s)) =
        mssqlLexis.read ⟨[], .block 0⟩ (body ++ s) := rfl
    rw [SqlLexis.endsInLineComment, opened, read_comment comment]
    exact ih
  | lastBlock comment => exact read_open_comment comment 0
  | @quoted mark close body s tokens ends opens content single rest ih =>
    have yes := ((mssql_closes opens).2 close).mpr rfl
    have stop : mssqlLexis.step ⟨[], .quoted mark ([mark] ++ body)⟩ close =
        ⟨[], .closed mark ([mark] ++ body ++ [close])⟩ := if_pos yes
    rw [SqlLexis.endsInLineComment, SqlLexis.read_cons, read_mark opens, SqlLexis.read_append,
      read_quoted opens content, SqlLexis.read_cons, stop, ← ih]
    refine isLine_apart rfl fun c head => ?_
    have other : ¬(mssqlLexis.closes mark c = true) := fun same =>
      single (head.trans (congrArg some (((mssql_closes opens).2 c).mp same)))
    exact if_neg other
  | @lastQuoted mark close body opens content =>
    rw [SqlLexis.endsInLineComment, SqlLexis.read_cons, read_mark opens, read_quoted opens content]
    rfl
  | @national n s tokens ends mark rest ih =>
    have letter : mssqlLexis.step SqlLexis.start n = ⟨[], .word [n]⟩ := by
      rcases mark with rfl | rfl <;> rfl
    rw [SqlLexis.endsInLineComment, SqlLexis.read_cons, letter, ← ih]
    refine isLine_apart rfl fun c head => ?_
    obtain rfl := Option.some.inj head
    rfl
  | @word w s tokens ends filled chars whole other rest ih =>
    cases w with
    | nil => exact absurd rfl filled
    | cons c w =>
      obtain ⟨first, later⟩ := List.forall_mem_cons.mp chars
      obtain ⟨space, dash, slash, mark, -, -⟩ := wordChar_plain first
      have closer : mssqlLexis.quoting.closer c = none :=
        quiet (by simp only [closeOf, ← or_assoc] at mark ⊢; grind)
      have letter : mssqlLexis.step SqlLexis.start c = ⟨[], .word [c]⟩ := by
        have wordChar : mssqlLexis.wordChar c = true := first
        simp only [SqlLexis.step, SqlLexis.start, SqlLexis.readCode, closer]
        rw [if_neg dash, if_neg slash, if_neg (Bool.eq_false_iff.mp space), if_pos wordChar]
      rw [SqlLexis.endsInLineComment, List.cons_append, SqlLexis.read_cons, letter,
        SqlLexis.read_append, SqlLexis.read_word later, ← ih]
      refine isLine_apart rfl fun d head => ?_
      have stop : ¬(mssqlLexis.wordChar d = true) := Bool.eq_false_iff.mp (whole d head)
      have plain : ¬(d = '\'' ∧ mssqlLexis.alternative ([c] ++ w) = true) :=
        fun both => Bool.noConfusion both.2
      simp only [SqlLexis.step, Reading.finish]
      rw [if_neg stop, if_neg plain]
  | opening rest ih =>
    rw [SqlLexis.endsInLineComment, SqlLexis.read_cons, ← ih]
    exact isLine_apart rfl fun c _ => rfl
  | closing rest ih =>
    rw [SqlLexis.endsInLineComment, SqlLexis.read_cons, ← ih]
    exact isLine_apart rfl fun c _ => rfl
  | @punct c s tokens ends plain line block rest ih =>
    obtain ⟨space, opens, -, -, letter⟩ := plain
    rw [SqlLexis.endsInLineComment, SqlLexis.read_cons, ← ih]
    by_cases dash : c = '-'
    · subst dash
      refine isLine_apart rfl fun d head => ?_
      have other : ¬(d = '-') := fun same => line ⟨rfl, same ▸ head⟩
      exact if_neg other
    by_cases slash : c = '/'
    · subst slash
      refine isLine_apart rfl fun d head => ?_
      have other : ¬(d = '*') := fun same => block ⟨rfl, same ▸ head⟩
      exact if_neg other
    have alone : mssqlLexis.step SqlLexis.start c = ⟨[.punct c], .code⟩ := by
      have wordChar : mssqlLexis.wordChar c = false := letter
      simp only [SqlLexis.step, SqlLexis.start, SqlLexis.readCode, quiet opens]
      rw [if_neg dash, if_neg slash, if_neg (Bool.eq_false_iff.mp space),
        if_neg (Bool.eq_false_iff.mp wordChar)]
      rfl
    rw [alone]
    exact isLine_apart rfl fun d _ => rfl

theorem shape_ends (sql : CString) :
    (mssqlSqlShape sql).endsInLineComment = mssqlLexis.endsInLineComment sql := by
  obtain ⟨tokens, ends, lexed⟩ := exists_lexes sql.length (Nat.le_refl _)
  rw [ends_of_lexes lexed, mssqlSqlShape, shapeScan_of_lexes lexed _ (Nat.lt_succ_self _)]

end Shape

section Parts

theorem oracle_separates : oracleLexis.Separates ')' where
  word := rfl
  quote := by decide
  dash := by decide
  star := by decide
  mark := by
    intro opener close found same
    change (if opener = '\'' then some singleQuote else if opener = '"' then some doubleQuote
      else none) = some close at found
    split_ifs at found <;> cases found <;> cases same

theorem mssql_separates : mssqlLexis.Separates ')' where
  word := rfl
  quote := by decide
  dash := by decide
  star := by decide
  mark := by
    intro opener close found same
    change (if opener = '[' then some closeBracket else if opener = '\'' then some singleQuote
      else if opener = '"' then some doubleQuote else none) = some close at found
    split_ifs at found <;> cases found <;> cases same

/-- A line comment at the end of the query takes the closing text, which is all on its line. -/
theorem swallowed {before sql after : CString}
    (opening : (oracleLexis.read SqlLexis.start before).pending = .code)
    (oneLine : '\n' ∉ ')' :: after) (line : oracleLexis.endsInLineComment sql = true) :
    oracleLexis.tokens (before ++ sql ++ ')' :: after) ≠
      oracleLexis.tokens before ++ oracleLexis.tokens sql ++
        oracleLexis.tokens (')' :: after) := by
  have whole : oracleLexis.read SqlLexis.start (before ++ sql ++ ')' :: after) =
      (oracleLexis.read SqlLexis.start sql).behind (oracleLexis.tokens before) := by
    rw [List.append_assoc, SqlLexis.read_front opening, SqlLexis.read_append]
    rw [SqlLexis.endsInLineComment] at line
    generalize oracleLexis.read SqlLexis.start sql = st at line
    obtain ⟨pieces, pending⟩ := st
    cases pending with
    | line => rw [SqlLexis.read_line oneLine]
    | _ => cases line
  have closing : oracleLexis.tokens (')' :: after) = .punct ')' :: oracleLexis.tokens after := by
    have first : oracleLexis.step SqlLexis.start ')' = SqlLexis.start.behind [.punct ')'] := rfl
    rw [SqlLexis.tokens, SqlLexis.read_cons, first, SqlLexis.read_behind,
      SqlLexis.finish_behind]
    rfl
  have shorter : oracleLexis.tokens (before ++ sql ++ ')' :: after) =
      oracleLexis.tokens before ++ oracleLexis.tokens sql := by
    rw [SqlLexis.tokens, whole, SqlLexis.finish_behind]
    rfl
  intro same
  rw [shorter, closing] at same
  have lengths := congrArg List.length same
  simp only [List.length_append, List.length_cons] at lengths
  omega

/-- A number is one word. -/
theorem read_decimal (vendor : Vendor) {maxRows : Int} (limit : 0 ≤ maxRows) :
    (lexis vendor).read SqlLexis.start (decimal maxRows) = ⟨[], .word (decimal maxRows)⟩ := by
  have digits : ∀ c ∈ decimal maxRows, c.isDigit = true := by
    rw [decimal, if_neg (Int.not_lt.mpr limit)]
    exact fun c member => Nat.isDigit_of_mem_toDigits (by omega) (by omega) member
  have words : ∀ c ∈ decimal maxRows, (lexis vendor).wordChar c = true := by
    intro c member
    have inside : c.isAlphanum = true := by
      rw [Char.isAlphanum, digits c member, Bool.or_true]
    cases vendor <;> simp only [lexis, oracleLexis, mssqlLexis, oracleWordChar, msWordChar, inside,
      Bool.true_or]
  have filled : decimal maxRows ≠ [] := by
    rw [decimal, if_neg (Int.not_lt.mpr limit)]
    exact Nat.toDigits_ne_nil
  generalize decimal maxRows = w at digits words filled
  cases w with
  | nil => exact absurd rfl filled
  | cons c w =>
    have digit := (isDigit_iff c).mp (digits c List.mem_cons_self)
    have others : ¬(c = '\'') ∧ ¬(c = '"') ∧ ¬(c = '[') ∧ ¬(c = '-') ∧ ¬(c = '/') := by
      refine ⟨?_, ?_, ?_, ?_, ?_⟩
      all_goals
        rintro rfl
        exact absurd digit (by decide)
    have space : ¬(isSpace c = true) := Bool.eq_false_iff.mp
      (not_space_of_isDigit (digits c List.mem_cons_self))
    have closer : (lexis vendor).quoting.closer c = none := by
      cases vendor
      · simp only [lexis, oracleLexis, oracleQuoting, if_neg others.1, if_neg others.2.1]
      · simp only [lexis, mssqlLexis, mssqlQuoting, oracleQuoting, if_neg others.1,
          if_neg others.2.1, if_neg others.2.2.1]
    have letter : (lexis vendor).step SqlLexis.start c = ⟨[], .word [c]⟩ := by
      simp only [SqlLexis.step, SqlLexis.start, SqlLexis.readCode, closer]
      rw [if_neg others.2.2.2.1, if_neg others.2.2.2.2, if_neg space,
        if_pos (words c List.mem_cons_self)]
    rw [SqlLexis.read_cons, letter, SqlLexis.read_word fun d member =>
      words d (List.mem_cons_of_mem c member)]
    rfl

/-- A number among other texts. -/
theorem read_number (vendor : Vendor) {before after : CString} {maxRows : Int} {c : Char}
    (limit : 0 ≤ maxRows)
    (whole : ((lexis vendor).read SqlLexis.start before).pending = .code)
    (separates : (lexis vendor).Separates c) :
    ((lexis vendor).read SqlLexis.start (before ++ decimal maxRows ++ c :: after)).pending =
      ((lexis vendor).read SqlLexis.start (c :: after)).pending := by
  have number := read_decimal vendor limit
  rw [SqlLexis.tokens_between whole]
  · rfl
  · rw [SqlLexis.closed, number]
    rfl
  · rw [SqlLexis.endsInLineComment, number]
    exact Or.inl ⟨rfl, separates⟩

/-- The end of a text's last line, where that is a comment. -/
def lineEnd (sql : CString) (otherwise : String) : CString :=
  if (mssqlSqlShape sql).endsInLineComment then "\n".toList else otherwise.toList

/-- The query has an order of its own for `OFFSET` to stand behind. -/
def isOrdered (sql : CString) : Bool :=
  (mssqlSqlShape sql).orderBy && !(mssqlSqlShape sql).offset && !(mssqlSqlShape sql).startsTop

theorem mssql_count_texts (sql : CString) : wrapperTexts .mssql .count sql =
    ("SELECT COUNT(*) FROM (SELECT 1 AS dm_c FROM (".toList,
      if isOrdered sql then lineEnd sql " " ++ "OFFSET 0 ROWS) AS dm_a) AS dm_b".toList
      else lineEnd sql "" ++ ") AS dm_a) AS dm_b".toList) := by
  have joined : "\nOFFSET 0 ROWS".toList ++ ") AS dm_a) AS dm_b".toList =
        "\n".toList ++ "OFFSET 0 ROWS) AS dm_a) AS dm_b".toList ∧
      " OFFSET 0 ROWS".toList ++ ") AS dm_a) AS dm_b".toList =
        " ".toList ++ "OFFSET 0 ROWS) AS dm_a) AS dm_b".toList := by decide +kernel
  unfold wrapperTexts isOrdered lineEnd
  generalize mssqlSqlShape sql = shape
  dsimp only
  congr 1
  by_cases ordered : (shape.orderBy && !shape.offset && !shape.startsTop) = true
  · rw [if_pos ordered, if_pos ordered]
    by_cases ends : shape.endsInLineComment = true
    · rw [if_pos ends, if_pos ends]
      exact joined.1
    · rw [if_neg ends, if_neg ends]
      exact joined.2
  · rw [if_neg ordered, if_neg ordered]

theorem mssql_limit_texts (maxRows : Int) (sql : CString) :
    wrapperTexts .mssql (.limit maxRows) sql =
      if isOrdered sql then
        ([], lineEnd sql " " ++
          ("OFFSET 0 ROWS FETCH NEXT ".toList ++ decimal maxRows ++ " ROWS ONLY".toList))
      else
        ("SELECT TOP (".toList ++ decimal maxRows ++ ") * FROM (".toList,
          lineEnd sql "" ++ ") AS dm_t".toList) := by
  unfold wrapperTexts isOrdered lineEnd
  generalize mssqlSqlShape sql = shape
  dsimp only
  simp only [List.append_assoc]

theorem opening_code {vendor : Vendor} {wrapper : RowWrapper}
    (limit : ∀ maxRows, wrapper = .limit maxRows → 0 ≤ maxRows) (sql : CString) :
    ((lexis vendor).read SqlLexis.start (wrapperTexts vendor wrapper sql).1).pending = .code := by
  have texts : (oracleLexis.read SqlLexis.start
        "SELECT COUNT(*) FROM (SELECT 1 FROM (".toList).pending = .code ∧
      (oracleLexis.read SqlLexis.start "SELECT * FROM (".toList).pending = .code ∧
      (mssqlLexis.read SqlLexis.start
        "SELECT COUNT(*) FROM (SELECT 1 AS dm_c FROM (".toList).pending = .code ∧
      (mssqlLexis.read SqlLexis.start "SELECT TOP (".toList).pending = .code ∧
      (mssqlLexis.read SqlLexis.start ") * FROM (".toList).pending = .code := by decide +kernel
  obtain ⟨oracleCount, oracleLimit, count, before, after⟩ := texts
  cases vendor with
  | oracle =>
    cases wrapper with
    | count => exact oracleCount
    | limit maxRows => exact oracleLimit
  | mssql =>
    cases wrapper with
    | count =>
      rw [mssql_count_texts]
      exact count
    | limit maxRows =>
      rw [mssql_limit_texts]
      split
      · rfl
      · have number := @read_number .mssql "SELECT TOP (".toList " * FROM (".toList maxRows ')'
          (limit maxRows rfl) before mssql_separates
        exact number.trans after

/-- The texts that a wrapper may put behind the query. -/
theorem oracle_closing {wrapper : RowWrapper}
    (limit : ∀ maxRows, wrapper = .limit maxRows → 0 ≤ maxRows) (sql : CString) :
    ∃ after, (wrapperTexts .oracle wrapper sql).2 = ')' :: after ∧ '\n' ∉ ')' :: after ∧
      (oracleLexis.read SqlLexis.start (')' :: after)).pending.isCode = true := by
  cases wrapper with
  | count => exact ⟨")".toList, rfl, by decide +kernel, by decide +kernel⟩
  | limit maxRows =>
    have positive := limit maxRows rfl
    have before : (oracleLexis.read SqlLexis.start ") WHERE ROWNUM <= ".toList).pending =
        .code := by decide +kernel
    have number := read_decimal .oracle positive
    refine ⟨" WHERE ROWNUM <= ".toList ++ decimal maxRows, rfl, ?_, ?_⟩
    · have line : '\n' ∉ ") WHERE ROWNUM <= ".toList := by decide +kernel
      intro member
      rcases List.mem_append.mp (by exact member :
        '\n' ∈ ") WHERE ROWNUM <= ".toList ++ decimal maxRows) with member | member
      · exact line member
      · rw [decimal, if_neg (Int.not_lt.mpr positive)] at member
        have digit := @Nat.isDigit_of_mem_toDigits _ _ _ (by omega) (by omega) member
        cases digit
    · have read := SqlLexis.read_front before (decimal maxRows)
      change (oracleLexis.read SqlLexis.start
        (") WHERE ROWNUM <= ".toList ++ decimal maxRows)).pending.isCode = true
      rw [read]
      exact congrArg (fun st : Reading => st.pending.isCode) number

theorem lineEnd_cases (sql : CString) (otherwise : String) :
    mssqlLexis.endsInLineComment sql = true ∧ lineEnd sql otherwise = ['\n'] ∨
      mssqlLexis.endsInLineComment sql = false ∧ lineEnd sql otherwise = otherwise.toList := by
  rw [lineEnd, shape_ends]
  cases mssqlLexis.endsInLineComment sql
  · exact Or.inr ⟨rfl, if_neg Bool.false_ne_true⟩
  · exact Or.inl ⟨rfl, rfl⟩

/-- What stands behind a query, so that it is read apart from it. -/
def Apart (sql closing : CString) : Prop :=
  ∃ c after, closing = c :: after ∧ mssqlLexis.Separates c ∧
    (mssqlLexis.endsInLineComment sql = true → c = '\n') ∧
    (mssqlLexis.read SqlLexis.start (c :: after)).pending.isCode = true

theorem apart_blank {sql after : CString}
    (code : (mssqlLexis.read SqlLexis.start after).pending.isCode = true) :
    Apart sql (lineEnd sql " " ++ after) := by
  have read : ∀ c, isSpace c = true →
      (mssqlLexis.read SqlLexis.start (c :: after)).pending.isCode = true := by
    intro c blank
    rw [SqlLexis.read_cons, SqlLexis.step_blank blank]
    exact code
  rcases lineEnd_cases sql " " with ⟨ends, text⟩ | ⟨ends, text⟩
  · rw [text]
    exact ⟨'\n', after, rfl, SqlLexis.separates_blank rfl rfl, fun _ => rfl, read '\n' rfl⟩
  · rw [text]
    refine ⟨' ', after, rfl, SqlLexis.separates_blank rfl rfl, fun same => ?_, read ' ' rfl⟩
    rw [ends] at same
    cases same

theorem apart_closing {sql after : CString}
    (code : (mssqlLexis.read SqlLexis.start (')' :: after)).pending.isCode = true) :
    Apart sql (lineEnd sql "" ++ ')' :: after) := by
  rcases lineEnd_cases sql "" with ⟨ends, text⟩ | ⟨ends, text⟩
  · rw [text]
    refine ⟨'\n', ')' :: after, rfl, SqlLexis.separates_blank rfl rfl, fun _ => rfl, ?_⟩
    rw [SqlLexis.read_cons, SqlLexis.step_blank rfl]
    exact code
  · rw [text]
    refine ⟨')', after, rfl, mssql_separates, fun same => ?_, code⟩
    rw [ends] at same
    cases same

theorem mssql_closing {wrapper : RowWrapper}
    (limit : ∀ maxRows, wrapper = .limit maxRows → 0 ≤ maxRows) (sql : CString) :
    Apart sql (wrapperTexts .mssql wrapper sql).2 := by
  have texts : (mssqlLexis.read SqlLexis.start
        "OFFSET 0 ROWS) AS dm_a) AS dm_b".toList).pending.isCode = true ∧
      (mssqlLexis.read SqlLexis.start (')' :: " AS dm_a) AS dm_b".toList)).pending.isCode = true ∧
      (mssqlLexis.read SqlLexis.start (')' :: " AS dm_t".toList)).pending.isCode = true ∧
      (mssqlLexis.read SqlLexis.start "OFFSET 0 ROWS FETCH NEXT ".toList).pending = .code ∧
      (mssqlLexis.read SqlLexis.start (' ' :: "ROWS ONLY".toList)).pending.isCode = true := by
    decide +kernel
  have heads : ") AS dm_a) AS dm_b".toList = ')' :: " AS dm_a) AS dm_b".toList ∧
      ") AS dm_t".toList = ')' :: " AS dm_t".toList ∧
      " ROWS ONLY".toList = ' ' :: "ROWS ONLY".toList := by decide +kernel
  obtain ⟨offset, count, top, fetch, only⟩ := texts
  cases wrapper with
  | count =>
    rw [mssql_count_texts, heads.1]
    dsimp only
    split
    · exact apart_blank offset
    · exact apart_closing count
  | limit maxRows =>
    rw [mssql_limit_texts, heads.2.1, heads.2.2]
    split
    · refine apart_blank ?_
      have separates : (lexis .mssql).Separates ' ' := SqlLexis.separates_blank rfl rfl
      have number := @read_number .mssql _ "ROWS ONLY".toList _ _ (limit maxRows rfl) fetch
        separates
      exact (congrArg Pending.isCode number).trans only
    · exact apart_closing top

end Parts

/-- What a wrapper gives. -/
theorem wrapRows_text (vendor : Vendor) {wrapper : RowWrapper}
    (limit : ∀ maxRows, wrapper = .limit maxRows → 0 ≤ maxRows) (sql : CString) (outMax : Nat) :
    wrapRows vendor wrapper sql outMax =
      fmt outMax ((wrapperTexts vendor wrapper sql).1 ++ sql ++
        (wrapperTexts vendor wrapper sql).2) := by
  have guard : ∀ maxRows, wrapper = .limit maxRows → ¬(maxRows < 0) :=
    fun maxRows same => Int.not_lt.mpr (limit maxRows same)
  cases vendor with
  | oracle =>
    cases wrapper with
    | count => rfl
    | limit maxRows =>
      rw [wrapRows, oracleRowLimitSql, if_neg (guard maxRows rfl), List.append_assoc]
      rfl
  | mssql =>
    cases wrapper with
    | count =>
      unfold wrapRows msCountRowsSql wrapperTexts
      generalize mssqlSqlShape sql = shape
      simp only [List.append_assoc]
    | limit maxRows =>
      unfold wrapRows msRowLimitSql wrapperTexts
      generalize mssqlSqlShape sql = shape
      dsimp only
      rw [if_neg (guard maxRows rfl)]
      split
      · simp only [List.append_assoc, List.nil_append]
      · simp only [List.append_assoc]

theorem wrapRows_some_iff {vendor : Vendor} {wrapper : RowWrapper} {sql out : CString}
    {outMax : Nat} : wrapRows vendor wrapper sql outMax = some out ↔
      Fits vendor wrapper sql outMax ∧
        out = (wrapperTexts vendor wrapper sql).1 ++ sql ++
          (wrapperTexts vendor wrapper sql).2 := by
  rw [Fits]
  by_cases limit : ∀ maxRows, wrapper = .limit maxRows → 0 ≤ maxRows
  · rw [wrapRows_text vendor limit, fmt, and_iff_left limit, List.length_append,
      List.length_append]
    constructor
    · intro built
      split at built
      next room => exact ⟨room, (Option.some.inj built).symm⟩
      next => cases built
    · rintro ⟨room, rfl⟩
      exact if_pos room
  · refine iff_of_false ?_ fun both => limit both.1.2
    push Not at limit
    obtain ⟨maxRows, rfl, negative⟩ := limit
    cases vendor
    · rw [wrapRows, oracleRowLimitSql, if_pos negative]
      intro built
      cases built
    · rw [wrapRows, msRowLimitSql, if_pos negative]
      intro built
      cases built

example : wrapRows .oracle .count "SELECT 1 FROM dual".toList 64 =
    some "SELECT COUNT(*) FROM (SELECT 1 FROM (SELECT 1 FROM dual))".toList := by decide +kernel

/-- A query whose literals, quoted names and block comments are closed keeps its tokens among the
wrapper's own exactly when the text fits and, for Oracle, the query does not end in a line
comment. -/
theorem wrapped_query_tokens_iff (vendor : Vendor) (wrapper : RowWrapper) (sql : CString)
    (outMax : Nat) (closed : (lexis vendor).closed sql = true) :
    KeepsTokens vendor wrapper sql outMax ↔
      Fits vendor wrapper sql outMax ∧
        (vendor = .oracle → oracleLexis.endsInLineComment sql = false) := by
  have built : KeepsTokens vendor wrapper sql outMax ↔ Fits vendor wrapper sql outMax ∧
      (lexis vendor).closed ((wrapperTexts vendor wrapper sql).1 ++ sql ++
        (wrapperTexts vendor wrapper sql).2) = true ∧
      (lexis vendor).tokens ((wrapperTexts vendor wrapper sql).1 ++ sql ++
        (wrapperTexts vendor wrapper sql).2) =
      (lexis vendor).tokens (wrapperTexts vendor wrapper sql).1 ++
        (lexis vendor).tokens sql ++ (lexis vendor).tokens (wrapperTexts vendor wrapper sql).2 := by
    rw [KeepsTokens]
    constructor
    · rintro ⟨out, made, kept⟩
      obtain ⟨fits, rfl⟩ := wrapRows_some_iff.mp made
      exact ⟨fits, kept⟩
    · rintro ⟨fits, kept⟩
      exact ⟨_, wrapRows_some_iff.mpr ⟨fits, rfl⟩, kept⟩
  rw [built]
  refine and_congr_right fun fits => ?_
  have opening := @opening_code vendor wrapper fits.2 sql
  cases vendor with
  | mssql =>
    refine iff_of_true ?_ nofun
    obtain ⟨c, after, text, separates, newLine, code⟩ := mssql_closing fits.2 sql
    have apart : mssqlLexis.endsInLineComment sql = false ∧ mssqlLexis.Separates c ∨
        c = '\n' ∧ mssqlLexis.Separates '\n' := by
      cases ends : mssqlLexis.endsInLineComment sql with
      | false => exact Or.inl ⟨rfl, separates⟩
      | true => exact Or.inr ⟨newLine ends, newLine ends ▸ separates⟩
    have read := @SqlLexis.tokens_between mssqlLexis _ _ after c opening closed apart
    rw [text]
    exact SqlLexis.kept_between read code
  | oracle =>
    obtain ⟨after, text, oneLine, code⟩ := oracle_closing fits.2 sql
    rw [text]
    constructor
    · rintro ⟨-, kept⟩ -
      by_contra line
      exact swallowed opening oneLine (Bool.eq_true_of_not_eq_false line) kept
    · intro ends
      have read := @SqlLexis.tokens_between oracleLexis _ _ after ')' opening closed
        (Or.inl ⟨ends rfl, oracle_separates⟩)
      exact SqlLexis.kept_between read code

theorem wrapped_query_tokens_iff_commented :
    KeepsTokens .mssql .count "SELECT 1 x -- all".toList 4096 ↔
      Fits .mssql .count "SELECT 1 x -- all".toList 4096 ∧
        (Vendor.mssql = .oracle →
          oracleLexis.endsInLineComment "SELECT 1 x -- all".toList = false) :=
  wrapped_query_tokens_iff .mssql .count _ 4096 (by decide +kernel)

/-- The closing text of the count is part of the comment. -/
theorem oracle_count_commented :
    oracleLexis.closed "SELECT 1 FROM dual -- all".toList = true ∧
      Fits .oracle .count "SELECT 1 FROM dual -- all".toList 4096 ∧
      ¬KeepsTokens .oracle .count "SELECT 1 FROM dual -- all".toList 4096 := by
  have closed : oracleLexis.closed "SELECT 1 FROM dual -- all".toList = true := by decide +kernel
  have line : oracleLexis.endsInLineComment "SELECT 1 FROM dual -- all".toList = true := by
    decide +kernel
  refine ⟨closed, ⟨by decide +kernel, nofun⟩, ?_⟩
  rintro ⟨out, built, -, kept⟩
  obtain ⟨-, rfl⟩ := wrapRows_some_iff.mp built
  have opening := @opening_code .oracle .count nofun "SELECT 1 FROM dual -- all".toList
  obtain ⟨after, text, oneLine, -⟩ := @oracle_closing .count nofun
    "SELECT 1 FROM dual -- all".toList
  rw [text] at kept
  exact swallowed opening oneLine line kept

end OciWrapper.Execute
