import OciWrapper.Core.KeywordSearch

namespace OciWrapper.Core

open OciWrapper.Text

/-- Neither a blank nor the punctuation of a FROM list. -/
def isNameChar (c : Char) : Bool := !(" ,().".toList.contains c)

/-- `OWNER.NAME AS CALLED`, where the owner and the new name may be missing. -/
structure TableRef where
  owner : CString
  name : CString
  called : CString
  withAs : Bool
  named : name ≠ []
  plain : (owner ++ name ++ called).all isNameChar = true

namespace TableRef

def qualified (t : TableRef) : CString :=
  if t.owner = [] then t.name else t.owner ++ '.' :: t.name

def aliasText (t : TableRef) : CString :=
  if t.called = [] then [] else ' ' :: ((if t.withAs then "AS ".toList else []) ++ t.called)

def text (t : TableRef) : CString := t.qualified ++ t.aliasText

/-- The two references name the same table. -/
def Same (s t : TableRef) : Prop := s.owner = t.owner ∧ s.name = t.name

end TableRef

/-- A piece of SQL text, or a table that a subquery in the text reads. -/
inductive Piece
  | text (s : CString)
  | table (t : TableRef)

def Piece.spell : Piece → CString
  | .text s => s
  | .table t => t.text

def spell (pieces : List Piece) : CString := pieces.flatMap Piece.spell

def Piece.table? : Piece → Option TableRef
  | .text _ => none
  | .table t => some t

def tablesIn (pieces : List Piece) : List TableRef := pieces.filterMap Piece.table?

/-- An item of a FROM list; `called` is the text behind a subquery. -/
inductive Source
  | table (t : TableRef)
  | subquery (inside : List Piece) (called : CString)

namespace Source

def text : Source → CString
  | .table t => t.text
  | .subquery inside called => '(' :: (spell inside ++ ')' :: called)

def tables : Source → List TableRef
  | .table t => [t]
  | .subquery inside _ => tablesIn inside

def table? : Source → Option TableRef
  | .table t => some t
  | .subquery _ _ => none

end Source

/-- A comma with the blanks around it. -/
structure Comma where
  before : Bool
  after : Bool

def Comma.text (c : Comma) : CString :=
  (if c.before then [' '] else []) ++ ',' :: if c.after then [' '] else []

def listText (sources : List (Comma × Source)) : CString :=
  sources.flatMap fun (comma, source) => comma.text ++ source.text

inductive JoinKeyword
  | innerJoin | leftOuterJoin | rightOuterJoin | fullOuterJoin | crossJoin | leftJoin | rightJoin
  | fullJoin | join

def JoinKeyword.text : JoinKeyword → String
  | .innerJoin => "INNER JOIN"
  | .leftOuterJoin => "LEFT OUTER JOIN"
  | .rightOuterJoin => "RIGHT OUTER JOIN"
  | .fullOuterJoin => "FULL OUTER JOIN"
  | .crossJoin => "CROSS JOIN"
  | .leftJoin => "LEFT JOIN"
  | .rightJoin => "RIGHT JOIN"
  | .fullJoin => "FULL JOIN"
  | .join => "JOIN"

inductive ConditionKeyword
  | on | using

def ConditionKeyword.text : ConditionKeyword → String
  | .on => "ON"
  | .using => "USING"

/-- A join, with the sources that commas set behind it. -/
structure Join where
  keyword : JoinKeyword
  source : Source
  condition : Option (ConditionKeyword × List Piece)
  following : List (Comma × Source)

namespace Join

/-- The condition and the sources behind it. -/
def rest (j : Join) : CString :=
  match j.condition with
  | none => listText j.following
  | some (keyword, pieces) => ' ' :: (keyword.text.toList ++ (spell pieces ++ listText j.following))

def text (j : Join) : CString :=
  ' ' :: (j.keyword.text.toList ++ ' ' :: (j.source.text ++ j.rest))

def tables (j : Join) : List TableRef :=
  j.source.tables ++ (j.condition.toList.flatMap fun (_, pieces) => tablesIn pieces) ++
    j.following.flatMap fun (_, source) => source.tables

end Join

def joinsText (joins : List Join) : CString := joins.flatMap Join.text

inductive TailKeyword
  | where | groupBy | orderBy | having

def TailKeyword.text : TailKeyword → String
  | .where => "WHERE"
  | .groupBy => "GROUP BY"
  | .orderBy => "ORDER BY"
  | .having => "HAVING"

/-- A SELECT in the spelling of `normalise_sql`, with the tables of its subqueries marked. -/
structure Query where
  fields : List Piece
  first : Source
  others : List (Comma × Source)
  joins : List Join
  tail : Option (TailKeyword × List Piece)

namespace Query

/-- The FROM list up to the first join. -/
def baseText (q : Query) : CString := q.first.text ++ listText q.others

def fromText (q : Query) : CString := q.baseText ++ joinsText q.joins

def selectText (q : Query) : CString := "SELECT ".toList ++ spell q.fields

/-- The text up to the end of the FROM list. -/
def front (q : Query) : CString := q.selectText ++ "FROM ".toList ++ q.fromText

def tailText (q : Query) : CString :=
  match q.tail with
  | none => []
  | some (keyword, pieces) => ' ' :: (keyword.text.toList ++ spell pieces)

def text (q : Query) : CString := q.front ++ q.tailText

/-- Every table that the query reads. -/
def tables (q : Query) : List TableRef :=
  tablesIn q.fields ++ q.first.tables ++ (q.others.flatMap fun (_, source) => source.tables) ++
    q.joins.flatMap Join.tables ++ q.tail.toList.flatMap fun (_, pieces) => tablesIn pieces

/-- The sources before the first join. -/
def base (q : Query) : List Source := q.first :: q.others.map Prod.snd

end Query

end OciWrapper.Core
