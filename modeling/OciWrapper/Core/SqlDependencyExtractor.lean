import OciWrapper.Text.Chars

namespace OciWrapper.Core

open OciWrapper.Text

def normSqlMax : Nat := 8192
def sqlDepMaxObjects : Nat := 64
def sqlDepMaxFields : Nat := 256

inductive ExpansionType
  | normal
  | wildcardAll
  | wildcardTbl
  | unqualified
  deriving DecidableEq

structure ObjectRef where
  owner : CString
  objectName : CString
  aliasName : CString
  deriving DecidableEq

structure FieldRef where
  tableRef : CString
  fieldName : CString
  fieldAlias : CString
  fieldPos : Nat
  expansionType : ExpansionType
  deriving DecidableEq

structure DependencyList where
  objects : List ObjectRef
  fields : List FieldRef
  needsExpansion : Bool
  deriving DecidableEq

def isBlank (c : Char) : Bool := c == ' '

def stripTrailing (p : Char → Bool) (s : CString) : CString := (s.reverse.dropWhile p).reverse

def stripSemicolon (s : CString) : CString :=
  if s.getLast? = some ';' then s.dropLast else s

/-- The loop of `normalise_sql`: `wi` bytes are written so far. -/
def normaliseLoop (outMax : Nat) (wi : Nat) (inSpace : Bool) : CString → CString
  | [] => []
  | c :: s =>
    if wi < outMax - 1 then
      if isSpace c then
        if !inSpace then ' ' :: normaliseLoop outMax (wi + 1) true s
        else normaliseLoop outMax wi inSpace s
      else c.toUpper :: normaliseLoop outMax (wi + 1) false s
    else []

def normaliseSql (sql : CString) (outMax : Nat) : Option CString :=
  if outMax < 2 then none
  else some (stripTrailing isBlank (stripSemicolon (stripTrailing isBlank
    (normaliseLoop outMax 0 true sql))))

def trimToken (s : CString) : CString := stripTrailing isBlank (s.dropWhile isBlank)

def isWordChar (c : Char) : Bool := c.isAlphanum || c == '_'

/-- `find_keyword` reports the text before the keyword and the text from it on;
    `before` is the character in front of the text searched. -/
def findKeywordFrom (kw : CString) (before : Option Char) : CString → Option (CString × CString)
  | [] => none
  | c :: s =>
    if kw.isPrefixOf (c :: s) && !before.any isWordChar &&
        !((c :: s).drop kw.length).head?.any isWordChar then
      some ([], c :: s)
    else (findKeywordFrom kw (some c) s).map fun (skipped, rest) => (c :: skipped, rest)

def findKeyword (src : CString) (kw : String) : Option (CString × CString) :=
  findKeywordFrom kw.toList none src

/-- The keyword found first in the text. -/
def earliestKeyword (src : CString) : List String → Option (CString × CString)
  | [] => none
  | kw :: kws =>
    match findKeyword src kw, earliestKeyword src kws with
    | none, other => other
    | some found, none => some found
    | some found, some other => if other.1.length < found.1.length then some other else some found

/-- The text before the first `c` and the text after it. -/
def splitAtChar (c : Char) (s : CString) : Option (CString × CString) :=
  match s.dropWhile (· != c) with
  | [] => none
  | _ :: rest => some (s.takeWhile (· != c), rest)

def splitOnComma : Nat → CString → List CString
  | 0, _ => []
  | maxTokens + 1, buf =>
    match buf.dropWhile isBlank with
    | [] => []
    | c :: p =>
      match splitAtChar ',' (c :: p) with
      | none => [trimToken (c :: p)]
      | some (token, rest) => trimToken token :: splitOnComma maxTokens rest

def hasParenthesis (token : CString) : Bool := token.contains '(' || token.contains ')'

/-- `NAME AS ALIAS`, `NAME ALIAS` or `NAME`. -/
def splitAlias (work : CString) : CString × CString :=
  match findKeyword work "AS" with
  | some (name, rest) => (trimToken name, (rest.drop 2).dropWhile isBlank)
  | none =>
    match splitAtChar ' ' work with
    | some (name, rest) => (trimToken name, rest.dropWhile isBlank)
    | none => (work, [])

/-- `OWNER.TABLE_NAME` or `TABLE_NAME`. -/
def splitOwner (work : CString) : Option (CString × CString) :=
  match splitAtChar '.' work with
  | some (owner, name) =>
    if owner.length = 0 ∨ 64 ≤ owner.length then none else some (owner, name.take 127)
  | none => some ([], work.take 127)

def parseTableToken (token : CString) : Option ObjectRef :=
  if token = [] ∨ hasParenthesis token then none
  else
    let (work, aliasStart) := splitAlias (token.take 511)
    match splitOwner work with
    | none => none
    | some (owner, name) =>
      if trimToken name = [] then none
      else some { owner := owner, objectName := trimToken name, aliasName := aliasStart.take 63 }

def joinKws : List String :=
  ["INNER JOIN", "LEFT OUTER JOIN", "RIGHT OUTER JOIN", "FULL OUTER JOIN", "CROSS JOIN",
    "LEFT JOIN", "RIGHT JOIN", "FULL JOIN", "JOIN"]

def joinStopKws : List String :=
  joinKws ++ ["ON", "USING", "WHERE", "GROUP", "ORDER", "HAVING"]

/-- `objects[*obj_count]` is written only while there is room and the token parses. -/
def addTable (maxObjects : Nat) (objects : List ObjectRef) (token : CString) : List ObjectRef :=
  if token ≠ [] ∧ objects.length < maxObjects then
    match parseTableToken token with
    | some object => objects ++ [object]
    | none => objects
  else objects

def addTables (maxObjects : Nat) (objects : List ObjectRef) (segment : CString) : List ObjectRef :=
  (splitOnComma sqlDepMaxObjects segment).foldl (addTable maxObjects) objects

def matchJoinKw (cursor : CString) : Option String :=
  joinKws.find? fun kw =>
    kw.toList.isPrefixOf cursor && ((cursor.drop kw.length).head?.all isBlank)

/-- The table token behind a JOIN keyword and where the scan goes on. -/
def joinTable (cursor : CString) : CString × Option CString :=
  match earliestKeyword cursor joinStopKws with
  | some (skipped, stop) =>
    let tableTok := if 0 < skipped.length ∧ skipped.length < 512 then trimToken skipped else []
    if "ON".toList.isPrefixOf stop || "USING".toList.isPrefixOf stop then
      (tableTok, (earliestKeyword stop joinKws).map Prod.snd)
    else (tableTok, some stop)
  | none => (trimToken (cursor.take 511), none)

/-- The JOIN loop of `extract_join_tables`; every round consumes a keyword. -/
def joinLoop (maxObjects : Nat) : Nat → List ObjectRef → CString → List ObjectRef
  | 0, objects, _ => objects
  | fuel + 1, objects, cursor =>
    match matchJoinKw cursor with
    | none => objects
    | some kw =>
      let (tableTok, next) := joinTable ((cursor.drop kw.length).dropWhile isBlank)
      let objects := addTable maxObjects objects tableTok
      match next with
      | none => objects
      | some cursor => joinLoop maxObjects fuel objects cursor

def extractJoinTables (fromSeg : CString) (maxObjects : Nat) : List ObjectRef :=
  match earliestKeyword fromSeg joinKws with
  | none => addTables maxObjects [] fromSeg
  | some (basePart, firstJoin) =>
    joinLoop maxObjects firstJoin.length (addTables maxObjects [] (trimToken basePart)) firstJoin

/-- `FIELD_NAME AS ALIAS`, `FIELD_NAME ALIAS` or `FIELD_NAME`. -/
def splitFieldAlias (text : CString) : Option (CString × CString) :=
  let sized (name rest : CString) : Option (CString × CString) :=
    if name.length = 0 ∨ 128 ≤ name.length then none
    else some (name, (rest.dropWhile isBlank).take 127)
  match findKeyword text "AS" with
  | some (name, rest) => sized (stripTrailing isBlank name) (rest.drop 2)
  | none =>
    match splitAtChar ' ' text with
    | some (name, rest) => sized name rest
    | none => some (text.take 127, [])

def namedField (tableRef text : CString) (pos : Nat) (expansion : ExpansionType) :
    Option FieldRef :=
  match splitFieldAlias text with
  | none => none
  | some (name, fieldAlias) =>
    if trimToken name = [] then none
    else some {
      tableRef := tableRef, fieldName := trimToken name, fieldAlias := fieldAlias,
      fieldPos := pos, expansionType := expansion }

def wildcardField (tableRef : CString) (pos : Nat) (expansion : ExpansionType) : FieldRef :=
  { tableRef := tableRef, fieldName := ['*'], fieldAlias := [], fieldPos := pos,
    expansionType := expansion }

def parseFieldToken (token : CString) (pos : Nat) (singleTableRef : Option CString) :
    Option FieldRef :=
  if token = ['*'] then some (wildcardField [] pos .wildcardAll)
  else if hasParenthesis token then none
  else
    match splitAtChar '.' token with
    | none =>
      match singleTableRef with
      | none => none
      | some tableRef => namedField (tableRef.take 63) token pos .unqualified
    | some (tableRef, afterDot) =>
      if tableRef.length = 0 ∨ 64 ≤ tableRef.length then none
      else
        match afterDot with
        | ['*'] => some (wildcardField tableRef pos .wildcardTbl)
        | '*' :: ' ' :: _ => some (wildcardField tableRef pos .wildcardTbl)
        | [] => none
        | _ => namedField tableRef afterDot pos .normal

/-- The field loop: empty tokens are passed over, a token that does not parse ends it. -/
def parseFields (singleTableRef : Option CString) :
    Nat → List CString → List FieldRef → Option (List FieldRef)
  | _, [], fields => some fields
  | pos, token :: tokens, fields =>
    if token = [] then parseFields singleTableRef (pos + 1) tokens fields
    else
      match parseFieldToken token pos singleTableRef with
      | none => none
      | some field =>
        if sqlDepMaxFields ≤ fields.length then none
        else parseFields singleTableRef (pos + 1) tokens (fields ++ [field])

def singleTableRef (objects : List ObjectRef) : Option CString :=
  match objects with
  | [object] => some (if object.aliasName = [] then object.objectName else object.aliasName)
  | _ => none

def fromStopKws : List String := ["WHERE", "GROUP BY", "ORDER BY", "HAVING"]

/-- The text between FROM and the clause that ends it. -/
def fromClause (fromPtr : CString) : CString :=
  let body := (fromPtr.drop 4).dropWhile isBlank
  match earliestKeyword body fromStopKws with
  | some (clause, _) => stripTrailing isBlank clause
  | none => trimToken body

/-- Stages 2 to 7, on the normalised text. -/
def extractFromNormalised (norm : CString) : Option DependencyList :=
  if !"SELECT ".toList.isPrefixOf norm then none
  else
    match findKeyword norm "FROM" with
    | none => none
    | some (before, fromPtr) =>
      if ["UNION", "INTERSECT", "EXCEPT"].any (fun kw => (findKeyword norm kw).isSome) then none
      else
        let selectClause := stripTrailing isBlank (before.drop 7)
        if selectClause = [] ∨ fromClause fromPtr = [] then none
        else
          let objects := extractJoinTables (fromClause fromPtr) sqlDepMaxObjects
          if objects = [] then none
          else
            let tokens := splitOnComma sqlDepMaxFields selectClause
            if tokens = [] then none
            else
              match parseFields (singleTableRef objects) 1 tokens [] with
              | none => none
              | some fields => some {
                  objects := objects, fields := fields,
                  needsExpansion := fields.any (·.expansionType != .normal) }

/-- `none` is the result -1. -/
def extractSqlDependencies (sql : CString) : Option DependencyList :=
  match normaliseSql sql normSqlMax with
  | none => none
  | some norm => extractFromNormalised norm

end OciWrapper.Core
