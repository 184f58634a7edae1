import OciWrapper.Dml.ReportedTypes
import OciWrapper.Dml.Requests

namespace OciWrapper.Dml

open OciWrapper.Text

def maxInsertCols : Nat := 1024
def maxInsertRows : Nat := 5000
def maxUpdCols : Nat := 1024
def maxUpdKeyCols : Nat := 32
def maxColValueSize : Nat := 32768
def nameMax : Nat := 127
def sqlMax : Nat := 65536

/-- `insert_col_value_t` and `upd_field_value_t`. -/
structure ColValue where
  value : CString
  largeValue : Option CString
  isEmpty : Bool
  deriving DecidableEq

/-- `insert_col_value_get` and `upd_field_value_get`. -/
def ColValue.get (v : ColValue) : CString := v.largeValue.getD v.value

/-- The copy of a request's value; `heap` tells whether the allocation for a long one succeeds. -/
def colValue (heap : Bool) (real : CString) : ColValue :=
  if real.length < maxColValueSize then ⟨real, none, decide (real = [])⟩
  else ⟨real.take (maxColValueSize - 1), if heap then some real else none, decide (real = [])⟩

structure InsertCtx where
  tableName : CString
  owner : CString
  colNames : List CString
  rows : List (List ColValue)

/-- The value a row gives to the column. -/
def rowValue (heap : Bool) (row : List FieldValue) (colName : CString) : Option ColValue :=
  (row.find? fun field => strcasecmp field.fieldName colName).map fun field =>
    colValue heap field.get

def insertRow (heap : Bool) (colNames : List CString) (row : List FieldValue) :
    Option (List ColValue) :=
  if row.length ≠ colNames.length then none else colNames.mapM (rowValue heap row)

/-- `build_insert_ctx_from_request`. -/
def buildInsertCtx (heap : Bool) (req : InsertRequest) : Option InsertCtx :=
  match req.rows with
  | [] => none
  | row0 :: _ =>
    if maxInsertRows < req.rows.length ∨ row0 = [] ∨ maxInsertCols < row0.length then none
    else
      let colNames := row0.map fun field => field.fieldName.take nameMax
      (req.rows.mapM (insertRow heap colNames)).map fun rows =>
        ⟨req.tableName.take nameMax, req.owner.take nameMax, colNames, rows⟩

/-- What stands for a column in the statement, after `n` binds. -/
def columnText (vendor : Vendor) (dtype : CString) (n : Nat) : Option (CString × Nat) :=
  match vendor.lobPlaceholder dtype with
  | some literal => some (literal, n)
  | none => do
    let ph ← vendor.bindPlaceholder (n + 1) 32
    let expr ← vendor.valueExpr dtype ph 256
    some (expr, n + 1)

def colListSize : Nat := maxInsertCols * 132
def bindListSize : Nat := maxInsertCols * 256

def comma : CString := ", ".toList

/-- The loop over the columns: the column list, the bind list and the binds so far. -/
def insertLists (vendor : Vendor) (cols : List ColMetadata) :
    Bool → CString → CString → Nat → List CString → Option (CString × CString × Nat)
  | _, colList, bindList, n, [] => some (colList, bindList, n)
  | started, colList, bindList, n, colName :: colNames => do
    let separator := if started then comma else []
    let colList := strncat colListSize (strncat colListSize colList separator) colName
    let (text, n) ← columnText vendor (dataTypeOf cols colName) n
    let bindList := strncat bindListSize (strncat bindListSize bindList separator) text
    insertLists vendor cols true colList bindList n colNames

/-- The name of the table in a statement. -/
def qualified (owner tableName : CString) : CString :=
  if owner = [] then tableName else owner ++ '.' :: tableName

/-- A clause of the row locator, with the blank before it. -/
def clause (text : CString) : CString := if text = [] then [] else ' ' :: text

def insertText (target colList mid bindList tail : CString) : CString :=
  "INSERT INTO ".toList ++ target ++ " (".toList ++ colList ++ ")".toList ++ clause mid ++
    " VALUES (".toList ++ bindList ++ ")".toList ++ clause tail

/-- `build_insert_sql`: the statement and the number of its binds. `tableKey` is the result of
    the driver's `table_key`. -/
def buildInsertSql (vendor : Vendor) (tableKey : Option (Option CString)) (ic : InsertCtx)
    (cols : List ColMetadata) : Option (CString × Nat) := do
  let (colList, bindList, n) ← insertLists vendor cols false [] [] 0 ic.colNames
  let key ← tableKey
  let (mid, tail) ← vendor.rowLocatorClauses key (n + 1) 512 512
  let sql ← fmt sqlMax
    (insertText (qualified ic.owner ic.tableName) colList mid bindList tail)
  some (sql, n)

/-- `upd_key_field_t`; its `field_type` is never read. -/
structure UpdKeyField where
  fieldName : CString
  keyValue : CString

/-- `update_ctx_t`. -/
structure UpdateCtx where
  tableName : CString
  owner : CString
  colNames : List CString
  values : List ColValue
  keys : List UpdKeyField

/-- `build_update_ctx_from_request`. -/
def buildUpdateCtx (heap : Bool) (req : UpdateRequest) : Option UpdateCtx :=
  if req.keys = [] ∨ maxUpdKeyCols < req.keys.length ∨ req.fields = [] ∨
      maxUpdCols < req.fields.length then none
  else some {
    tableName := req.tableName.take nameMax
    owner := req.owner.take nameMax
    colNames := req.fields.map fun field => field.fieldName.take nameMax
    values := req.fields.map fun field => colValue heap field.get
    keys := req.keys.map fun key =>
      ⟨key.fieldName.take nameMax, key.keyValue.take (maxColValueSize - 1)⟩ }

def setListSize : Nat := maxUpdCols * 256
def whereListSize : Nat := maxUpdKeyCols * 256

/-- `snprintf(out, 512, "%s=%s", name, expr)`. -/
def assignment (name expr : CString) : CString := (name ++ '=' :: expr).take 511

/-- The loop over the SET columns. -/
def setList (vendor : Vendor) (cols : List ColMetadata) :
    Bool → CString → Nat → List CString → Option (CString × Nat)
  | _, list, n, [] => some (list, n)
  | started, list, n, colName :: colNames => do
    let list := strncat setListSize list (if started then comma else [])
    let (text, n) ← columnText vendor (dataTypeOf cols colName) n
    setList vendor cols true (strncat setListSize list (assignment colName text)) n colNames

def conjunction : CString := " AND ".toList

/-- What stands for a key: a LOB column binds here like any other. -/
def keyText (vendor : Vendor) (dtype : CString) (n : Nat) : Option CString := do
  let ph ← vendor.bindPlaceholder (n + 1) 32
  vendor.valueExpr dtype ph 256

/-- The loop over the keys. -/
def whereList (vendor : Vendor) (cols : List ColMetadata) :
    Bool → CString → Nat → List CString → Option (CString × Nat)
  | _, list, n, [] => some (list, n)
  | started, list, n, fieldName :: fieldNames => do
    let list := strncat whereListSize list (if started then conjunction else [])
    let text ← keyText vendor (dataTypeOf cols fieldName) n
    whereList vendor cols true (strncat whereListSize list (assignment fieldName text)) (n + 1)
      fieldNames

def updateText (target sets mid wheres tail : CString) : CString :=
  "UPDATE ".toList ++ target ++ " SET ".toList ++ sets ++ clause mid ++ " WHERE ".toList ++
    wheres ++ clause tail

/-- `build_update_sql`: the statement and the position of the bind that returns the row. -/
def buildUpdateSql (vendor : Vendor) (tableKey : Option (Option CString)) (uc : UpdateCtx)
    (cols : List ColMetadata) : Option (CString × Nat) := do
  let (sets, n) ← setList vendor cols false [] 0 uc.colNames
  let (wheres, n) ← whereList vendor cols false [] n (uc.keys.map (·.fieldName))
  let key ← tableKey
  let (mid, tail) ← vendor.rowLocatorClauses key (n + 1) 512 512
  let sql ← fmt sqlMax (updateText (qualified uc.owner uc.tableName) sets mid wheres tail)
  some (sql, n + 1)

/-- A column or key of a statement with what stands for it. -/
structure Item where
  column : CString
  text : CString
  deriving DecidableEq

/-- The items are what the columns get, with the binds numbered from `n` to `m`. -/
def Placed (vendor : Vendor) (cols : List ColMetadata) : Nat → List Item → Nat → Prop
  | n, [], m => n = m
  | n, item :: items, m => ∃ next,
    columnText vendor (dataTypeOf cols item.column) n = some (item.text, next) ∧
      Placed vendor cols next items m

/-- The items are what the keys get. -/
def KeysPlaced (vendor : Vendor) (cols : List ColMetadata) : Nat → List Item → Nat → Prop
  | n, [], m => n = m
  | n, item :: items, m =>
    keyText vendor (dataTypeOf cols item.column) n = some item.text ∧
      KeysPlaced vendor cols (n + 1) items m

theorem joinFrom_append_take (separator : CString) (started : Bool) (text piece : CString)
    (pieces : List CString) (size : Nat) :
    (strncat size (strncat size (text.take (size - 1)) (if started then separator else [])) piece) =
      (text ++ (if started then separator else []) ++ piece).take (size - 1) ∧
    (text ++ (if started then separator else []) ++ piece) ++ joinFrom separator true pieces =
      text ++ joinFrom separator started (piece :: pieces) := by
  constructor
  · rw [strncat_take, strncat_take]
  · simp [joinFrom]

/-- The lists are the names and the items, joined and cut at their buffers. -/
theorem insertLists_eq_some {vendor : Vendor} {cols : List ColMetadata} {colNames : List CString} :
    ∀ (colText bindText : CString) {started : Bool} {n m : Nat} {colList bindList : CString},
    insertLists vendor cols started (colText.take (colListSize - 1))
      (bindText.take (bindListSize - 1)) n colNames = some (colList, bindList, m) →
    ∃ items : List Item, items.map (·.column) = colNames ∧ Placed vendor cols n items m ∧
      colList = (colText ++ joinFrom comma started colNames).take (colListSize - 1) ∧
      bindList = (bindText ++ joinFrom comma started (items.map (·.text))).take
        (bindListSize - 1) := by
  induction colNames with
  | nil =>
    intro colText bindText started n m colList bindList built
    cases built
    exact ⟨[], rfl, rfl, by simp [joinFrom], by simp [joinFrom]⟩
  | cons colName colNames ih =>
    intro colText bindText started n m colList bindList built
    simp only [insertLists, Option.bind_eq_bind, Option.bind_eq_some_iff] at built
    obtain ⟨⟨text, next⟩, placed, rest⟩ := built
    obtain ⟨colCut, colJoin⟩ :=
      joinFrom_append_take comma started colText colName colNames colListSize
    rw [colCut, (joinFrom_append_take comma started bindText text [] bindListSize).1] at rest
    obtain ⟨items, names, numbered, colEq, bindEq⟩ := ih _ _ rest
    refine ⟨⟨colName, text⟩ :: items, by rw [List.map_cons, names], ⟨next, placed, numbered⟩, ?_, ?_⟩
    · rw [colEq, colJoin]
    · rw [bindEq, List.map_cons,
        (joinFrom_append_take comma started bindText text (items.map (·.text)) bindListSize).2]

theorem insertText_length (target colList mid bindList tail : CString) :
    colList.length + bindList.length ≤ (insertText target colList mid bindList tail).length := by
  unfold insertText
  generalize "INSERT INTO ".toList = opening
  generalize " (".toList = before
  generalize ")".toList = closing
  generalize " VALUES (".toList = values
  simp only [List.length_append]
  omega

/-- A list that is cut does not fit the statement. -/
theorem uncut {text : CString} {size : Nat} (large : sqlMax < size)
    (fits : (text.take (size - 1)).length < sqlMax) : text.take (size - 1) = text := by
  rw [List.length_take] at fits
  exact List.take_of_length_le (by omega)

/-- The statement names the columns, and holds their items, in full. -/
theorem buildInsertSql_eq_some {vendor : Vendor} {tableKey : Option (Option CString)}
    {ic : InsertCtx} {cols : List ColMetadata} {sql : CString} {n : Nat}
    (built : buildInsertSql vendor tableKey ic cols = some (sql, n)) :
    ∃ (items : List Item) (mid tail : CString), items.map (·.column) = ic.colNames ∧
      Placed vendor cols 0 items n ∧
      sql = insertText (qualified ic.owner ic.tableName) (joined comma ic.colNames) mid
        (joined comma (items.map (·.text))) tail := by
  simp only [buildInsertSql, Option.bind_eq_bind, Option.bind_eq_some_iff] at built
  obtain ⟨⟨colList, bindList, m⟩, lists, key, -, ⟨mid, tail⟩, -, text, fits, same⟩ := built
  cases same
  obtain ⟨rfl, short⟩ := fmt_eq_some fits
  obtain ⟨items, names, placed, colEq, bindEq⟩ :=
    insertLists_eq_some [] [] (by simpa using lists)
  have room := insertText_length (qualified ic.owner ic.tableName) colList mid bindList tail
  dsimp only at short
  rw [List.nil_append] at colEq bindEq
  have colFull := uncut (by decide) (colEq ▸ show colList.length < sqlMax by omega)
  have bindFull := uncut (by decide) (bindEq ▸ show bindList.length < sqlMax by omega)
  rw [colFull] at colEq
  rw [bindFull] at bindEq
  exact ⟨items, mid, tail, names, placed, by rw [colEq, bindEq]; rfl⟩

/-- A column with its item, as in a SET list or a WHERE clause. -/
def Item.equation (item : Item) : CString := item.column ++ '=' :: item.text

theorem assignment_eq (item : Item) (name : item.column.length ≤ nameMax)
    (short : item.text.length < 256) : assignment item.column item.text = item.equation := by
  rw [assignment, Item.equation]
  refine List.take_of_length_le ?_
  rw [nameMax] at name
  rw [List.length_append, List.length_cons]
  omega

theorem columnText_length {vendor : Vendor} {dtype text : CString} {n m : Nat}
    (placed : columnText vendor dtype n = some (text, m)) : text.length < 256 := by
  rw [columnText] at placed
  cases lob : vendor.lobPlaceholder dtype with
  | some literal =>
    rw [lob] at placed
    cases placed
    cases vendor with
    | oracle =>
      simp only [Vendor.lobPlaceholder, oracleLobPlaceholder] at lob
      split at lob
      · cases lob
        decide
      · split at lob
        · cases lob
          decide
        · cases lob
    | mssql =>
      simp only [Vendor.lobPlaceholder, msLobPlaceholder] at lob
      split at lob
      · cases lob
        decide
      · split at lob
        · cases lob
          decide
        · cases lob
  | none =>
    rw [lob] at placed
    simp only [Option.bind_eq_bind, Option.bind_eq_some_iff] at placed
    obtain ⟨ph, -, expr, wrapped, same⟩ := placed
    cases same
    obtain ⟨rfl, short⟩ := fmt_eq_some wrapped
    exact short

theorem Vendor.bindPlaceholder_length {vendor : Vendor} {pos outMax : Nat} {ph : CString}
    (made : vendor.bindPlaceholder pos outMax = some ph) : ph.length < outMax := by
  cases vendor with
  | oracle =>
    simp only [bindPlaceholder, oracleBindPlaceholder] at made
    split at made
    · cases made
    · obtain ⟨rfl, short⟩ := fmt_eq_some made
      exact short
  | mssql =>
    simp only [bindPlaceholder, msBindPlaceholder] at made
    split at made
    · cases made
    · obtain ⟨rfl, short⟩ := fmt_eq_some made
      exact short

theorem keyText_length {vendor : Vendor} {dtype text : CString} {n : Nat}
    (placed : keyText vendor dtype n = some text) : text.length ≤ 73 := by
  simp only [keyText, Option.bind_eq_bind, Option.bind_eq_some_iff] at placed
  obtain ⟨ph, made, wrapped⟩ := placed
  obtain ⟨rfl, -⟩ := fmt_eq_some wrapped
  have short := Vendor.bindPlaceholder_length made
  have wrap := vendor.valueWrap_length dtype
  simp only [List.length_append]
  omega

theorem setList_eq_some {vendor : Vendor} {cols : List ColMetadata} {colNames : List CString}
    (names : ∀ name ∈ colNames, name.length ≤ nameMax) :
    ∀ (setText : CString) {started : Bool} {n m : Nat} {sets : CString},
    setList vendor cols started (setText.take (setListSize - 1)) n colNames = some (sets, m) →
    ∃ items : List Item, items.map (·.column) = colNames ∧ Placed vendor cols n items m ∧
      sets = (setText ++ joinFrom comma started (items.map (·.equation))).take
        (setListSize - 1) := by
  induction colNames with
  | nil =>
    intro setText started n m sets built
    cases built
    exact ⟨[], rfl, rfl, by simp [joinFrom]⟩
  | cons colName colNames ih =>
    intro setText started n m sets built
    simp only [setList, Option.bind_eq_bind, Option.bind_eq_some_iff] at built
    obtain ⟨⟨text, next⟩, placed, rest⟩ := built
    have equation := assignment_eq ⟨colName, text⟩ (names colName List.mem_cons_self)
      (columnText_length placed)
    dsimp only at equation rest
    rw [equation, (joinFrom_append_take comma started setText _ [] setListSize).1] at rest
    obtain ⟨items, columns, numbered, same⟩ :=
      ih (fun name member => names name (List.mem_cons_of_mem colName member)) _ rest
    refine ⟨⟨colName, text⟩ :: items, by rw [List.map_cons, columns], ⟨next, placed, numbered⟩, ?_⟩
    rw [same, List.map_cons, (joinFrom_append_take comma started setText _ _ setListSize).2]

theorem whereList_eq_some {vendor : Vendor} {cols : List ColMetadata} {fieldNames : List CString}
    (names : ∀ name ∈ fieldNames, name.length ≤ nameMax) :
    ∀ (whereText : CString) {started : Bool} {n m : Nat} {wheres : CString},
    whereList vendor cols started (whereText.take (whereListSize - 1)) n fieldNames =
      some (wheres, m) →
    ∃ items : List Item, items.map (·.column) = fieldNames ∧ KeysPlaced vendor cols n items m ∧
      wheres = (whereText ++ joinFrom conjunction started (items.map (·.equation))).take
        (whereListSize - 1) := by
  induction fieldNames with
  | nil =>
    intro whereText started n m wheres built
    cases built
    exact ⟨[], rfl, rfl, by simp [joinFrom]⟩
  | cons fieldName fieldNames ih =>
    intro whereText started n m wheres built
    simp only [whereList, Option.bind_eq_bind, Option.bind_eq_some_iff] at built
    obtain ⟨text, placed, rest⟩ := built
    have short := keyText_length placed
    have equation := assignment_eq ⟨fieldName, text⟩
      (names fieldName List.mem_cons_self) (show text.length < 256 by omega)
    dsimp only at equation
    rw [equation, (joinFrom_append_take conjunction started whereText _ [] whereListSize).1] at rest
    obtain ⟨items, columns, numbered, same⟩ :=
      ih (fun name member => names name (List.mem_cons_of_mem fieldName member)) _ rest
    refine ⟨⟨fieldName, text⟩ :: items, by rw [List.map_cons, columns], ⟨placed, numbered⟩, ?_⟩
    rw [same, List.map_cons, (joinFrom_append_take conjunction started whereText _ _ whereListSize).2]

theorem KeysPlaced.short {vendor : Vendor} {cols : List ColMetadata} {items : List Item} :
    ∀ {n m : Nat}, KeysPlaced vendor cols n items m → ∀ item ∈ items, item.text.length ≤ 73 := by
  induction items with
  | nil =>
    intro n m _ item member
    cases member
  | cons first items ih =>
    intro n m placed item member
    rcases List.mem_cons.mp member with rfl | later
    · exact keyText_length placed.1
    · exact ih placed.2 item later

/-- 32 conditions fit the buffer of the WHERE clause. -/
theorem where_uncut {items : List Item} (few : items.length ≤ maxUpdKeyCols)
    (names : ∀ item ∈ items, item.column.length ≤ nameMax)
    (short : ∀ item ∈ items, item.text.length ≤ 73) :
    (joined conjunction (items.map (·.equation))).take (whereListSize - 1) =
      joined conjunction (items.map (·.equation)) := by
  have each : ∀ piece ∈ items.map (·.equation), piece.length ≤ 201 := by
    intro piece member
    obtain ⟨item, inside, rfl⟩ := List.mem_map.mp member
    have name := names item inside
    have text := short item inside
    rw [nameMax] at name
    rw [Item.equation, List.length_append, List.length_cons]
    omega
  have bound : (joined conjunction (items.map (·.equation))).length ≤ _ :=
    joinFrom_length_le conjunction each false
  have separator : conjunction.length = 5 := rfl
  rw [List.length_map, separator] at bound
  rw [maxUpdKeyCols] at few
  have room : whereListSize = 8192 := rfl
  refine List.take_of_length_le ?_
  omega

theorem updateText_length (target sets mid wheres tail : CString) :
    sets.length + wheres.length ≤ (updateText target sets mid wheres tail).length := by
  unfold updateText
  generalize "UPDATE ".toList = opening
  generalize " SET ".toList = before
  generalize " WHERE ".toList = between
  simp only [List.length_append]
  omega

/-- The context's names and keys are those of the request, cut at their fields. -/
theorem buildUpdateCtx_bounds {heap : Bool} {req : UpdateRequest} {uc : UpdateCtx}
    (built : buildUpdateCtx heap req = some uc) :
    (∀ name ∈ uc.colNames, name.length ≤ nameMax) ∧ uc.keys.length ≤ maxUpdKeyCols ∧
      (∀ key ∈ uc.keys, key.fieldName.length ≤ nameMax) ∧
      uc.values.length = uc.colNames.length := by
  rw [buildUpdateCtx] at built
  split at built
  · cases built
  · rename_i within
    cases built
    refine ⟨?_, ?_, ?_, by simp⟩
    · intro name member
      obtain ⟨field, -, rfl⟩ := List.mem_map.mp member
      exact List.length_take_le _ _
    · rw [List.length_map]
      omega
    · intro key member
      obtain ⟨request, -, rfl⟩ := List.mem_map.mp member
      exact List.length_take_le _ _

/-- The statement assigns the columns, and compares the keys, in full. -/
theorem buildUpdateSql_eq_some {vendor : Vendor} {tableKey : Option (Option CString)}
    {heap : Bool} {req : UpdateRequest} {uc : UpdateCtx} {cols : List ColMetadata} {sql : CString}
    {pos : Nat} (context : buildUpdateCtx heap req = some uc)
    (built : buildUpdateSql vendor tableKey uc cols = some (sql, pos)) :
    ∃ (sets wheres : List Item) (n : Nat) (mid tail : CString),
      sets.map (·.column) = uc.colNames ∧ Placed vendor cols 0 sets n ∧
      wheres.map (·.column) = uc.keys.map (·.fieldName) ∧
      (∃ m, KeysPlaced vendor cols n wheres m ∧ pos = m + 1) ∧
      sql = updateText (qualified uc.owner uc.tableName) (joined comma (sets.map (·.equation))) mid
        (joined conjunction (wheres.map (·.equation))) tail := by
  obtain ⟨nameBound, fewKeys, keyBound, -⟩ := buildUpdateCtx_bounds context
  simp only [buildUpdateSql, Option.bind_eq_bind, Option.bind_eq_some_iff] at built
  obtain ⟨⟨setCut, n⟩, setBuilt, ⟨whereCut, m⟩, whereBuilt, key, -, ⟨mid, tail⟩, -, text, fits,
    same⟩ := built
  cases same
  obtain ⟨rfl, short⟩ := fmt_eq_some fits
  dsimp only at short whereBuilt
  have keyNames : ∀ name ∈ uc.keys.map (·.fieldName), name.length ≤ nameMax := by
    intro name member
    obtain ⟨key, inside, rfl⟩ := List.mem_map.mp member
    exact keyBound key inside
  obtain ⟨sets, setNames, setPlaced, setEq⟩ :=
    setList_eq_some nameBound [] (by simpa using setBuilt)
  obtain ⟨wheres, whereNames, wherePlaced, whereEq⟩ :=
    whereList_eq_some keyNames [] (by simpa using whereBuilt)
  rw [List.nil_append] at setEq whereEq
  have room := updateText_length (qualified uc.owner uc.tableName) setCut mid whereCut tail
  have setFull := uncut (by decide) (setEq ▸ show setCut.length < sqlMax by omega)
  rw [setFull] at setEq
  have columnBound : ∀ item ∈ wheres, item.column.length ≤ nameMax := by
    intro item member
    have listed : item.column ∈ uc.keys.map (·.fieldName) :=
      whereNames ▸ List.mem_map.mpr ⟨item, member, rfl⟩
    exact keyNames item.column listed
  have count : wheres.length ≤ maxUpdKeyCols := by
    have lengths := congrArg List.length whereNames
    rw [List.length_map, List.length_map] at lengths
    omega
  have whereFull := where_uncut count columnBound wherePlaced.short
  rw [← joined, whereFull] at whereEq
  exact ⟨sets, wheres, n, mid, tail, setNames, setPlaced, whereNames, ⟨m, wherePlaced, rfl⟩,
    by rw [setEq, whereEq]; rfl⟩

end OciWrapper.Dml
