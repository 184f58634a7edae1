import OciWrapper.Dml.StatementBinds

namespace OciWrapper.Dml

open OciWrapper.Text

def maxDelKeyCols : Nat := 32
def deleteSqlMax : Nat := 8192

/-- `del_key_field_t`. -/
structure DelKeyField where
  fieldName : CString
  fieldType : CString
  keyValue : CString

/-- `delete_ctx_t`. -/
structure DeleteCtx where
  tableName : CString
  owner : CString
  keys : List DelKeyField

def delKeyType (cols : List ColMetadata) (fieldName : CString) : CString :=
  ((findColumn cols fieldName).map fun col => col.dataType.take nameMax).getD "VARCHAR2".toList

/-- `build_delete_ctx_from_request`. -/
def buildDeleteCtx (cols : List ColMetadata) (req : DeleteRequest) : Option DeleteCtx :=
  if req.keys = [] ∨ maxDelKeyCols < req.keys.length then none
  else some {
    tableName := req.tableName.take nameMax
    owner := req.owner.take nameMax
    keys := req.keys.map fun key =>
      ⟨key.fieldName.take nameMax, delKeyType cols (key.fieldName.take nameMax),
        key.keyValue.take (maxColValueSize - 1)⟩ }

def delWhereListSize : Nat := maxDelKeyCols * 256

/-- The loop of `build_delete_sql` over the keys. -/
def delWhereList (vendor : Vendor) : Bool → CString → Nat → List DelKeyField → Option CString
  | _, list, _, [] => some list
  | started, list, k, key :: keys => do
    let list := strncat delWhereListSize list (if started then conjunction else [])
    let expr ← keyText vendor key.fieldType k
    delWhereList vendor true (strncat delWhereListSize list (assignment key.fieldName expr)) (k + 1)
      keys

def deleteText (target wheres : CString) : CString :=
  "DELETE FROM ".toList ++ target ++ " WHERE ".toList ++ wheres

/-- `build_delete_sql`. -/
def buildDeleteSql (vendor : Vendor) (dc : DeleteCtx) : Option CString := do
  let wheres ← delWhereList vendor false [] 0 dc.keys
  fmt deleteSqlMax (deleteText (qualified dc.owner dc.tableName) wheres)

/-- What `execute_delete_batch` hands to the driver, where it does not fail before. -/
def deleteStatement (vendor : Vendor) (cols : List ColMetadata) (req : DeleteRequest) :
    Option (CString × List CString) := do
  let dc ← buildDeleteCtx cols req
  let sql ← buildDeleteSql vendor dc
  some (sql, dc.keys.map (·.keyValue))

/-- What `execute_update_batch` hands to the driver. -/
def updateStatement (vendor : Vendor) (tableKey : Option (Option CString)) (heap : Bool)
    (readFile : CString → Option CString) (cols : List ColMetadata) (req : UpdateRequest) :
    Option (CString × List (Option CString)) := do
  let uc ← buildUpdateCtx heap req
  let (sql, _) ← buildUpdateSql vendor tableKey uc cols
  let bound ← updateBindValues readFile cols uc
  some (sql, bound)

/-- The conditions have the expressions of their types, numbered from `n` on. -/
def ConditionsPlaced (vendor : Vendor) : Nat → List CString → List Item → Prop
  | _, [], [] => True
  | n, dtype :: types, item :: items =>
    keyText vendor dtype n = some item.text ∧ ConditionsPlaced vendor (n + 1) types items
  | _, _, _ => False

/-- One condition for each key, in order, each with one placeholder. -/
structure KeyConditions (vendor : Vendor) (n : Nat) (types : List CString) (keys : List WhereKey)
    (conditions : List Item) : Prop where
  names : conditions.map (·.column) = keys.map (·.fieldName)
  placed : ConditionsPlaced vendor n types conditions
  marks : ∀ item ∈ conditions, markers vendor.bindMark false item.text = 1

/-- The names and the values of the keys fit their fields of `where_key_t`. -/
def KeysFit (keys : List WhereKey) : Prop :=
  ∀ key ∈ keys, Fits 128 key.fieldName ∧ Fits 4096 key.keyValue

section Conditions

variable {vendor : Vendor} {cols : List ColMetadata}

theorem ConditionsPlaced.short {types : List CString} {items : List Item} :
    ∀ {n : Nat}, ConditionsPlaced vendor n types items →
      ∀ item ∈ items, item.text.length ≤ 73 ∧ markers vendor.bindMark false item.text = 1 := by
  induction items generalizing types with
  | nil =>
    intro n _ item member
    cases member
  | cons first items ih =>
    intro n placed item member
    cases types with
    | nil => cases placed
    | cons dtype types =>
      rcases List.mem_cons.mp member with rfl | later
      · exact ⟨keyText_length placed.1, keyText_marks placed.1⟩
      · exact ih placed.2 item later

theorem KeysPlaced.conditions {items : List Item} : ∀ {n m : Nat},
    KeysPlaced vendor cols n items m →
      ConditionsPlaced vendor n (items.map fun item => dataTypeOf cols item.column) items := by
  induction items with
  | nil =>
    intro n m _
    trivial
  | cons item items ih =>
    intro n m placed
    exact ⟨placed.1, ih placed.2⟩

theorem delWhereList_eq_some {keys : List DelKeyField}
    (names : ∀ key ∈ keys, key.fieldName.length ≤ nameMax) :
    ∀ (whereText : CString) {started : Bool} {n : Nat} {wheres : CString},
    delWhereList vendor started (whereText.take (delWhereListSize - 1)) n keys = some wheres →
    ∃ items : List Item, items.map (·.column) = keys.map (·.fieldName) ∧
      ConditionsPlaced vendor n (keys.map (·.fieldType)) items ∧
      wheres = (whereText ++ joinFrom conjunction started (items.map (·.equation))).take
        (delWhereListSize - 1) := by
  induction keys with
  | nil =>
    intro whereText started n wheres built
    cases built
    exact ⟨[], rfl, trivial, by simp [joinFrom]⟩
  | cons key keys ih =>
    intro whereText started n wheres built
    simp only [delWhereList, Option.bind_eq_bind, Option.bind_eq_some_iff] at built
    obtain ⟨text, placed, rest⟩ := built
    have short := keyText_length placed
    have equation := assignment_eq ⟨key.fieldName, text⟩
      (names key List.mem_cons_self) (show text.length < 256 by omega)
    dsimp only at equation
    rw [equation, (joinFrom_append_take conjunction started whereText _ [] delWhereListSize).1]
      at rest
    obtain ⟨items, columns, numbered, same⟩ :=
      ih (fun key' member => names key' (List.mem_cons_of_mem key member)) _ rest
    refine ⟨⟨key.fieldName, text⟩ :: items, by rw [List.map_cons, columns, List.map_cons],
      ⟨placed, numbered⟩, ?_⟩
    rw [same, List.map_cons,
      (joinFrom_append_take conjunction started whereText _ _ delWhereListSize).2]

theorem bindPlaceholder_isSome {n : Nat} (positive : 0 < n) (few : n < 100) :
    ∃ ph, vendor.bindPlaceholder n 32 = some ph := by
  have digits := (Nat.length_toDigits_le_iff (b := 10) (k := 2) (by decide) (by decide)).mpr few
  cases vendor with
  | oracle =>
    have room : (':' :: Nat.toDigits 10 n).length < 32 := by
      rw [List.length_cons]
      omega
    exact ⟨':' :: Nat.toDigits 10 n, by
      rw [Vendor.bindPlaceholder, oracleBindPlaceholder, if_neg (by omega), fmt, if_pos room]⟩
  | mssql =>
    exact ⟨['?'], by
      rw [Vendor.bindPlaceholder, msBindPlaceholder, if_neg (by omega), fmt, if_pos (by decide)]⟩

theorem keyText_isSome {n : Nat} (few : n + 1 < 100) (dtype : CString) :
    ∃ text, keyText vendor dtype n = some text := by
  have placeholder : ∃ ph, vendor.bindPlaceholder (n + 1) 32 = some ph :=
    bindPlaceholder_isSome (Nat.succ_pos n) few
  obtain ⟨ph, made⟩ := placeholder
  have short := Vendor.bindPlaceholder_length made
  have wrap := vendor.valueWrap_length dtype
  have room : ((vendor.valueWrap dtype).1 ++ ph ++ (vendor.valueWrap dtype).2).length < 256 := by
    simp only [List.length_append]
    omega
  exact ⟨(vendor.valueWrap dtype).1 ++ ph ++ (vendor.valueWrap dtype).2, by
    rw [keyText, made, Option.bind_eq_bind, Option.bind_some, Vendor.valueExpr, fmt, if_pos room]⟩

theorem delWhereList_isSome {keys : List DelKeyField} :
    ∀ {started : Bool} {list : CString} {n : Nat}, n + keys.length < 100 →
      ∃ wheres, delWhereList vendor started list n keys = some wheres := by
  induction keys with
  | nil =>
    intro started list n _
    exact ⟨list, rfl⟩
  | cons key keys ih =>
    intro started list n few
    rw [List.length_cons] at few
    have expression : ∃ text, keyText vendor key.fieldType n = some text :=
      keyText_isSome (by omega) key.fieldType
    obtain ⟨text, made⟩ := expression
    rw [delWhereList, made, Option.bind_eq_bind, Option.bind_some]
    exact ih (by omega)

end Conditions

section Statements

variable {vendor : Vendor} {cols : List ColMetadata}

/-- Too many keys, or none, end the DELETE before its statement is built. -/
theorem deleteStatement_refused {req : DeleteRequest}
    (outside : req.keys = [] ∨ maxDelKeyCols < req.keys.length) :
    deleteStatement vendor cols req = none := by
  rw [deleteStatement, buildDeleteCtx, if_pos outside]
  rfl

/-- 32 conditions fit the buffer of the WHERE clause here too. -/
theorem delWhere_uncut {items : List Item} (few : items.length ≤ maxDelKeyCols)
    (names : ∀ item ∈ items, item.column.length ≤ nameMax)
    (short : ∀ item ∈ items, item.text.length ≤ 73) :
    (joined conjunction (items.map (·.equation))).take (delWhereListSize - 1) =
      joined conjunction (items.map (·.equation)) :=
  where_uncut few names short

theorem fitting_keys {keys : List WhereKey} (fits : KeysFit keys) :
    keys.map (fun key => key.fieldName.take nameMax) = keys.map (·.fieldName) ∧
      keys.map (fun key => key.keyValue.take (maxColValueSize - 1)) = keys.map (·.keyValue) := by
  constructor
  · apply List.map_congr_left
    intro key member
    exact List.take_of_length_le (Nat.le_of_lt_succ (fits key member).1)
  · apply List.map_congr_left
    intro key member
    have short : key.keyValue.length < 4096 := (fits key member).2
    have large : 4096 ≤ maxColValueSize - 1 := by decide
    exact List.take_of_length_le (by omega)

theorem deleteStatement_eq {req : DeleteRequest} (fits : KeysFit req.keys)
    (within : ¬(req.keys = [] ∨ maxDelKeyCols < req.keys.length)) :
    ∃ conditions : List Item,
      KeyConditions vendor 0 (req.keys.map fun key => delKeyType cols key.fieldName) req.keys
        conditions ∧
      deleteStatement vendor cols req =
        (fmt deleteSqlMax (deleteText (qualified (req.owner.take nameMax)
          (req.tableName.take nameMax)) (joined conjunction (conditions.map (·.equation))))).map
          fun sql => (sql, req.keys.map (·.keyValue)) := by
  obtain ⟨names, values⟩ := fitting_keys fits
  have types : (req.keys.map fun key => delKeyType cols (key.fieldName.take nameMax)) =
      req.keys.map fun key => delKeyType cols key.fieldName := by
    apply List.map_congr_left
    intro key member
    have whole : key.fieldName.take nameMax = key.fieldName :=
      List.take_of_length_le (Nat.le_of_lt_succ (fits key member).1)
    rw [whole]
  have few : req.keys.length ≤ maxDelKeyCols := by
    simp only [not_or, Nat.not_lt] at within
    exact within.2
  let keys : List DelKeyField := req.keys.map fun key =>
    ⟨key.fieldName.take nameMax, delKeyType cols (key.fieldName.take nameMax),
      key.keyValue.take (maxColValueSize - 1)⟩
  have keyNames : keys.map (·.fieldName) = req.keys.map (·.fieldName) := by
    rw [← names, List.map_map]
    rfl
  have bounded : ∀ key ∈ keys, key.fieldName.length ≤ nameMax := by
    intro key member
    obtain ⟨original, -, rfl⟩ := List.mem_map.mp member
    exact List.length_take_le _ _
  have count : 0 + keys.length < 100 := by
    have limit : maxDelKeyCols = 32 := rfl
    rw [List.length_map]
    omega
  have list : ∃ wheres, delWhereList vendor false [] 0 keys = some wheres :=
    delWhereList_isSome count
  obtain ⟨wheres, built⟩ := list
  obtain ⟨conditions, columns, placed, same⟩ :=
    delWhereList_eq_some bounded [] (by simpa using built)
  rw [keyNames] at columns
  have each : ∀ item ∈ conditions, item.text.length ≤ 73 ∧
      markers vendor.bindMark false item.text = 1 := placed.short
  have size : conditions.length = req.keys.length := by
    have lengths := congrArg List.length columns
    rwa [List.length_map, List.length_map] at lengths
  have columnBound : ∀ item ∈ conditions, item.column.length ≤ nameMax := by
    intro item member
    have listed : item.column ∈ req.keys.map (·.fieldName) :=
      columns ▸ List.mem_map_of_mem member
    obtain ⟨key, inside, named⟩ := List.mem_map.mp listed
    rw [← named]
    exact Nat.le_of_lt_succ (fits key inside).1
  rw [List.nil_append, ← joined,
    delWhere_uncut (by omega) columnBound fun item member => (each item member).1] at same
  refine ⟨conditions, ⟨columns, ?_, fun item member => (each item member).2⟩, ?_⟩
  · rw [List.map_map] at placed
    rw [← types]
    exact placed
  · have bound : keys.map (·.keyValue) = req.keys.map (·.keyValue) := by
      rw [← values, List.map_map]
      rfl
    rw [deleteStatement, buildDeleteCtx, if_neg within, Option.bind_eq_bind, Option.bind_some]
    show (buildDeleteSql vendor ⟨_, _, keys⟩).bind _ = _
    rw [buildDeleteSql, built, same, bound, Option.bind_eq_bind, Option.bind_some,
      Option.map_eq_bind]
    rfl

theorem updateStatement_refused {tableKey : Option (Option CString)} {heap : Bool}
    {readFile : CString → Option CString} {req : UpdateRequest}
    (outside : req.keys = [] ∨ maxUpdKeyCols < req.keys.length) :
    updateStatement vendor tableKey heap readFile cols req = none := by
  have wide : req.keys = [] ∨ maxUpdKeyCols < req.keys.length ∨ req.fields = [] ∨
      maxUpdCols < req.fields.length := outside.imp id Or.inl
  rw [updateStatement, buildUpdateCtx, if_pos wide]
  rfl

theorem updateStatement_eq_some {tableKey : Option (Option CString)} {heap : Bool}
    {readFile : CString → Option CString} {req : UpdateRequest} {sql : CString}
    {bound : List (Option CString)} (fits : KeysFit req.keys)
    (sent : updateStatement vendor tableKey heap readFile cols req = some (sql, bound)) :
    ∃ (sets conditions : List Item) (n : Nat) (mid tail : CString)
      (setValues : List (Option CString)),
      KeyConditions vendor n (req.keys.map fun key => dataTypeOf cols key.fieldName) req.keys
        conditions ∧
      sql = updateText (qualified (req.owner.take nameMax) (req.tableName.take nameMax))
        (joined comma (sets.map (·.equation))) mid
        (joined conjunction (conditions.map (·.equation))) tail ∧
      bound = setValues ++ req.keys.map (fun key => some key.keyValue) ∧
      (ReportedColumns vendor cols → setValues.length = n) := by
  simp only [updateStatement, Option.bind_eq_bind, Option.bind_eq_some_iff, Option.some.injEq,
    Prod.mk.injEq] at sent
  obtain ⟨uc, context, ⟨text, pos⟩, built, binds, bindings, rfl, rfl⟩ := sent
  obtain ⟨sets, conditions, n, mid, tail, setNames, placed, columns, ⟨m, keysPlaced, -⟩, same⟩ :=
    buildUpdateSql_eq_some context built
  obtain ⟨-, -, -, width⟩ := buildUpdateCtx_bounds context
  obtain ⟨names, values⟩ := fitting_keys fits
  rw [updateBindValues, Option.map_eq_some_iff] at bindings
  obtain ⟨setValues, row, rfl⟩ := bindings
  have aligned : ReportedColumns vendor cols → setValues.length = n := by
    intro reported
    have wide : uc.values.length = sets.length := by rw [width, ← setNames, List.length_map]
    rw [← setNames] at row
    have related := (placed.bound reported 0 wide row).length_eq
    have counted := placed.count 0
    omega
  rw [buildUpdateCtx] at context
  split at context
  · cases context
  · cases context
    dsimp only at columns same
    rw [List.map_map] at columns
    have keyNames : conditions.map (·.column) = req.keys.map (·.fieldName) := by
      rw [columns, ← names]
      rfl
    have types : (conditions.map fun item => dataTypeOf cols item.column) =
        req.keys.map fun key => dataTypeOf cols key.fieldName := by
      have mapped := congrArg (List.map (dataTypeOf cols)) keyNames
      rwa [List.map_map, List.map_map] at mapped
    have numbered := keysPlaced.conditions
    rw [types] at numbered
    refine ⟨sets, conditions, n, mid, tail, setValues, ⟨keyNames, numbered, ?_⟩, same, ?_,
      aligned⟩
    · intro item member
      exact (numbered.short item member).2
    · congr 1
      rw [List.map_map]
      have wrapped := congrArg (List.map some) values
      rwa [List.map_map, List.map_map] at wrapped

/-- The WHERE clause of every DELETE and UPDATE that is sent has one condition for each key, whole
and in the order of the values bound; a number of keys beyond the context ends the request first. -/
theorem where_clauses_complete (vendor : Vendor) (cols : List ColMetadata)
    (tableKey : Option (Option CString)) (heap : Bool) (readFile : CString → Option CString) :
    (∀ req : DeleteRequest, KeysFit req.keys →
      if req.keys = [] ∨ maxDelKeyCols < req.keys.length then
        deleteStatement vendor cols req = none
      else ∃ conditions : List Item,
        KeyConditions vendor 0 (req.keys.map fun key => delKeyType cols key.fieldName) req.keys
          conditions ∧
        deleteStatement vendor cols req =
          (fmt deleteSqlMax (deleteText (qualified (req.owner.take nameMax)
            (req.tableName.take nameMax)) (joined conjunction (conditions.map (·.equation))))).map
            fun sql => (sql, req.keys.map (·.keyValue))) ∧
    ∀ req : UpdateRequest, KeysFit req.keys →
      (req.keys = [] ∨ maxUpdKeyCols < req.keys.length →
        updateStatement vendor tableKey heap readFile cols req = none) ∧
      ∀ sql bound, updateStatement vendor tableKey heap readFile cols req = some (sql, bound) →
        ∃ (sets conditions : List Item) (n : Nat) (mid tail : CString)
          (setValues : List (Option CString)),
          KeyConditions vendor n (req.keys.map fun key => dataTypeOf cols key.fieldName) req.keys
            conditions ∧
          sql = updateText (qualified (req.owner.take nameMax) (req.tableName.take nameMax))
            (joined comma (sets.map (·.equation))) mid
            (joined conjunction (conditions.map (·.equation))) tail ∧
          bound = setValues ++ req.keys.map (fun key => some key.keyValue) ∧
          (ReportedColumns vendor cols → setValues.length = n) := by
  constructor
  · intro req fits
    split
    next outside => exact deleteStatement_refused outside
    next within => exact deleteStatement_eq fits within
  · intro req fits
    exact ⟨updateStatement_refused, fun sql bound sent => updateStatement_eq_some fits sent⟩

end Statements

instance (keys : List WhereKey) : Decidable (KeysFit keys) :=
  inferInstanceAs (Decidable (∀ key ∈ keys, _ ∧ _))

def sampleDelete : DeleteRequest :=
  ⟨"T".toList, [], [⟨"ID".toList, ['7'], []⟩, ⟨"day".toList, "2026-01-02 00:00:00".toList, []⟩]⟩

theorem where_clauses_complete_sample :
    deleteStatement .oracle sampleColumns sampleDelete =
      some ("DELETE FROM T WHERE ID=:1 AND day=TO_DATE(:2,'YYYY-MM-DD HH24:MI:SS')".toList,
        ["7".toList, "2026-01-02 00:00:00".toList]) ∧
    (∃ conditions, KeyConditions .oracle 0 ["NUMBER".toList, "DATE".toList] sampleDelete.keys
      conditions) ∧
    ∃ conditions n, KeyConditions .oracle n ["NUMBER".toList] sampleUpdate.keys conditions := by
  have complete := where_clauses_complete .oracle sampleColumns (some none) true some
  have first := complete.1 sampleDelete (by decide)
  rw [if_neg (by decide)] at first
  obtain ⟨conditions, placed, -⟩ := first
  have sent : ∃ out, updateStatement .oracle (some none) true some sampleColumns sampleUpdate =
      some out := Option.isSome_iff_exists.mp (by decide +kernel)
  obtain ⟨⟨sql, bound⟩, sent⟩ := sent
  obtain ⟨-, others, n, -, -, -, second, -⟩ :=
    (complete.2 sampleUpdate (by decide)).2 sql bound sent
  exact ⟨by decide +kernel, ⟨conditions, placed⟩, others, n, second⟩

end OciWrapper.Dml
