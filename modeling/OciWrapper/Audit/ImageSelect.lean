import OciWrapper.Dml.KeyConditions
import OciWrapper.Dml.SecondValidation
import OciWrapper.Text.Literals

namespace OciWrapper.Audit

open OciWrapper.Text OciWrapper.Dml

/-- `sql_buf` with `sql_used`; `outside` tells that `sizeof(sql_buf) - sql_used` has wrapped in a
call, which writes behind the buffer. -/
structure SelectBuffer where
  text : CString
  used : Nat
  outside : Bool
  deriving DecidableEq

/-- `sql_used += (size_t)snprintf(sql_buf + sql_used, sizeof(sql_buf) - sql_used, ...)`. -/
def SelectBuffer.add (b : SelectBuffer) (piece : CString) : SelectBuffer where
  text := b.text ++ piece.take (sqlMax - b.used - 1)
  used := b.used + piece.length
  outside := b.outside || decide (sqlMax < b.used)

def escapedMax : Nat := 65536

/-- The loop that doubles the quotes of a key, with `ei`. -/
def escapeKey : Nat → CString → CString
  | _, [] => []
  | ei, c :: s =>
    if ei < escapedMax - 2 then
      if c = '\'' then '\'' :: c :: escapeKey (ei + 2) s else c :: escapeKey (ei + 1) s
    else []

/-- A key of the statement; its type is absent where `key_data_types` is NULL. -/
structure ImageKey where
  name : CString
  value : CString
  dataType : Option CString

/-- `value_expr` for a key. -/
def keyExpr (vendor : Vendor) (key : ImageKey) : Option CString :=
  let quotedVal := ('\'' :: escapeKey 0 key.value ++ ['\'']).take 65599
  match key.dataType with
  | some dtype => vendor.valueExpr dtype quotedVal 65700
  | none => some (quotedVal.take 65699)

/-- `snprintf(..., " %s %s = %s", ...)`. -/
def condition (started : Bool) (name expr : CString) : CString :=
  (if started then " AND ".toList else " WHERE ".toList) ++ name ++ " = ".toList ++ expr

def addColumns : Bool → SelectBuffer → List CString → SelectBuffer
  | _, b, [] => b
  | started, b, colName :: colNames =>
    addColumns true ((if started then b.add comma else b).add colName) colNames

def addKeys (vendor : Vendor) : Bool → SelectBuffer → List ImageKey → Option SelectBuffer
  | _, b, [] => some b
  | started, b, key :: keys => do
    let expr ← keyExpr vendor key
    addKeys vendor true (b.add (condition started key.name expr)) keys

/-- The SELECT of `audit_trail_fetch_before_image`. -/
def beforeImageSelect (vendor : Vendor) (tableName owner : CString) (colNames : List CString)
    (keys : List ImageKey) : Option SelectBuffer :=
  let b := addColumns false (SelectBuffer.add ⟨[], 0, false⟩ "SELECT ".toList) colNames
  addKeys vendor false (b.add (" FROM ".toList ++ qualified owner tableName)) keys

/-- The SELECT that `execute_update_batch` asks for. -/
def updateImageSelect (vendor : Vendor) (cols : List ColMetadata) (uc : UpdateCtx) :
    Option SelectBuffer :=
  beforeImageSelect vendor uc.tableName uc.owner uc.colNames <| uc.keys.map fun key =>
    ⟨key.fieldName, key.keyValue, some (delKeyType cols key.fieldName)⟩

/-- The SELECT that `execute_delete_batch` asks for: its columns are the keys. -/
def deleteImageSelect (vendor : Vendor) (dc : DeleteCtx) : Option SelectBuffer :=
  beforeImageSelect vendor dc.tableName dc.owner (dc.keys.map (·.fieldName)) <|
    dc.keys.map fun key => ⟨key.fieldName, key.keyValue, some key.fieldType⟩

/-- What stands around the literal of a key. -/
def ImageKey.wrap (vendor : Vendor) (key : ImageKey) : CString × CString :=
  (key.dataType.map vendor.valueWrap).getD ([], [])

/-- The conditions of the keys, with a literal for each. -/
def conditions (vendor : Vendor) : Bool → List ImageKey → List CString → CString
  | started, key :: keys, text :: texts =>
    condition started key.name ((key.wrap vendor).1 ++ text ++ (key.wrap vendor).2) ++
      conditions vendor true keys texts
  | _, _, _ => []

def selectText (colNames : List CString) (target wheres : CString) : CString :=
  "SELECT ".toList ++ joined comma colNames ++ (" FROM ".toList ++ target) ++ wheres

/-- The statement is whole, its literals denote the values of the keys, and no call has started
behind the buffer. -/
structure WholeSelect (vendor : Vendor) (target : CString) (colNames : List CString)
    (keys : List ImageKey) (b : SelectBuffer) : Prop where
  text : ∃ texts, List.Forall₂ (fun key text => Denotes text key.value) keys texts ∧
    b.text = selectText colNames target (conditions vendor false keys texts)
  used : b.used ≤ sqlMax
  inside : b.outside = false

/-- The characters that a condition takes. -/
def keyRoom (vendor : Vendor) (key : ImageKey) : Nat :=
  key.name.length + (key.wrap vendor).1.length + (key.wrap vendor).2.length + key.value.length +
    key.value.count '\'' + 10

/-- The lengths of the names, and of the values with their quotes doubled, leave room for the end of
the text in its buffer. -/
def SelectFits (vendor : Vendor) (target : CString) (colNames : List CString)
    (keys : List ImageKey) : Prop :=
  13 + (colNames.map List.length).sum + 2 * (colNames.length - 1) + target.length +
    (keys.map (keyRoom vendor)).sum + (if keys = [] then 0 else 2) < sqlMax

instance (vendor : Vendor) (target : CString) (colNames : List CString) (keys : List ImageKey) :
    Decidable (SelectFits vendor target colNames keys) :=
  inferInstanceAs (Decidable (_ < _))

section Buffer

/-- The buffer after calls that write `full` together. -/
structure Written (full : CString) (b : SelectBuffer) : Prop where
  text : b.text = full.take (sqlMax - 1)
  used : b.used = full.length
  inside : full.length ≤ sqlMax → b.outside = false

theorem Written.add {full : CString} {b : SelectBuffer} (written : Written full b)
    (piece : CString) : Written (full ++ piece) (b.add piece) where
  text := by
    rw [SelectBuffer.add, written.text, written.used, List.take_append, Nat.sub_right_comm]
  used := by rw [SelectBuffer.add, written.used, List.length_append]
  inside := by
    intro room
    rw [List.length_append] at room
    have before : b.outside = false := written.inside (by omega)
    have start : ¬sqlMax < b.used := by
      rw [written.used]
      omega
    rw [SelectBuffer.add, before, decide_eq_false start, Bool.or_false]

theorem addColumns_written {colNames : List CString} :
    ∀ (started : Bool) {full : CString} {b : SelectBuffer}, Written full b →
      Written (full ++ joinFrom comma started colNames) (addColumns started b colNames) := by
  induction colNames with
  | nil =>
    intro started full b written
    rwa [joinFrom, List.append_nil, addColumns]
  | cons colName colNames ih =>
    intro started full b written
    have separated : Written (full ++ if started then comma else [])
        (if started then b.add comma else b) := by
      split
      · exact written.add comma
      · rwa [List.append_nil]
    have rest := ih true (separated.add colName)
    rwa [addColumns, joinFrom, ← List.append_assoc, ← List.append_assoc]

end Buffer

section Keys

variable {vendor : Vendor}

theorem escapeKey_eq (s : CString) :
    ∀ {ei : Nat}, ei + 2 * s.length < escapedMax - 1 → escapeKey ei s = doubled s := by
  induction s with
  | nil =>
    intro ei _
    rfl
  | cons c s ih =>
    intro ei room
    rw [List.length_cons] at room
    rw [escapeKey, doubled, if_pos (by omega)]
    split
    next quote => rw [ih (by omega), quote]
    next => rw [ih (by omega)]

theorem keyExpr_eq (vendor : Vendor) {key : ImageKey} (small : Fits 4096 key.value) :
    keyExpr vendor key =
      some ((key.wrap vendor).1 ++ literal key.value ++ (key.wrap vendor).2) := by
  have bound : key.value.length < 4096 := small
  have quotes := List.count_le_length (a := '\'') (l := key.value)
  have length := literal_length key.value
  have escaped : '\'' :: escapeKey 0 key.value ++ ['\''] = literal key.value := by
    have room : 0 + 2 * key.value.length < escapedMax - 1 := by
      rw [escapedMax]
      omega
    rw [escapeKey_eq key.value room, literal]
  have whole : (literal key.value).take 65599 = literal key.value :=
    List.take_of_length_le (by omega)
  rw [keyExpr, escaped, whole]
  cases type : key.dataType with
  | none =>
    have uncut : (literal key.value).take 65699 = literal key.value :=
      List.take_of_length_le (by omega)
    simp [ImageKey.wrap, type, uncut]
  | some dtype =>
    have wrap := vendor.valueWrap_length dtype
    have room : ((vendor.valueWrap dtype).1 ++ literal key.value ++
        (vendor.valueWrap dtype).2).length < 65700 := by
      simp only [List.length_append]
      omega
    simp only [ImageKey.wrap, type, Vendor.valueExpr, fmt, if_pos room, Option.map_some,
      Option.getD_some]

theorem addKeys_written {keys : List ImageKey} (small : ∀ key ∈ keys, Fits 4096 key.value) :
    ∀ (started : Bool) {full : CString} {b : SelectBuffer}, Written full b →
      ∃ last, addKeys vendor started b keys = some last ∧
        Written (full ++ conditions vendor started keys (keys.map fun key => literal key.value))
          last := by
  induction keys with
  | nil =>
    intro started full b written
    refine ⟨b, rfl, ?_⟩
    simpa [conditions] using written
  | cons key keys ih =>
    intro started full b written
    have expr := keyExpr_eq vendor (small key List.mem_cons_self)
    rw [addKeys, expr, Option.bind_eq_bind, Option.bind_some]
    obtain ⟨last, made, rest⟩ := ih (fun other member => small other (List.mem_cons_of_mem key member))
      true (written.add (condition started key.name _))
    refine ⟨last, made, ?_⟩
    rwa [List.map_cons, conditions, ← List.append_assoc]

theorem forall₂_denotes_iff {keys : List ImageKey} {texts : List CString} :
    List.Forall₂ (fun key text => Denotes text key.value) keys texts ↔
      texts = keys.map fun key => literal key.value := by
  simp only [denotes_iff]
  rw [← List.forall₂_map_left_iff (f := fun key : ImageKey => literal key.value) (R := fun a b => b = a)]
  constructor
  · intro same
    exact (List.forall₂_eq_eq_eq ▸ same.flip)
  · rintro rfl
    exact List.forall₂_same.mpr fun _ _ => rfl

theorem conditions_length (keys : List ImageKey) (started : Bool) :
    (conditions vendor started keys (keys.map fun key => literal key.value)).length =
      (keys.map (keyRoom vendor)).sum + if keys = [] ∨ started then 0 else 2 := by
  induction keys generalizing started with
  | nil => rfl
  | cons key keys ih =>
    have opening : (if started then " AND ".toList else " WHERE ".toList).length =
        5 + if started then 0 else 2 := by
      cases started <;> rfl
    have equals : " = ".toList.length = 3 := rfl
    simp only [List.map_cons, conditions, condition, List.length_append, ih, opening, equals,
      literal_length, List.sum_cons, keyRoom, or_true, if_true, reduceCtorEq, false_or]
    omega

theorem joinFrom_comma_length (colNames : List CString) (started : Bool) :
    (joinFrom comma started colNames).length = (colNames.map List.length).sum +
      2 * (if started then colNames.length else colNames.length - 1) := by
  have comma_length : comma.length = 2 := rfl
  induction colNames generalizing started with
  | nil => cases started <;> rfl
  | cons colName colNames ih =>
    cases started
    · simp only [joinFrom, List.length_append, ih, List.map_cons, List.sum_cons, List.length_cons]
      simp [Nat.add_assoc]
    · simp only [joinFrom, List.length_append, ih, List.map_cons, List.sum_cons, List.length_cons,
        comma_length, if_true]
      omega

theorem selectText_length (target : CString) (colNames : List CString) (keys : List ImageKey) :
    (selectText colNames target
      (conditions vendor false keys (keys.map fun key => literal key.value))).length =
      13 + (colNames.map List.length).sum + 2 * (colNames.length - 1) + target.length +
        (keys.map (keyRoom vendor)).sum + (if keys = [] then 0 else 2) := by
  have parts : ∀ opening source : CString, opening.length = 7 → source.length = 6 →
      (opening ++ joined comma colNames ++ (source ++ target) ++
        conditions vendor false keys (keys.map fun key => literal key.value)).length =
        13 + (colNames.map List.length).sum + 2 * (colNames.length - 1) + target.length +
          (keys.map (keyRoom vendor)).sum + (if keys = [] then 0 else 2) := by
    intro opening source seven six
    have columns := joinFrom_comma_length colNames false
    simp only [Bool.false_eq_true, if_false] at columns
    simp only [List.length_append, seven, six, joined, columns, conditions_length,
      Bool.false_eq_true, or_false]
    omega
  exact parts _ _ rfl rfl

/-- All that the calls for the SELECT write. -/
def fullSelect (vendor : Vendor) (tableName owner : CString) (colNames : List CString)
    (keys : List ImageKey) : CString :=
  selectText colNames (qualified owner tableName)
    (conditions vendor false keys (keys.map fun key => literal key.value))

variable {tableName owner : CString} {colNames : List CString} {keys : List ImageKey}

theorem selectFits_iff : SelectFits vendor (qualified owner tableName) colNames keys ↔
    (fullSelect vendor tableName owner colNames keys).length < sqlMax := by
  rw [SelectFits, fullSelect, selectText_length]

theorem beforeImageSelect_written (small : ∀ key ∈ keys, Fits 4096 key.value) :
    ∃ b, beforeImageSelect vendor tableName owner colNames keys = some b ∧
      Written (fullSelect vendor tableName owner colNames keys) b := by
  have start : Written [] ⟨[], 0, false⟩ := ⟨rfl, rfl, fun _ => rfl⟩
  exact addKeys_written small false
    ((addColumns_written false (start.add "SELECT ".toList)).add (" FROM ".toList ++ qualified owner tableName))

/-- The SELECT is what it should be exactly when it fits. -/
theorem Written.whole_iff {b : SelectBuffer}
    (written : Written (fullSelect vendor tableName owner colNames keys) b) :
    WholeSelect vendor (qualified owner tableName) colNames keys b ↔
      SelectFits vendor (qualified owner tableName) colNames keys := by
  have room : 0 < sqlMax := by decide
  rw [selectFits_iff]
  constructor
  · rintro ⟨⟨texts, denoted, text⟩, -, -⟩
    rw [forall₂_denotes_iff.mp denoted, written.text] at text
    have cut := congrArg List.length text
    rw [List.length_take] at cut
    have least := Nat.min_le_left (sqlMax - 1)
      (fullSelect vendor tableName owner colNames keys).length
    have same : _ = (fullSelect vendor tableName owner colNames keys).length := cut
    omega
  · intro short
    refine ⟨⟨_, forall₂_denotes_iff.mpr rfl, ?_⟩, ?_, written.inside (by omega)⟩
    · rw [written.text]
      exact List.take_of_length_le (by omega)
    · rw [written.used]
      omega

end Keys

section Requests

variable {cols : List ColMetadata} {owner tableName : CString}

theorem normalized_fits {realDataType value format value' format' : CString}
    {today : Dates.Today} (small : Fits 4096 value)
    (normalized : normalizeClientDateValue realDataType value format today =
      .ok (value', format')) : Fits 4096 value' := by
  rw [normalizeClientDateValue] at normalized
  dsimp only at normalized
  split at normalized
  · cases normalized
    exact small
  · split at normalized
    · cases normalized
      exact small
    · split at normalized
      · cases normalized
        exact Nat.lt_succ_of_le (List.length_take_le _ _)
      · cases normalized
      · cases normalized

theorem checkKey_fits (today : Dates.Today) {wk : WhereKey}
    (fits : Fits 128 wk.fieldName ∧ Fits 4096 wk.keyValue) :
    Fits 128 (checkKey cols owner tableName today wk).1.fieldName ∧
      Fits 4096 (checkKey cols owner tableName today wk).1.keyValue := by
  rw [checkKey]
  split
  · exact fits
  · split
    · exact fits
    next normalized => exact ⟨fits.1, normalized_fits fits.2 normalized⟩

theorem checkKeys_fit (today : Nat → Dates.Today) {keys : List WhereKey} (fits : KeysFit keys) :
    ∀ i, KeysFit (checkEach (fun k => checkKey cols owner tableName (today k)) i keys).1 := by
  induction keys with
  | nil =>
    intro i key member
    cases member
  | cons wk keys ih =>
    intro i key member
    rcases List.mem_cons.mp member with rfl | later
    · exact checkKey_fits (today i) (fits wk List.mem_cons_self)
    · exact ih (fun other inside => fits other (List.mem_cons_of_mem wk inside)) (i + 1) key later

theorem level2ValidateUpdate_keys_fit (ctx : Level2Context) (calendar : Calendar)
    {req : UpdateRequest} (fits : KeysFit req.keys) :
    KeysFit (level2ValidateUpdate ctx calendar req).2.keys := by
  rw [level2ValidateUpdate]
  split_ifs
  · exact fits
  · exact fits
  · exact fits
  · split
    · exact fits
    · exact checkKeys_fit (calendar 0) fits 0

theorem level2ValidateDelete_keys_fit (ctx : Level2Context) (calendar : Calendar)
    {req : DeleteRequest} (fits : KeysFit req.keys) :
    KeysFit (level2ValidateDelete ctx calendar req).2.keys := by
  rw [level2ValidateDelete]
  split_ifs
  · exact fits
  · exact fits
  · split
    · exact fits
    · exact checkKeys_fit (calendar 0) fits 0

/-- The keys of a request, with the types of their columns. -/
def imageKeys (cols : List ColMetadata) (keys : List WhereKey) : List ImageKey :=
  keys.map fun key => ⟨key.fieldName, key.keyValue, some (delKeyType cols key.fieldName)⟩

theorem imageKeys_fit {keys : List WhereKey} (fits : KeysFit keys) :
    ∀ key ∈ imageKeys cols keys, Fits 4096 key.value := by
  intro key member
  obtain ⟨wk, inside, rfl⟩ := List.mem_map.mp member
  exact (fits wk inside).2

theorem copiedKey {wk : WhereKey} (fits : Fits 128 wk.fieldName ∧ Fits 4096 wk.keyValue) :
    wk.fieldName.take nameMax = wk.fieldName ∧
      wk.keyValue.take (maxColValueSize - 1) = wk.keyValue := by
  have small : wk.keyValue.length < 4096 := fits.2
  have large : 4096 ≤ maxColValueSize - 1 := by decide
  exact ⟨List.take_of_length_le (Nat.le_of_lt_succ fits.1), List.take_of_length_le (by omega)⟩

variable (vendor : Vendor)

theorem updateImageSelect_eq {heap : Bool} {req : UpdateRequest} {uc : UpdateCtx}
    (fits : KeysFit req.keys) (names : ∀ field ∈ req.fields, Fits 128 field.fieldName)
    (context : buildUpdateCtx heap req = some uc) :
    updateImageSelect vendor cols uc = beforeImageSelect vendor (req.tableName.take nameMax)
      (req.owner.take nameMax) (req.fields.map (·.fieldName)) (imageKeys cols req.keys) := by
  rw [buildUpdateCtx] at context
  split at context
  · cases context
  · cases context
    rw [updateImageSelect, imageKeys, List.map_map]
    congr 1
    · apply List.map_congr_left
      intro field member
      exact List.take_of_length_le (Nat.le_of_lt_succ (names field member))
    · apply List.map_congr_left
      intro key member
      obtain ⟨name, value⟩ := copiedKey (fits key member)
      simp only [Function.comp_apply, name, value]

theorem deleteImageSelect_eq {req : DeleteRequest} {dc : DeleteCtx} (fits : KeysFit req.keys)
    (context : buildDeleteCtx cols req = some dc) :
    deleteImageSelect vendor dc = beforeImageSelect vendor (req.tableName.take nameMax)
      (req.owner.take nameMax) (req.keys.map (·.fieldName)) (imageKeys cols req.keys) := by
  rw [buildDeleteCtx] at context
  split at context
  · cases context
  · cases context
    rw [deleteImageSelect, imageKeys, List.map_map, List.map_map]
    congr 1
    · apply List.map_congr_left
      intro key member
      exact (copiedKey (fits key member)).1
    · apply List.map_congr_left
      intro key member
      obtain ⟨name, value⟩ := copiedKey (fits key member)
      simp only [Function.comp_apply, name, value]

/-- The target of the statement that reads the rows of a request. -/
def imageTarget (owner tableName : CString) : CString :=
  qualified (owner.take nameMax) (tableName.take nameMax)

/-- The before-image SELECT of a checked UPDATE or DELETE has all its columns and keys exactly when
they fit the buffer together. -/
theorem before_image_select_iff (cols : List ColMetadata) (ctx : Level2Context)
    (calendar : Calendar) :
    (∀ req req' : UpdateRequest, KeysFit req.keys →
      (level2ValidateUpdate ctx calendar req).2 = req' →
      (∀ field ∈ req'.fields, Fits 128 field.fieldName) → ∀ heap uc,
      buildUpdateCtx heap req' = some uc →
      ∃ b, updateImageSelect vendor cols uc = some b ∧
        (WholeSelect vendor (imageTarget req'.owner req'.tableName)
            (req'.fields.map (·.fieldName)) (imageKeys cols req'.keys) b ↔
          SelectFits vendor (imageTarget req'.owner req'.tableName)
            (req'.fields.map (·.fieldName)) (imageKeys cols req'.keys))) ∧
    ∀ req req' : DeleteRequest, KeysFit req.keys →
      (level2ValidateDelete ctx calendar req).2 = req' → ∀ dc, buildDeleteCtx cols req' = some dc →
      ∃ b, deleteImageSelect vendor dc = some b ∧
        (WholeSelect vendor (imageTarget req'.owner req'.tableName)
            (req'.keys.map (·.fieldName)) (imageKeys cols req'.keys) b ↔
          SelectFits vendor (imageTarget req'.owner req'.tableName)
            (req'.keys.map (·.fieldName)) (imageKeys cols req'.keys)) := by
  constructor
  · rintro req _ fits rfl names heap uc context
    have checked := level2ValidateUpdate_keys_fit ctx calendar fits
    rw [updateImageSelect_eq vendor checked names context]
    obtain ⟨b, made, written⟩ := beforeImageSelect_written (imageKeys_fit checked)
    exact ⟨b, made, written.whole_iff⟩
  · rintro req _ fits rfl dc context
    have checked := level2ValidateDelete_keys_fit ctx calendar fits
    rw [deleteImageSelect_eq vendor checked context]
    obtain ⟨b, made, written⟩ := beforeImageSelect_written (imageKeys_fit checked)
    exact ⟨b, made, written.whole_iff⟩

end Requests

def keyColumn : ColMetadata := ⟨"KEY".toList, "VARCHAR2".toList, 32767, -1, -1, ['N'], []⟩

def keyContext : Level2Context where
  maxBulkInserts := 100
  metadata := fun _ _ => some [keyColumn]
  validateField := fun _ => .ok ()

def quotedDelete : DeleteRequest := ⟨"T".toList, [], [⟨"KEY".toList, "O'Neill".toList, []⟩]⟩

theorem before_image_select_quoted :
    level2ValidateDelete keyContext (fun _ _ => ⟨2026, 10⟩) quotedDelete = (setOk, quotedDelete) ∧
    ∃ dc b, buildDeleteCtx [keyColumn] quotedDelete = some dc ∧
      deleteImageSelect .oracle dc = some b ∧
      b.text = "SELECT KEY FROM T WHERE KEY = 'O''Neill'".toList ∧
      WholeSelect .oracle ['T'] ["KEY".toList] (imageKeys [keyColumn] quotedDelete.keys) b := by
  have checked : level2ValidateDelete keyContext (fun _ _ => ⟨2026, 10⟩) quotedDelete =
      (setOk, quotedDelete) := by
    decide +kernel
  have built : ∃ dc, buildDeleteCtx [keyColumn] quotedDelete = some dc := ⟨_, rfl⟩
  obtain ⟨dc, built⟩ := built
  have text : (deleteImageSelect .oracle dc).map (·.text) =
      some "SELECT KEY FROM T WHERE KEY = 'O''Neill'".toList := by
    cases built
    decide +kernel
  obtain ⟨b, made, whole⟩ := (before_image_select_iff .oracle [keyColumn] keyContext
    fun _ _ => ⟨2026, 10⟩).2 quotedDelete quotedDelete (by decide) (by rw [checked]) dc built
  rw [made] at text
  exact ⟨checked, dc, b, built, made, Option.some.inj text, whole.mpr (by decide +kernel)⟩

def longKey : WhereKey := ⟨"KEY".toList, List.replicate 4095 'a', []⟩

def longDelete : DeleteRequest := ⟨"T".toList, [], List.replicate 17 longKey⟩

theorem longDelete_checked (calendar : Calendar) :
    level2ValidateDelete keyContext calendar longDelete = (setOk, longDelete) := by
  have column : findColumn [keyColumn] longKey.fieldName = some keyColumn := by decide
  have string : dbTypeClass keyColumn.dataType = .string := by decide +kernel
  have filled : longKey.keyValue ≠ [] := List.cons_ne_nil 'a' (List.replicate 4094 'a')
  have passes : ∀ today, checkKey [keyColumn] [] "T".toList today longKey = (longKey, []) := by
    intro today
    simp [checkKey, column, normalizeClientDateValue, string, filled]
  have all : ∀ n i, checkEach (fun k => checkKey [keyColumn] [] "T".toList (calendar 0 k)) i
      (List.replicate n longKey) = (List.replicate n longKey, []) := by
    intro n
    induction n with
    | zero => exact fun _ => rfl
    | succ n ih =>
      intro i
      rw [List.replicate_succ, checkEach, passes, ih]
      rfl
  have keyed : longDelete.keys ≠ [] := by simp [longDelete]
  have named : longDelete.tableName ≠ [] := by decide
  rw [level2ValidateDelete, if_neg named, if_neg keyed]
  simp only [keyContext, longDelete, all]
  rfl

/-- Seventeen keys of 4095 characters carry the offset behind the end of the buffer. -/
theorem long_keys_leave_buffer :
    level2ValidateDelete keyContext (fun _ _ => ⟨2026, 10⟩) longDelete = (setOk, longDelete) ∧
    KeysFit longDelete.keys ∧
    ∃ dc b, buildDeleteCtx [keyColumn] longDelete = some dc ∧
      deleteImageSelect .oracle dc = some b ∧ sqlMax < b.used ∧
      ¬WholeSelect .oracle ['T'] (longDelete.keys.map (·.fieldName))
        (imageKeys [keyColumn] longDelete.keys) b := by
  have value : longKey.keyValue.length = 4095 := List.length_replicate
  have fits : KeysFit longDelete.keys := by
    intro key member
    rw [List.eq_of_mem_replicate member]
    exact ⟨by decide, by rw [Fits, value]; decide⟩
  have built : ∃ dc, buildDeleteCtx [keyColumn] longDelete = some dc := by
    rw [buildDeleteCtx, if_neg (by simp [longDelete, maxDelKeyCols])]
    exact ⟨_, rfl⟩
  obtain ⟨dc, built⟩ := built
  have small : ∀ key ∈ imageKeys [keyColumn] longDelete.keys, Fits 4096 key.value :=
    imageKeys_fit fits
  obtain ⟨b, made, written⟩ := @beforeImageSelect_written .oracle ['T'] []
    (longDelete.keys.map (·.fieldName)) _ small
  have long : sqlMax < (fullSelect .oracle ['T'] [] (longDelete.keys.map (·.fieldName))
      (imageKeys [keyColumn] longDelete.keys)).length := by
    have least : 4095 ≤ keyRoom .oracle ⟨longKey.fieldName, longKey.keyValue,
        some (delKeyType [keyColumn] longKey.fieldName)⟩ := by
      rw [keyRoom, value]
      omega
    have rooms : 17 * 4095 ≤ ((imageKeys [keyColumn] longDelete.keys).map (keyRoom .oracle)).sum := by
      rw [imageKeys, longDelete, List.map_replicate, List.map_replicate, List.sum_replicate,
        smul_eq_mul]
      exact Nat.mul_le_mul_left 17 least
    have size : sqlMax = 65536 := rfl
    rw [fullSelect, selectText_length]
    omega
  refine ⟨longDelete_checked _, fits, dc, b, built, ?_, ?_, ?_⟩
  · rw [deleteImageSelect_eq .oracle fits built]
    exact made
  · rw [written.used]
    exact long
  · intro whole
    have short := selectFits_iff.mp (written.whole_iff.mp whole)
    omega

end OciWrapper.Audit
