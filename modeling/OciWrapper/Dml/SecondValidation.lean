import OciWrapper.Dates.CanonicalReading
import OciWrapper.Dml.Level2Validate

namespace OciWrapper.Dml

open OciWrapper.Text OciWrapper.Dates

/-- `LEVEL2_OK`. -/
def level2Ok : Int := 0

section Loops

variable {α β : Type} {check recheck : Nat → α → Checked α}

theorem checkEach_settled
    (settled : ∀ i a, (check i a).2 = [] → recheck i (check i a).1 = ((check i a).1, []))
    (i : Nat) (entries : List α) (passed : (checkEach check i entries).2 = []) :
    checkEach recheck i (checkEach check i entries).1 = ((checkEach check i entries).1, []) := by
  induction entries generalizing i with
  | nil => rfl
  | cons a rest ih =>
    simp only [checkEach, List.append_eq_nil_iff] at passed ⊢
    rw [settled i a passed.1, ih (i + 1) passed.2]
    rfl

theorem checkEach_keeps (part : α → β) (kept : ∀ i a, part (check i a).1 = part a) (i : Nat)
    (entries : List α) : (checkEach check i entries).1.map part = entries.map part := by
  induction entries generalizing i with
  | nil => rfl
  | cons a rest ih => simp only [checkEach, List.map_cons, kept, ih]

theorem checkEach_eq_nil (i : Nat) (entries : List α) :
    (checkEach check i entries).1 = [] ↔ entries = [] := by
  cases entries <;> simp [checkEach]

end Loops

/-- A value that `normalize_client_date_value` has passed is left alone by it. -/
theorem normalizeClientDateValue_settled {realDataType value format value' format' : CString}
    {today : Today} (later : Today)
    (passed : normalizeClientDateValue realDataType value format today = .ok (value', format')) :
    normalizeClientDateValue realDataType value' format' later = .ok (value', format') := by
  unfold normalizeClientDateValue at passed
  dsimp only at passed
  split at passed
  next plain =>
    cases passed
    simp only [normalizeClientDateValue, if_pos plain]
  next dated =>
  split at passed
  next empty =>
    cases passed
    simp only [normalizeClientDateValue, if_neg dated, if_pos empty]
  next full =>
  split at passed
  next normalized ran =>
    cases passed
    obtain ⟨text, short⟩ := dateNormalize_length ran
    have whole : normalized.take (valueSize - 1) = normalized := by
      apply List.take_of_length_le
      rw [dateNormalizeOutMax] at short
      rw [valueSize]
      omega
    rw [whole]
    simp only [normalizeClientDateValue, if_neg dated, if_neg text, dateNormalize_fixed ran, whole]
  · cases passed
  · cases passed

section Entries

variable {ctx : Level2Context} {cols : List ColMetadata} {owner tableName subject : CString}
  {rejected : CString → CString} {today : Today} {f : Nat} {fv : FieldValue} {wk : WhereKey}

theorem checkField_keeps_name :
    (checkField ctx cols owner tableName subject rejected today f fv).1.fieldName =
      fv.fieldName := by
  unfold checkField
  split
  · rfl
  split
  · rfl
  dsimp only
  split <;> rfl

theorem checkField_settled (subject' : CString) (rejected' : CString → CString) (later : Today)
    (passed : (checkField ctx cols owner tableName subject rejected today f fv).2 = []) :
    checkField ctx cols owner tableName subject' rejected' later f
        (checkField ctx cols owner tableName subject rejected today f fv).1 =
      ((checkField ctx cols owner tableName subject rejected today f fv).1, []) := by
  cases found : findColumn cols fv.fieldName with
  | none => simp [checkField, found] at passed
  | some col =>
    cases dated : normalizeClientDateValue col.dataType fv.value fv.clientDateFormat today with
    | error reason => simp [checkField, found, dated] at passed
    | ok left =>
      obtain ⟨value, format⟩ := left
      have again := normalizeClientDateValue_settled later dated
      cases valid : ctx.validateField (parsedField f
          { fv with value := value, clientDateFormat := format } col) with
      | error reason => simp [checkField, found, dated, valid] at passed
      | ok checked => simp [checkField, found, dated, valid, again]

theorem checkKey_settled (later : Today) (passed : (checkKey cols owner tableName today wk).2 = []) :
    checkKey cols owner tableName later (checkKey cols owner tableName today wk).1 =
      ((checkKey cols owner tableName today wk).1, []) := by
  cases found : findColumn cols wk.fieldName with
  | none => simp [checkKey, found] at passed
  | some col =>
    cases dated : normalizeClientDateValue col.dataType wk.keyValue wk.clientDateFormat today with
    | error reason => simp [checkKey, found, dated] at passed
    | ok left =>
      obtain ⟨value, format⟩ := left
      have again := normalizeClientDateValue_settled later dated
      by_cases empty : value = []
      · simp [checkKey, found, dated, empty] at passed
      · simp [checkKey, found, dated, again, empty]

end Entries

def rowNames (row : List FieldValue) : List CString := row.map (·.fieldName)

theorem rowFieldSetsMatch_eq (reference row : List FieldValue) :
    rowFieldSetsMatch reference row = ((rowNames reference).length == (rowNames row).length &&
      (rowNames reference).all fun name => (rowNames row).any fun other =>
        strcasecmp name other) := by
  simp only [rowFieldSetsMatch, rowNames, List.length_map, List.all_map, List.any_map]
  rfl

section Rows

variable {ctx : Level2Context} {cols : List ColMetadata} {owner tableName : CString}
  {calendar : Calendar}

theorem checkRow_keeps_names (r : Nat) (row : List FieldValue) :
    rowNames (checkRow ctx cols owner tableName calendar r row).1 = rowNames row :=
  checkEach_keeps FieldValue.fieldName (fun _ _ => checkField_keeps_name) 0 row

theorem checkRow_settled (second : Calendar) (r : Nat) (row : List FieldValue)
    (passed : (checkRow ctx cols owner tableName calendar r row).2 = []) :
    checkRow ctx cols owner tableName second r
        (checkRow ctx cols owner tableName calendar r row).1 =
      ((checkRow ctx cols owner tableName calendar r row).1, []) := by
  simp only [checkRow, List.append_eq_nil_iff] at passed ⊢
  have settled (f : Nat) (fv : FieldValue)
      (valid : (checkRowField ctx cols owner tableName r (calendar r f) f fv).2 = []) :
      checkRowField ctx cols owner tableName r (second r f) f
          (checkRowField ctx cols owner tableName r (calendar r f) f fv).1 =
        ((checkRowField ctx cols owner tableName r (calendar r f) f fv).1, []) :=
    checkField_settled _ _ (second r f) valid
  rw [checkEach_settled settled 0 row passed.1]
  simp only [passed.2, List.append_nil]

theorem rows_match_iff (rows : List (List FieldValue)) :
    (rows.tail.all fun row => rowFieldSetsMatch (rows.headD []) row) =
      ((rows.map rowNames).tail.all fun names =>
        (((rows.map rowNames).headD []).length == names.length &&
          ((rows.map rowNames).headD []).all fun name => names.any fun other =>
            strcasecmp name other)) := by
  cases rows with
  | nil => rfl
  | cons row rows =>
    simp only [List.tail_cons, List.headD_cons, List.map_cons, List.all_map, rowFieldSetsMatch_eq]
    rfl

end Rows

theorem verdict_ok {failures : List CString} (passed : (verdict failures).statusCode = level2Ok) :
    failures = [] := by
  cases failures with
  | nil => rfl
  | cons first rest => cases passed

/-- What an INSERT has passed when its rows come to be checked. -/
structure InsertShape (ctx : Level2Context) (req : InsertRequest) (cols : List ColMetadata) :
    Prop where
  rows : req.rows ≠ []
  room : ¬ (0 < ctx.maxBulkInserts ∧ ctx.maxBulkInserts < req.rows.length)
  table : req.tableName ≠ []
  sets : (req.rows.tail.all fun row => rowFieldSetsMatch (req.rows.headD []) row) = true
  metadata : ctx.metadata (req.tableName.take 127) (req.owner.take 127) = some cols

def checkRows (ctx : Level2Context) (calendar : Calendar) (req : InsertRequest)
    (cols : List ColMetadata) : Checked (List (List FieldValue)) :=
  checkEach (checkRow ctx cols req.owner req.tableName calendar) 0 req.rows

theorem level2ValidateInsert_of_shape {ctx : Level2Context} {req : InsertRequest}
    {cols : List ColMetadata} (calendar : Calendar) (shape : InsertShape ctx req cols) :
    level2ValidateInsert ctx calendar req = (verdict (checkRows ctx calendar req cols).2,
      { req with rows := (checkRows ctx calendar req cols).1 }) := by
  rw [level2ValidateInsert, if_neg shape.rows, if_neg shape.room, if_neg shape.table, shape.sets,
    shape.metadata]
  rfl

theorem insertShape_of_ok {ctx : Level2Context} {calendar : Calendar} {req : InsertRequest}
    (passed : (level2ValidateInsert ctx calendar req).1.statusCode = level2Ok) :
    ∃ cols, InsertShape ctx req cols := by
  unfold level2ValidateInsert at passed
  split at passed
  · cases passed
  next rows =>
  split at passed
  · cases passed
  next room =>
  split at passed
  · cases passed
  next table =>
  split at passed
  · cases passed
  next sets =>
  split at passed
  · cases passed
  next cols found => exact ⟨cols, rows, room, table, by simpa using sets, found⟩

/-- The checks of the rows leave the shape of the request. -/
theorem InsertShape.after {ctx : Level2Context} {req : InsertRequest} {cols : List ColMetadata}
    (shape : InsertShape ctx req cols) (calendar : Calendar) :
    InsertShape ctx { req with rows := (checkRows ctx calendar req cols).1 } cols := by
  have names : (checkRows ctx calendar req cols).1.map rowNames = req.rows.map rowNames :=
    checkEach_keeps rowNames checkRow_keeps_names 0 req.rows
  have count := congrArg List.length names
  rw [List.length_map, List.length_map] at count
  have sets := shape.sets
  rw [rows_match_iff, ← names, ← rows_match_iff] at sets
  constructor
  · exact fun none => shape.rows ((checkEach_eq_nil 0 req.rows).mp none)
  · have room := shape.room
    rwa [← count] at room
  · exact shape.table
  · exact sets
  · exact shape.metadata

theorem level2ValidateInsert_settled {ctx : Level2Context} {first : Calendar} {req : InsertRequest}
    (second : Calendar) (passed : (level2ValidateInsert ctx first req).1.statusCode = level2Ok) :
    level2ValidateInsert ctx second (level2ValidateInsert ctx first req).2 =
      (setOk, (level2ValidateInsert ctx first req).2) := by
  obtain ⟨cols, shape⟩ := insertShape_of_ok passed
  rw [level2ValidateInsert_of_shape first shape] at passed ⊢
  have failures := verdict_ok passed
  have rows : checkRows ctx second { req with rows := (checkRows ctx first req cols).1 } cols =
      ((checkRows ctx first req cols).1, []) :=
    checkEach_settled (fun r row => checkRow_settled second r row) 0 req.rows failures
  rw [level2ValidateInsert_of_shape second (shape.after first), rows]
  rfl

section Keys

variable {cols : List ColMetadata} {owner tableName : CString} {first second : Calendar}

theorem checkKeys_settled (keys : List WhereKey)
    (passed : (checkEach (fun k => checkKey cols owner tableName (first 0 k)) 0 keys).2 = []) :
    checkEach (fun k => checkKey cols owner tableName (second 0 k)) 0
        (checkEach (fun k => checkKey cols owner tableName (first 0 k)) 0 keys).1 =
      ((checkEach (fun k => checkKey cols owner tableName (first 0 k)) 0 keys).1, []) :=
  checkEach_settled (fun k _ valid => checkKey_settled (second 0 k) valid) 0 keys passed

theorem checkSetFields_settled {ctx : Level2Context} (fields : List FieldValue)
    (passed : (checkEach (fun f => checkSetField ctx cols owner tableName (first 1 f) f) 0
      fields).2 = []) :
    checkEach (fun f => checkSetField ctx cols owner tableName (second 1 f) f) 0
        (checkEach (fun f => checkSetField ctx cols owner tableName (first 1 f) f) 0 fields).1 =
      ((checkEach (fun f => checkSetField ctx cols owner tableName (first 1 f) f) 0 fields).1,
        []) := by
  apply checkEach_settled _ 0 fields passed
  intro f fv valid
  exact checkField_settled _ _ (second 1 f) valid

end Keys

theorem level2ValidateUpdate_settled {ctx : Level2Context} {first : Calendar} {req : UpdateRequest}
    (second : Calendar) (passed : (level2ValidateUpdate ctx first req).1.statusCode = level2Ok) :
    level2ValidateUpdate ctx second (level2ValidateUpdate ctx first req).2 =
      (setOk, (level2ValidateUpdate ctx first req).2) := by
  by_cases table : req.tableName = []
  · simp [level2ValidateUpdate, table, invalidArg, setError, level2Ok] at passed
  by_cases keys : req.keys = []
  · simp [level2ValidateUpdate, table, keys, invalidArg, setError, level2Ok] at passed
  by_cases fields : req.fields = []
  · simp [level2ValidateUpdate, table, keys, fields, invalidArg, setError, level2Ok] at passed
  cases found : ctx.metadata (req.tableName.take 127) (req.owner.take 127) with
  | none =>
    simp [level2ValidateUpdate, table, keys, fields, found, metadataLookupFailed, setError,
      level2Ok] at passed
  | some cols =>
    simp only [level2ValidateUpdate, if_neg table, if_neg keys, if_neg fields, found] at passed ⊢
    have failures := List.append_eq_nil_iff.mp (verdict_ok passed)
    simp only [checkEach_eq_nil, if_neg table, if_neg keys, if_neg fields, found,
      checkKeys_settled req.keys failures.1, checkSetFields_settled req.fields failures.2,
      failures.1, failures.2]
    rfl

theorem level2ValidateDelete_settled {ctx : Level2Context} {first : Calendar} {req : DeleteRequest}
    (second : Calendar) (passed : (level2ValidateDelete ctx first req).1.statusCode = level2Ok) :
    level2ValidateDelete ctx second (level2ValidateDelete ctx first req).2 =
      (setOk, (level2ValidateDelete ctx first req).2) := by
  by_cases table : req.tableName = []
  · simp [level2ValidateDelete, table, invalidArg, setError, level2Ok] at passed
  by_cases keys : req.keys = []
  · simp [level2ValidateDelete, table, keys, invalidArg, setError, level2Ok] at passed
  cases found : ctx.metadata (req.tableName.take 127) (req.owner.take 127) with
  | none =>
    simp [level2ValidateDelete, table, keys, found, metadataLookupFailed, setError,
      level2Ok] at passed
  | some cols =>
    simp only [level2ValidateDelete, if_neg table, if_neg keys, found] at passed ⊢
    have failures := verdict_ok passed
    simp only [checkEach_eq_nil, if_neg table, if_neg keys, found,
      checkKeys_settled req.keys failures, failures]
    rfl

/-- An operation that its validator accepts is accepted again, on any later day, and left as the
first pass made it. -/
theorem accepted_operation_settles (ctx : Level2Context) (first second : Calendar)
    (op : Level2Operation) (passed : (level2Validate ctx first op).1.statusCode = level2Ok) :
    level2Validate ctx second (level2Validate ctx first op).2 =
      (setOk, (level2Validate ctx first op).2) := by
  cases op with
  | insert req => simp only [level2Validate, level2ValidateInsert_settled second passed]
  | update req => simp only [level2Validate, level2ValidateUpdate_settled second passed]
  | delete req => simp only [level2Validate, level2ValidateDelete_settled second passed]

def ordersContext : Level2Context where
  maxBulkInserts := 100
  metadata := fun _ _ => some [⟨"DUE".toList, "DATE".toList, 7, -1, -1, ['N'], []⟩]
  validateField := fun _ => .ok ()

def europeanDate : Level2Operation :=
  .update ⟨"ORDERS".toList, "SHOP".toList,
    [⟨"due".toList, "25/12/2026".toList, "DD/MM/YYYY".toList⟩],
    [⟨"DUE".toList, "3-JAN-27 4:05 PM".toList, none, "DD-MON-RR HH12:MI AM".toList⟩]⟩

def canonicalDate : Level2Operation :=
  .update ⟨"ORDERS".toList, "SHOP".toList, [⟨"due".toList, "2026-12-25 00:00:00".toList, []⟩],
    [⟨"DUE".toList, "2027-01-03 16:05:00".toList, none, []⟩]⟩

/-- Two dates in formats of their own, checked in October 2026 and again a month later. -/
theorem accepted_operation_settles_european :
    level2Validate ordersContext (fun _ _ => ⟨2026, 10⟩) europeanDate = (setOk, canonicalDate) ∧
      level2Validate ordersContext (fun _ _ => ⟨2026, 11⟩) canonicalDate =
        (setOk, canonicalDate) := by
  have first : level2Validate ordersContext (fun _ _ => ⟨2026, 10⟩) europeanDate =
      (setOk, canonicalDate) := by
    decide +kernel
  have again := accepted_operation_settles ordersContext (fun _ _ => ⟨2026, 10⟩)
    (fun _ _ => ⟨2026, 11⟩) europeanDate (by rw [first]; rfl)
  rw [first] at again
  exact ⟨first, again⟩

end OciWrapper.Dml
