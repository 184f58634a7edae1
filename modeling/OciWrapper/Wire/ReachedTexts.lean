import OciWrapper.Dml.SecondValidation
import OciWrapper.Wire.SameRequest
import OciWrapper.Wire.WholeTexts

namespace OciWrapper.Wire

open OciWrapper.Text OciWrapper.Core OciWrapper.Dml OciWrapper.Dates

/-- An operation as its library returns it. -/
inductive WireOperation
  | xml (node : XmlNode)
  | json (obj : Json)

def WireOperation.parsed (copy : Nat → CString → CString) : WireOperation → InputOperation
  | .xml node => operationXml copy node
  | .json obj => operationJson copy obj

def WireOperation.Fits (wire : WireOperation) : Prop :=
  match wire with
  | .xml node => OperationFitsXml node.children (wire.parsed strncpy).type
  | .json obj => OperationFitsJson obj (wire.parsed strncpy).type

theorem parsed_whole {wire : WireOperation} (fits : wire.Fits) :
    wire.parsed strncpy = wire.parsed wholeText := by
  cases wire with
  | xml node => exact congrArg (InputOperation.mk _) (buildPayloadXml_whole fits)
  | json obj => exact congrArg (InputOperation.mk _) (buildPayloadJson_whole fits)

/-- The operations of the document that `level1_parse` reads. -/
def wireOperations (readers : Readers) (buf : CString) : List WireOperation :=
  match level1DetectFormat buf with
  | .xml =>
    (elementsNamed "operation" (childrenNamed "transaction"
      (((readers.xmlReadMemory buf).map (·.children)).getD []))).map .xml
  | .json =>
    ((((readers.cjsonParse buf).bind transactionJson).map fun obj =>
      jsonItems obj "operations").getD []).map .json
  | .unknown => []

theorem operations_of_parsed {copy : Nat → CString → CString} {readers : Readers} {buf : CString}
    {request : InputRequest} (parsed : level1Parse copy readers buf = .ok request) :
    request.operations = (wireOperations readers buf).map (·.parsed copy) := by
  rw [level1Parse] at parsed
  split at parsed
  · cases parsed
  rw [wireOperations]
  split at parsed
  next isXml =>
    unfold parseXml at parsed
    split at parsed
    · cases parsed
    next root read =>
    split at parsed
    · rw [requestXml] at parsed
      dsimp only at parsed
      split at parsed
      · cases parsed
      split at parsed
      · cases parsed
      · cases parsed
      · cases parsed
        simp only [isXml, read, List.map_map]
        rfl
    · cases parsed
  next isJson =>
    unfold parseJson at parsed
    split at parsed
    · cases parsed
    next root read =>
    rw [requestJson] at parsed
    split at parsed
    · cases parsed
    split at parsed
    · cases parsed
    · cases parsed
    · cases parsed
      simp only [isJson, read, List.map_map]
      rfl
  · cases parsed

/-- `level2_validate` of one operation: the payload that goes on to the execute module. The other
validators leave their request as it is. -/
def level2Payload (ctx : Level2Context) (calendar : Calendar) (accepts : Payload → Bool) :
    Payload → Option Payload
  | .insert req =>
    let (status, req) := level2ValidateInsert ctx calendar req
    if status.statusCode = level2Ok then some (.insert req) else none
  | .update req =>
    let (status, req) := level2ValidateUpdate ctx calendar req
    if status.statusCode = level2Ok then some (.update req) else none
  | .delete req =>
    let (status, req) := level2ValidateDelete ctx calendar req
    if status.statusCode = level2Ok then some (.delete req) else none
  | payload => if accepts payload then some payload else none

/-- The columns whose values level 2 rewrites. -/
def IsDateColumn (cols : List ColMetadata) (colName : CString) : Prop :=
  ∃ col, findColumn cols colName = some col ∧
    (dbTypeClass col.dataType = .date ∨ dbTypeClass col.dataType = .timestamp)

/-- A field value as it was sent, but for the value of a date column. -/
structure FieldKept (cols : List ColMetadata) (sent reached : FieldValue) : Prop where
  fieldName : reached.fieldName = sent.fieldName
  largeValue : reached.largeValue = sent.largeValue
  value : ¬ IsDateColumn cols sent.fieldName → reached.value = sent.value

structure KeyKept (cols : List ColMetadata) (sent reached : WhereKey) : Prop where
  fieldName : reached.fieldName = sent.fieldName
  keyValue : ¬ IsDateColumn cols sent.fieldName → reached.keyValue = sent.keyValue

/-- The metadata of the table that an operation names. -/
def columnsOf (ctx : Level2Context) (tableName owner : CString) : List ColMetadata :=
  (ctx.metadata (tableName.take 127) (owner.take 127)).getD []

/-- A payload whose texts have reached the execute module as they were sent. -/
def Kept (ctx : Level2Context) : Payload → Payload → Prop
  | .insert sent, .insert reached =>
    reached.tableName = sent.tableName ∧ reached.owner = sent.owner ∧
      List.Forall₂ (List.Forall₂ (FieldKept (columnsOf ctx sent.tableName sent.owner)))
        sent.rows reached.rows
  | .update sent, .update reached =>
    reached.tableName = sent.tableName ∧ reached.owner = sent.owner ∧
      List.Forall₂ (KeyKept (columnsOf ctx sent.tableName sent.owner)) sent.keys reached.keys ∧
      List.Forall₂ (FieldKept (columnsOf ctx sent.tableName sent.owner)) sent.fields
        reached.fields
  | .delete sent, .delete reached =>
    reached.tableName = sent.tableName ∧ reached.owner = sent.owner ∧
      List.Forall₂ (KeyKept (columnsOf ctx sent.tableName sent.owner)) sent.keys reached.keys
  | sent, reached => reached = sent

theorem normalizeClientDateValue_plain {realDataType value format value' format' : CString}
    {today : Today} (plain : ¬ (dbTypeClass realDataType = .date ∨
      dbTypeClass realDataType = .timestamp))
    (passed : normalizeClientDateValue realDataType value format today = .ok (value', format')) :
    value' = value := by
  rw [not_or] at plain
  rw [normalizeClientDateValue, if_pos plain] at passed
  cases passed
  rfl

section Entries

variable {ctx : Level2Context} {cols : List ColMetadata} {owner tableName subject : CString}
  {rejected : CString → CString} {today : Today} {f : Nat}

theorem checkField_kept (fv : FieldValue) :
    FieldKept cols fv (checkField ctx cols owner tableName subject rejected today f fv).1 := by
  unfold checkField
  split
  · exact ⟨rfl, rfl, fun _ => rfl⟩
  next col found =>
  split
  · exact ⟨rfl, rfl, fun _ => rfl⟩
  next value format dated =>
  have kept : FieldKept cols fv { fv with value := value, clientDateFormat := format } :=
    ⟨rfl, rfl, fun plain => normalizeClientDateValue_plain
      (fun date => plain ⟨col, found, date⟩) dated⟩
  dsimp only
  split <;> exact kept

theorem checkKey_kept (wk : WhereKey) :
    KeyKept cols wk (checkKey cols owner tableName today wk).1 := by
  unfold checkKey
  dsimp only
  split
  · exact ⟨rfl, fun _ => rfl⟩
  next col found =>
  split
  · exact ⟨rfl, fun _ => rfl⟩
  next value format dated =>
  exact ⟨rfl, fun plain => normalizeClientDateValue_plain
    (fun date => plain ⟨col, found, date⟩) dated⟩

end Entries

theorem checkEach_forall₂ {α : Type} {R : α → α → Prop} {check : Nat → α → Checked α}
    (step : ∀ i a, R a (check i a).1) (i : Nat) (entries : List α) :
    List.Forall₂ R entries (checkEach check i entries).1 := by
  induction entries generalizing i with
  | nil => exact .nil
  | cons a rest ih => exact .cons (step i a) (ih (i + 1))

theorem checkRow_kept {ctx : Level2Context} {cols : List ColMetadata} {owner tableName : CString}
    {calendar : Calendar} (r : Nat) (row : List FieldValue) :
    List.Forall₂ (FieldKept cols) row (checkRow ctx cols owner tableName calendar r row).1 :=
  checkEach_forall₂ (fun _ fv => checkField_kept fv) 0 row

theorem insert_kept {ctx : Level2Context} {calendar : Calendar} {req : InsertRequest}
    (passed : (level2ValidateInsert ctx calendar req).1.statusCode = level2Ok) :
    Kept ctx (.insert req) (.insert (level2ValidateInsert ctx calendar req).2) := by
  obtain ⟨cols, shape⟩ := insertShape_of_ok passed
  have found : columnsOf ctx req.tableName req.owner = cols := by
    rw [columnsOf, shape.metadata]
    rfl
  rw [level2ValidateInsert_of_shape calendar shape]
  refine ⟨rfl, rfl, ?_⟩
  rw [found]
  exact checkEach_forall₂ checkRow_kept 0 req.rows

theorem update_kept {ctx : Level2Context} {calendar : Calendar} {req : UpdateRequest}
    (passed : (level2ValidateUpdate ctx calendar req).1.statusCode = level2Ok) :
    Kept ctx (.update req) (.update (level2ValidateUpdate ctx calendar req).2) := by
  unfold level2ValidateUpdate at passed ⊢
  split at passed
  · cases passed
  next table =>
  split at passed
  · cases passed
  next keys =>
  split at passed
  · cases passed
  next fields =>
  split at passed
  · cases passed
  next cols found =>
  have columns : columnsOf ctx req.tableName req.owner = cols := by
    rw [columnsOf, found]
    rfl
  simp only [if_neg table, if_neg keys, if_neg fields, found]
  refine ⟨rfl, rfl, ?_, ?_⟩
  · rw [columns]
    exact checkEach_forall₂ (fun k wk => checkKey_kept wk) 0 req.keys
  · rw [columns]
    exact checkEach_forall₂ (fun f fv => checkField_kept fv) 0 req.fields

theorem delete_kept {ctx : Level2Context} {calendar : Calendar} {req : DeleteRequest}
    (passed : (level2ValidateDelete ctx calendar req).1.statusCode = level2Ok) :
    Kept ctx (.delete req) (.delete (level2ValidateDelete ctx calendar req).2) := by
  unfold level2ValidateDelete at passed ⊢
  split at passed
  · cases passed
  next table =>
  split at passed
  · cases passed
  next keys =>
  split at passed
  · cases passed
  next cols found =>
  have columns : columnsOf ctx req.tableName req.owner = cols := by
    rw [columnsOf, found]
    rfl
  simp only [if_neg table, if_neg keys, found]
  refine ⟨rfl, rfl, ?_⟩
  rw [columns]
  exact checkEach_forall₂ (fun k wk => checkKey_kept wk) 0 req.keys

theorem level2Payload_kept {ctx : Level2Context} {calendar : Calendar} {accepts : Payload → Bool}
    {payload reached : Payload} (accepted : level2Payload ctx calendar accepts payload = some reached) :
    Kept ctx payload reached := by
  cases payload
  case insert req =>
    dsimp only [level2Payload] at accepted
    split at accepted
    next passed =>
      cases accepted
      exact insert_kept passed
    · cases accepted
  case update req =>
    dsimp only [level2Payload] at accepted
    split at accepted
    next passed =>
      cases accepted
      exact update_kept passed
    · cases accepted
  case delete req =>
    dsimp only [level2Payload] at accepted
    split at accepted
    next passed =>
      cases accepted
      exact delete_kept passed
    · cases accepted
  all_goals
    dsimp only [level2Payload] at accepted
    split at accepted
    · cases accepted
      rfl
    · cases accepted

/-- What reaches the execute module of an operation, once level 2 has accepted it, holds the texts
that were sent. -/
def ReachesAsSent (wire : WireOperation) (op : InputOperation) : Prop :=
  ∀ (ctx : Level2Context) (calendar : Calendar) (accepts : Payload → Bool) (reached : Payload),
    op.payload.bind (level2Payload ctx calendar accepts) = some reached →
      ∃ sent, (wire.parsed wholeText).payload = some sent ∧ Kept ctx sent reached

/-- The texts of an operation that fit their fields reach its execute module as they were sent;
level 2 rewrites no more than the values of date columns. -/
theorem fitting_texts_reach_execute {readers : Readers} {buf : CString} {request : InputRequest}
    (parsed : level1Parse strncpy readers buf = .ok request) :
    List.Forall₂ (fun wire op => wire.Fits → ReachesAsSent wire op) (wireOperations readers buf)
      request.operations := by
  rw [operations_of_parsed parsed, List.forall₂_map_right_iff]
  apply List.forall₂_same.mpr
  intro wire _ fits ctx calendar accepts reached accepted
  rw [parsed_whole fits] at accepted
  obtain ⟨sent, payload, validated⟩ := Option.bind_eq_some_iff.mp accepted
  exact ⟨sent, payload, level2Payload_kept validated⟩

def orderKey : AbstractOperation :=
  .delete (some "ORDERS".toList) none [⟨some "ID".toList, some "17".toList, none⟩]

def orderKeyRequest : InputRequest where
  version := "1.0".toList
  externalAuditId := "audit-1".toList
  sessionId := ['-']
  sourceFormat := .xml
  transactionRequired := true
  transactionName := "orders".toList
  operations := [⟨.delete, some (.delete ⟨"ORDERS".toList, [], [⟨"ID".toList, "17".toList, []⟩]⟩)⟩]

theorem fitting_texts_reach_execute_delete :
    List.Forall₂ (fun wire op => wire.Fits → ReachesAsSent wire op)
      (wireOperations (readersOf (oneOperation orderKey)) "<request/>".toList)
      orderKeyRequest.operations := by
  apply fitting_texts_reach_execute
  decide +kernel

/-- Metadata of a table with a date column. -/
def invoiceContext : Level2Context where
  maxBulkInserts := 0
  metadata := fun _ _ => some
    [⟨"ID".toList, "VARCHAR2".toList, 20, -1, -1, ['N'], []⟩,
      ⟨"DUE".toList, "DATE".toList, 7, -1, -1, ['N'], []⟩]
  validateField := fun _ => .ok ()

/-- What reaches the execute module of an operation when the other validators accept everything. -/
def reachedPayload (wire : WireOperation) : Option Payload :=
  (wire.parsed strncpy).payload.bind
    (level2Payload invoiceContext (fun _ _ => ⟨2026, 10⟩) fun _ => true)

def deleteBy (tableName fieldName keyValue : CString) (format : Option CString) :
    AbstractOperation :=
  .delete (some tableName) none [⟨some fieldName, some keyValue, format⟩]

def longTable : CString := List.replicate 128 'T'

/-- The key of a date column is rewritten, a blank before a JSON key stays, and a DELETE from a
table with a name of 128 bytes deletes from another table. -/
theorem sent_texts_change :
    reachedPayload (.xml (renderOperationXml (deleteBy "INVOICES".toList "DUE".toList
        "05/03/2026".toList (some "DD/MM/YYYY".toList)))) =
      some (.delete ⟨"INVOICES".toList, [], [⟨"DUE".toList, "2026-03-05 00:00:00".toList, []⟩]⟩) ∧
    reachedPayload (.json (renderOperationJson true (deleteBy "INVOICES".toList "ID".toList
        " 17".toList none))) =
      some (.delete ⟨"INVOICES".toList, [], [⟨"ID".toList, " 17".toList, []⟩]⟩) ∧
    reachedPayload (.xml (renderOperationXml (deleteBy longTable "ID".toList "17".toList none))) =
      some (.delete ⟨List.replicate 127 'T', [], [⟨"ID".toList, "17".toList, []⟩]⟩) := by
  decide +kernel

end OciWrapper.Wire
