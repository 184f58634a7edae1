import OciWrapper.Audit.AuditTrailManager

namespace OciWrapper.Execute

open OciWrapper.Text OciWrapper.Audit

variable {Row R : Type}

/-- The widths of `record_id` and `changed_by`, less their terminators. -/
def recordIdMax : Nat := 255
def changedByMax : Nat := 99

/-- The name of the transaction, when it has one. -/
def changeReason (w : World Row) (unnamed : CString) : CString :=
  match w.activeTx with
  | none => unnamed
  | some handle => if handle.txName = [] ∨ handle.txName = dash then unnamed else handle.txName

def auditRequest (w : World Row) (tableName recordId actionType unnamed moduleName : CString)
    (columnCount : Nat) (rows : List (List AuditField)) : AuditTrailRequest where
  tableName := tableName
  recordId := recordId.take recordIdMax
  actionType := actionType
  columnCount := columnCount
  rows := rows
  changedBy := w.ini.username.take changedByMax
  changeReason := changeReason w unnamed
  sessionId := []
  moduleName := moduleName

def insertAuditRequest (w : World Row) (req : InsertRequest R) (lastRowid : CString) :
    AuditTrailRequest :=
  auditRequest w req.tableName (orDash lastRowid) insertAction
    "Business INSERT via Data_Manager".toList "OCI_Insert_Execute".toList req.columnCount
    (req.rows.map fun _ => [])

/-- `execute_insert_batch` for a business table. -/
def executeInsertBatch (w : World Row) (req : InsertRequest Row) (outcome : InsertOutcome)
    (snapshot : SnapshotOutcome) : World Row × Bool :=
  insertBatch (.row req.tableName)
    (fun w => (auditTrailInsertSnapshot w (insertAuditRequest w req snapshot.lastRowid) snapshot).1)
    w req outcome

structure UpdateRequest where
  tableName : CString
  /-- The SET list: names and values. -/
  fields : List (CString × CString)
  /-- The WHERE list: names and values. -/
  keys : List (CString × CString)

inductive UpdateStep
  | allocateContext | buildContext | fetchMetadata | buildSql | selectDriver | allocateBinds
  | resolveTexts
  deriving DecidableEq

def updateSteps : List UpdateStep :=
  [.allocateContext, .buildContext, .fetchMetadata, .buildSql, .selectDriver, .allocateBinds,
    .resolveTexts]

/-- What an UPDATE or DELETE changed, and what the driver reports on success. -/
inductive RowStatement (Row : Type)
  | executed (changed : List Row) (reported : Nat)
  | failed (changed : List Row)

structure UpdateOutcome (Row : Type) where
  uuid : CString
  validated : Bool
  prepared : UpdateStep → Bool
  /-- The data types of the table's columns, in the order of its metadata. -/
  metadata : List CString
  beforeImage : Option CString
  statement : RowStatement Row
  lobs : LobWrites
  audits : Nat → AuditOutcome
  completion : Completion

def setColumns (fields : List (CString × CString)) (metadata : List CString) : List SetColumn :=
  fields.zipIdx.map fun ((name, value), c) =>
    ⟨name, (metadata[c]?).getD [], ⟨value.take auditValueMax, value = []⟩⟩

def updateAuditRequest (w : World Row) (req : UpdateRequest) : AuditTrailRequest :=
  auditRequest w req.tableName ((req.keys.head?.map Prod.snd).getD dash) updateAction
    "Business UPDATE via Data_Manager".toList "OCI_Update_Execute".toList req.fields.length []

/-- `uc->row_count`. -/
def updateRowCount : Nat := 1

/-- The audit of an UPDATE, once its rows and LOB columns are written. -/
def updateAudit (w : World Row) (req : UpdateRequest) (outcome : UpdateOutcome Row)
    (oldValues : Option BeforeImage) : World Row :=
  match oldValues with
  | none => w
  | some image =>
    if w.auditTrailInProgress then w
    else
      (auditTrailInsertUpdate w (updateAuditRequest w req) (setColumns req.fields outcome.metadata)
        updateRowCount image outcome.audits).1

def updateRows (owns : Bool) (w : World Row) (req : UpdateRequest) (outcome : UpdateOutcome Row) :
    World Row × Nat × Bool :=
  if !updateSteps.all outcome.prepared then (w, 0, false)
  else
    let oldValues :=
      if w.auditTrailInProgress then none
      else auditTrailFetchBeforeImage (req.fields.map Prod.fst) outcome.beforeImage
    match outcome.statement with
    | .failed changed => (w.emit (writes (changed.map (.row req.tableName))), 0, false)
    | .executed changed reported =>
      let w := w.emit (writes (changed.map (.row req.tableName)) ++
        lobEffects req.tableName outcome.lobs)
      if !outcome.lobs.ok then (w, reported, false)
      else
        let w := updateAudit w req outcome oldValues
        let (w, ok) := commitAndRespond w owns req.tableName outcome.completion
        (w, reported, ok)

/-- `execute_update_batch`; its failure path rolls back whoever owns the transaction. -/
def executeUpdateBatch (w : World Row) (req : UpdateRequest) (outcome : UpdateOutcome Row) :
    World Row × Bool :=
  let (w, owns) := beginStandaloneTxIfNeeded w outcome.uuid
  if !outcome.validated then (w, false)
  else cleanup false owns outcome.completion (updateRows owns w req outcome)

structure DeleteRequest where
  tableName : CString
  keys : List (CString × CString)

inductive DeleteStep
  | allocateContext | fetchMetadata | buildContext | buildSql | selectDriver
  deriving DecidableEq

def deleteSteps : List DeleteStep :=
  [.allocateContext, .fetchMetadata, .buildContext, .buildSql, .selectDriver]

structure DeleteOutcome (Row : Type) where
  uuid : CString
  validated : Bool
  prepared : DeleteStep → Bool
  metadata : List CString
  beforeImage : Option CString
  audits : Nat → AuditOutcome
  statement : RowStatement Row
  completion : Completion

def deleteAuditRequest (w : World Row) (req : DeleteRequest) : AuditTrailRequest :=
  auditRequest w req.tableName ((req.keys.head?.map Prod.snd).getD []) deleteAction
    "Business DELETE via Data_Manager".toList "OCI_Delete_Execute".toList req.keys.length []

/-- The key columns with the data types `audit_trail_insert_delete` finds at their places. -/
def keyColumns (keys : List (CString × CString)) (metadata : List CString) :
    List (CString × CString) :=
  keys.zipIdx.map fun ((name, _), c) => (name, (metadata[c]?).getD [])

/-- The audit of a DELETE, before its statement. -/
def deleteAudit (w : World Row) (req : DeleteRequest) (outcome : DeleteOutcome Row) : World Row :=
  if w.auditTrailInProgress then w
  else
    match auditTrailFetchBeforeImage (req.keys.map Prod.fst) outcome.beforeImage with
    | none => w
    | some image =>
      (auditTrailInsertDelete w (deleteAuditRequest w req) (keyColumns req.keys outcome.metadata)
        image outcome.audits).1

def deleteRows (owns : Bool) (w : World Row) (req : DeleteRequest) (outcome : DeleteOutcome Row) :
    World Row × Nat × Bool :=
  if !deleteSteps.all outcome.prepared then (w, 0, false)
  else
    let w := deleteAudit w req outcome
    match outcome.statement with
    | .failed changed => (w.emit (writes (changed.map (.row req.tableName))), 0, false)
    | .executed changed reported =>
      let w := w.emit (writes (changed.map (.row req.tableName)))
      let (w, ok) := commitAndRespond w owns req.tableName outcome.completion
      (w, reported, ok)

/-- `execute_delete_batch`. -/
def executeDeleteBatch (w : World Row) (req : DeleteRequest) (outcome : DeleteOutcome Row) :
    World Row × Bool :=
  let (w, owns) := beginStandaloneTxIfNeeded w outcome.uuid
  if !outcome.validated then (endStandaloneTxIfOwned w owns, false)
  else cleanup false owns outcome.completion (deleteRows owns w req outcome)

end OciWrapper.Execute
