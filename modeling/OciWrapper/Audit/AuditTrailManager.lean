import OciWrapper.Audit.BeforeImage
import OciWrapper.Execute.InsertBatch

namespace OciWrapper.Audit

open OciWrapper.Text OciWrapper.Execute

def auditTableName : CString := "AUDIT_TRAIL".toList
def auditApplicationName : CString := "Data_Manager".toList
def auditSnapshotSentinel : CString := "__ROW_SNAPSHOT__".toList

/-- `audit_fnv1a_64`. -/
def auditFnv1a64 (data : CString) : UInt64 :=
  data.foldl (fun hash c => (hash ^^^ c.toNat.toUInt64) * 1099511628211) 14695981039346656037

/-- `%016llx`. -/
def hex16 (n : Nat) : CString :=
  let digits := Nat.toDigits 16 n
  List.replicate (16 - digits.length) '0' ++ digits

/-- `sizeof(concat) - 1`. -/
def hashTextMax : Nat := 4095

def auditTrailBuildRowHash (parts : List CString) : CString :=
  hex16 (auditFnv1a64 ((['|'].intercalate parts).take hashTextMax)).toNat

/-- `audit_field_value_t`. -/
structure FieldValue where
  value : CString
  isEmpty : Bool
  deriving DecidableEq

/-- The text a field value is recorded and compared by. -/
def FieldValue.text (v : FieldValue) : CString := if v.isEmpty then [] else v.value

structure AuditField where
  name : CString
  dataType : CString
  old : Option FieldValue
  new : Option FieldValue
  deriving DecidableEq

structure AuditTrailRequest where
  tableName : CString
  recordId : CString
  actionType : CString
  columnCount : Nat
  rows : List (List AuditField)
  changedBy : CString
  changeReason : CString
  /-- Empty for the session of the active transaction. -/
  sessionId : CString
  moduleName : CString

structure AuditOutcome where
  allocated : Bool
  nested : InsertOutcome

/-- For an insert: the key of its last row, and what `audit_trail_serialise_row`
    makes of each row. -/
structure SnapshotOutcome extends AuditOutcome where
  lastRowid : CString
  snapshots : Nat → CString

variable {Row : Type}

def orDash (s : CString) : CString := if s = [] then dash else s

/-- The identity an audit row is written under. -/
structure AuditIdentity where
  transactionId : CString
  sessionId : CString
  changedBy : CString

def auditIdentity (w : World Row) (atr : AuditTrailRequest) : AuditIdentity where
  transactionId := (w.activeTx.map txGetId).getD dash
  sessionId :=
    if atr.sessionId = [] then (w.activeTx.map fun handle => orDash handle.sessionId).getD dash
    else atr.sessionId
  changedBy := if atr.changedBy = [] then w.ini.username else atr.changedBy

def buildAuditRow (who : AuditIdentity) (atr : AuditTrailRequest) (fieldName : CString)
    (oldValue : Option CString) (newValue dataType : CString) : AuditRow where
  tableName := atr.tableName
  recordId := orDash atr.recordId
  fieldName := fieldName
  actionType := atr.actionType
  oldValue := oldValue
  newValue := newValue
  dataType := dataType
  changedBy := who.changedBy
  changeReason := atr.changeReason
  transactionId := who.transactionId
  sessionId := who.sessionId
  clientIp := dash
  applicationName := auditApplicationName
  moduleName := if atr.moduleName = [] then auditApplicationName else atr.moduleName
  rowHash := auditTrailBuildRowHash [atr.tableName, atr.recordId, fieldName, atr.actionType,
    newValue, who.changedBy, who.transactionId]

def auditFieldRow (who : AuditIdentity) (atr : AuditTrailRequest) (field : AuditField) : AuditRow :=
  buildAuditRow who atr (if field.name = [] then "UNKNOWN".toList else field.name)
    (some ((field.old.map FieldValue.text).getD [])) ((field.new.map FieldValue.text).getD [])
    (orDash field.dataType)

def fieldRows (who : AuditIdentity) (atr : AuditTrailRequest) : List AuditRow :=
  atr.rows.flatten.map (auditFieldRow who atr)

def snapshotRows (who : AuditIdentity) (atr : AuditTrailRequest) (snapshots : Nat → CString) :
    List AuditRow :=
  (List.range atr.rows.length).map fun br =>
    buildAuditRow who atr auditSnapshotSentinel none (snapshots br) "SNAPSHOT".toList

/-- Both audit functions from their guards to their return: the rows go through
    `execute_insert_batch` with the flag set. -/
def writeAuditRows (w : World Row) (fieldCount : Nat) (rows : List AuditRow)
    (outcome : AuditOutcome) : World Row × Bool :=
  if !outcome.allocated then (w, false)
  else
    let (w, ok) := insertBatch .audit id { w with auditTrailInProgress := true }
      ⟨auditTableName, fieldCount, rows⟩ outcome.nested
    ({ w with auditTrailInProgress := false }, ok)

/-- What an audit request must have: nothing to record, refused, or go on. -/
def auditArguments (atr : AuditTrailRequest) : Option Bool :=
  if atr.columnCount = 0 ∨ atr.rows = [] then some true
  else if atr.tableName = [] then some false
  else if atr.changeReason = [] then some false
  else none

/-- The checks both kinds of audit begin with. -/
def auditGuard (w : World Row) (atr : AuditTrailRequest) : Option Bool :=
  if w.auditTrailInProgress then some true else auditArguments atr

theorem auditGuard_idle {w : World Row} (idle : w.auditTrailInProgress = false)
    (atr : AuditTrailRequest) : auditGuard w atr = auditArguments atr := by
  rw [auditGuard, idle, if_neg (by simp)]

/-- `audit_trail_insert` for an update or a delete. -/
def auditTrailInsert (w : World Row) (atr : AuditTrailRequest) (outcome : AuditOutcome) :
    World Row × Bool :=
  match auditGuard w atr with
  | some result => (w, result)
  | none => writeAuditRows w 15 (fieldRows (auditIdentity w atr) atr) outcome

/-- `audit_trail_insert` for an insert, with `audit_trail_insert_snapshot`. -/
def auditTrailInsertSnapshot (w : World Row) (atr : AuditTrailRequest) (outcome : SnapshotOutcome) :
    World Row × Bool :=
  match auditGuard w atr with
  | some result => (w, result)
  | none =>
    writeAuditRows w 14 (snapshotRows (auditIdentity w atr) atr outcome.snapshots)
      outcome.toAuditOutcome

/-- A column of the row `row` whose recorded text is not the new one. -/
structure FieldChange where
  row : Nat
  column : Nat
  field : AuditField
  deriving DecidableEq

/-- A column of the SET list: its name, the data type at its place in the table's
    metadata, the value. -/
structure SetColumn where
  name : CString
  dataType : CString
  value : FieldValue

def OldValue.text (v : OldValue) : CString := if v.isNull then [] else v.value

def changeAt (image : BeforeImage) (br c : Nat) (column : SetColumn) : Option FieldChange :=
  let old := image.get br c
  if old.text = column.value.text then none
  else some ⟨br, c, ⟨column.name, column.dataType, some ⟨old.value, old.isNull⟩, some column.value⟩⟩

/-- The inner loop of `audit_trail_insert_update`. -/
def rowChanges (image : BeforeImage) (columns : List SetColumn) (br : Nat) : List FieldChange :=
  (columns.zipIdx.map fun (column, c) => changeAt image br c column).reduceOption

/-- The request of one business row, as both per-row loops rebuild it. -/
def rowRequest (atr : AuditTrailRequest) (actionType : CString) (fields : List AuditField) :
    AuditTrailRequest :=
  { atr with actionType, columnCount := fields.length, rows := [fields] }

/-- One audit call a row; a failure is remembered and the loop goes on. -/
def auditRows (audit : World Row → Nat → World Row × Bool) :
    World Row → List Nat → World Row × Bool
  | w, [] => (w, true)
  | w, br :: rest =>
    let (w, ok) := audit w br
    let (w, restOk) := auditRows audit w rest
    (w, ok && restOk)

def updateAction : CString := "UPDATE".toList
def deleteAction : CString := "DELETE".toList
def insertAction : CString := "INSERT".toList

def auditTrailInsertUpdate (w : World Row) (atr : AuditTrailRequest) (columns : List SetColumn)
    (rowCount : Nat) (image : BeforeImage) (outcomes : Nat → AuditOutcome) : World Row × Bool :=
  auditRows (fun w br =>
    let changes := rowChanges image columns br
    if changes = [] then (w, true)
    else
      auditTrailInsert w (rowRequest atr updateAction (changes.map FieldChange.field)) (outcomes br))
    w (List.range rowCount)

def auditTrailInsertDelete (w : World Row) (atr : AuditTrailRequest)
    (keys : List (CString × CString)) (image : BeforeImage) (outcomes : Nat → AuditOutcome) :
    World Row × Bool :=
  auditRows (fun w br =>
    auditTrailInsert w
      (rowRequest atr deleteAction (keys.zipIdx.map fun ((name, dataType), c) =>
        let old := image.get br c
        ⟨name, dataType, some ⟨old.value, old.isNull⟩, none⟩))
      (outcomes br))
    w (List.range image.rowCount)

/-- The effects of one audit insert, and whether it succeeds. -/
def auditEffects (ini : IniConfig) (fieldCount : Nat) (rows : List AuditRow)
    (outcome : AuditOutcome) : List (Effect Row) × Bool :=
  if !outcome.allocated then ([], false)
  else nestedInsert .audit ini ⟨auditTableName, fieldCount, rows⟩ outcome.nested

theorem auditEffects_onlyWrites (ini : IniConfig) (fieldCount : Nat) (rows : List AuditRow)
    (outcome : AuditOutcome) :
    OnlyWrites (auditEffects ini fieldCount rows outcome : List (Effect Row) × Bool).1 := by
  unfold auditEffects
  split
  · exact .nil
  · exact nestedInsert_onlyWrites _ _ _ _

/-- The flag is down again, and nothing but the effects is new. -/
theorem writeAuditRows_eq {w : World Row} (idle : w.auditTrailInProgress = false)
    (active : w.activeTx.isSome = true) (fieldCount : Nat) (rows : List AuditRow)
    (outcome : AuditOutcome) :
    writeAuditRows w fieldCount rows outcome =
      (w.emit (auditEffects w.ini fieldCount rows outcome).1,
        (auditEffects w.ini fieldCount rows outcome : List (Effect Row) × Bool).2) := by
  unfold writeAuditRows auditEffects
  cases outcome.allocated
  · simp
  · have nested := insertBatch_nested Write.audit id
      (w := { w with auditTrailInProgress := true }) rfl active
      ⟨auditTableName, fieldCount, rows⟩ outcome.nested
    simp only [Bool.not_true, Bool.false_eq_true, if_false, nested]
    obtain ⟨ini, activeTx, flag, effects⟩ := w
    subst idle
    rfl

/-- An audit call inside a transaction writes and changes nothing else. -/
def Audits (audit : World Row → World Row × Bool) : Prop :=
  ∀ w : World Row, w.auditTrailInProgress = false → w.activeTx.isSome = true →
    ∃ effects, OnlyWrites effects ∧ (audit w).1 = w.emit effects

theorem Audits.skip (ok : Bool) : Audits fun w : World Row => (w, ok) :=
  fun w _ _ => ⟨[], .nil, w.emit_nil.symm⟩

theorem auditTrailInsert_audits (atr : AuditTrailRequest) (outcome : AuditOutcome) :
    Audits fun w : World Row => auditTrailInsert w atr outcome := by
  intro w idle active
  dsimp only [auditTrailInsert]
  split
  · exact ⟨[], .nil, w.emit_nil.symm⟩
  · exact ⟨_, auditEffects_onlyWrites w.ini _ _ outcome,
      congrArg Prod.fst (writeAuditRows_eq idle active _ _ outcome)⟩

theorem auditTrailInsertSnapshot_audits (atr : AuditTrailRequest) (outcome : SnapshotOutcome) :
    Audits fun w : World Row => auditTrailInsertSnapshot w atr outcome := by
  intro w idle active
  dsimp only [auditTrailInsertSnapshot]
  split
  · exact ⟨[], .nil, w.emit_nil.symm⟩
  · exact ⟨_, auditEffects_onlyWrites w.ini _ _ outcome.toAuditOutcome,
      congrArg Prod.fst (writeAuditRows_eq idle active _ _ outcome.toAuditOutcome)⟩

theorem auditRows_audits {audit : World Row → Nat → World Row × Bool}
    (each : ∀ br, Audits fun w => audit w br) (rows : List Nat) :
    Audits fun w => auditRows audit w rows := by
  induction rows with
  | nil => exact .skip true
  | cons br rest ih =>
    intro w idle active
    obtain ⟨first, onlyFirst, here⟩ := each br w idle active
    obtain ⟨later, onlyLater, there⟩ := ih (w.emit first) idle active
    refine ⟨first ++ later, onlyFirst.append onlyLater, ?_⟩
    dsimp only at here there
    simp only [auditRows, here, there, World.emit_emit]

theorem auditTrailInsertUpdate_audits (atr : AuditTrailRequest) (columns : List SetColumn)
    (rowCount : Nat) (image : BeforeImage) (outcomes : Nat → AuditOutcome) :
    Audits fun w : World Row => auditTrailInsertUpdate w atr columns rowCount image outcomes := by
  apply auditRows_audits
  intro br
  dsimp only
  split
  · exact .skip true
  · exact auditTrailInsert_audits _ _

theorem auditTrailInsertDelete_audits (atr : AuditTrailRequest) (keys : List (CString × CString))
    (image : BeforeImage) (outcomes : Nat → AuditOutcome) :
    Audits fun w : World Row => auditTrailInsertDelete w atr keys image outcomes :=
  auditRows_audits (fun _ => auditTrailInsert_audits _ _) _

/-- The audit insert writes nothing. -/
def AuditOutcome.Silent (outcome : AuditOutcome) (ini : IniConfig) (rowCount : Nat) : Prop :=
  outcome.allocated = false ∨ outcome.nested.validated = false ∨
    insertReady ini rowCount outcome.nested = false ∨ outcome.nested.statement = .failed 0

theorem auditEffects_silent {ini : IniConfig} {fieldCount : Nat} {rows : List AuditRow}
    {outcome : AuditOutcome} (silent : outcome.Silent ini rows.length) :
    writtenBy (auditEffects ini fieldCount rows outcome : List (Effect Row) × Bool).1 = [] := by
  unfold auditEffects nestedInsert
  rcases silent with h | h | h | h
  · simp [h]
  · simp [h]
  · simp [h]
  · split
    · rfl
    · split
      · rfl
      · split
        · rfl
        · rw [h]
          rfl

theorem auditTrailInsert_silent {w : World Row} (idle : w.auditTrailInProgress = false)
    (active : w.activeTx.isSome = true) (atr : AuditTrailRequest) {outcome : AuditOutcome}
    (silent : outcome.Silent w.ini atr.rows.flatten.length) :
    ∃ effects, writtenBy effects = [] ∧ (auditTrailInsert w atr outcome).1 = w.emit effects := by
  unfold auditTrailInsert
  split
  · exact ⟨[], rfl, w.emit_nil.symm⟩
  · refine ⟨_, auditEffects_silent ?_, congrArg Prod.fst (writeAuditRows_eq idle active _ _ _)⟩
    rwa [fieldRows, List.length_map]

theorem auditRows_silent {audit : World Row → Nat → World Row × Bool} {ini : IniConfig}
    {rows : List Nat} (each : ∀ br ∈ rows, ∀ w : World Row, w.ini = ini →
      w.auditTrailInProgress = false → w.activeTx.isSome = true →
      ∃ effects, writtenBy effects = [] ∧ (audit w br).1 = w.emit effects)
    {w : World Row} (same : w.ini = ini) (idle : w.auditTrailInProgress = false)
    (active : w.activeTx.isSome = true) :
    ∃ effects, writtenBy effects = [] ∧ (auditRows audit w rows).1 = w.emit effects := by
  induction rows generalizing w with
  | nil => exact ⟨[], rfl, w.emit_nil.symm⟩
  | cons br rest ih =>
    obtain ⟨first, silentFirst, here⟩ := each br List.mem_cons_self w same idle active
    obtain ⟨later, silentLater, there⟩ :=
      ih (fun other member => each other (List.mem_cons_of_mem _ member))
        (w := w.emit first) same idle active
    refine ⟨first ++ later, by rw [writtenBy_append, silentFirst, silentLater]; rfl, ?_⟩
    simp only [auditRows, here, there, World.emit_emit]

end OciWrapper.Audit
