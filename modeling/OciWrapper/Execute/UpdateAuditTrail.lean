import OciWrapper.Core.XmlHelper
import OciWrapper.Execute.StandaloneIdentity

namespace OciWrapper.Execute

open OciWrapper.Text OciWrapper.Core OciWrapper.Audit

variable {Row V : Type}

/-- What the audit trail says of one SET column of one matched row. -/
structure AuditedField where
  row : Nat
  column : Nat
  name : CString
  oldValue : CString
  newValue : CString
  deriving DecidableEq

def FieldChange.audited (change : FieldChange) : AuditedField where
  row := change.row
  column := change.column
  name := change.field.name
  oldValue := (change.field.old.map FieldValue.text).getD []
  newValue := (change.field.new.map FieldValue.text).getD []

/-- The pairs of row and column that `execute_update_batch` audits. -/
def auditedFields (req : UpdateRequest) (outcome : UpdateOutcome Row) (image : BeforeImage) :
    List AuditedField :=
  ((List.range updateRowCount).flatMap
    (rowChanges image (setColumns req.fields outcome.metadata))).map FieldChange.audited

/-- How the database reads a text into a column and shows a value of it. -/
structure ColumnTexts (V : Type) where
  reads : Nat → CString → V
  shows : Nat → V → CString

section Expected

variable [DecidableEq V] (texts : ColumnTexts V)

def expectedAt (r : Nat) (row : Nat → V) : (CString × CString) × Nat → Option AuditedField
  | ((name, value), c) =>
    if row c = texts.reads c value then none else some ⟨r, c, name, texts.shows c (row c), value⟩

/-- One entry for each matched row and SET column whose value changes. -/
def expectedFields (fields : List (CString × CString)) (held : List (Nat → V)) :
    List AuditedField :=
  held.zipIdx.flatMap fun (row, r) => fields.zipIdx.filterMap (expectedAt texts r row)

end Expected

def recordedAt (image : BeforeImage) : (CString × CString) × Nat → Option AuditedField
  | ((name, value), c) =>
    if (image.get 0 c).text = value.take auditValueMax then none
    else some ⟨0, c, name, (image.get 0 c).text, value.take auditValueMax⟩

theorem zipIdx_map_zipIdx {α β : Type} (g : α × Nat → β) (l : List α) (k : Nat) :
    ((l.zipIdx k).map g).zipIdx k = (l.zipIdx k).map fun p => (g p, p.2) := by
  induction l generalizing k with
  | nil => rfl
  | cons a l ih =>
    rw [List.zipIdx_cons, List.map_cons, List.zipIdx_cons, ih, List.map_cons]

theorem newText (value : CString) :
    FieldValue.text ⟨value.take auditValueMax, value = []⟩ = value.take auditValueMax := by
  unfold FieldValue.text
  split
  · rename_i empty
    have none : value = [] := by simpa using empty
    rw [none, List.take_nil]
  · rfl

theorem changeAt_audited (image : BeforeImage) (name value dataType : CString) (c : Nat) :
    (changeAt image 0 c ⟨name, dataType, ⟨value.take auditValueMax, value = []⟩⟩).map
      FieldChange.audited = recordedAt image ((name, value), c) := by
  simp only [changeAt, recordedAt, newText]
  split
  · rfl
  · simp only [Option.map_some, FieldChange.audited, Option.getD_some, newText]
    rfl

theorem auditedFields_eq (req : UpdateRequest) (outcome : UpdateOutcome Row) (image : BeforeImage) :
    auditedFields req outcome image = req.fields.zipIdx.filterMap (recordedAt image) := by
  have one : List.range updateRowCount = [0] := rfl
  simp only [auditedFields, one, List.flatMap_cons, List.flatMap_nil, List.append_nil, rowChanges,
    setColumns, zipIdx_map_zipIdx, List.map_map, List.reduceOption, List.map_filterMap,
    List.filterMap_map]
  refine List.filterMap_congr fun pair _ => ?_
  obtain ⟨⟨name, value⟩, c⟩ := pair
  exact changeAt_audited image name value _ c

/-- Two selections of tagged entries agree only where they pick the same. -/
theorem filterMap_eq_iff {α β K : Type} {tagOf : α → K} {tag : β → K} {f g : α → Option β}
    (tagF : ∀ a b, f a = some b → tag b = tagOf a) (tagG : ∀ a b, g a = some b → tag b = tagOf a)
    {l : List α} (distinct : (l.map tagOf).Nodup) :
    l.filterMap f = l.filterMap g ↔ ∀ a ∈ l, f a = g a := by
  constructor
  · intro same
    have fresh : ∀ {h : α → Option β}, (∀ a b, h a = some b → tag b = tagOf a) → ∀ {a : α}
        {l : List α}, tagOf a ∉ l.map tagOf → ∀ b ∈ l.filterMap h, tag b ≠ tagOf a := by
      intro h tagH a l outside b member same
      obtain ⟨x, within, picks⟩ := List.mem_filterMap.mp member
      exact outside (List.mem_map.mpr ⟨x, within, (tagH x b picks).symm.trans same⟩)
    induction l with
    | nil => exact fun _ none => by cases none
    | cons a l ih =>
      rw [List.map_cons, List.nodup_cons] at distinct
      have head : f a = g a ∧ l.filterMap f = l.filterMap g := by
        rw [List.filterMap_cons, List.filterMap_cons] at same
        cases left : f a with
        | none =>
          cases right : g a with
          | none => exact ⟨rfl, by simpa [left, right] using same⟩
          | some b =>
            rw [left, right] at same
            have member : b ∈ l.filterMap f := by
              dsimp only at same
              rw [same]
              exact List.mem_cons_self
            exact absurd (tagG a b right) (fresh tagF distinct.1 b member)
        | some b =>
          cases right : g a with
          | none =>
            rw [left, right] at same
            have member : b ∈ l.filterMap g := by
              dsimp only at same
              rw [← same]
              exact List.mem_cons_self
            exact absurd (tagF a b left) (fresh tagG distinct.1 b member)
          | some d =>
            rw [left, right] at same
            obtain ⟨rfl, rest⟩ := List.cons.inj same
            exact ⟨rfl, rest⟩
      intro x member
      rcases List.mem_cons.mp member with rfl | later
      · exact head.1
      · exact ih distinct.2 head.2 x later
  · exact fun same => List.filterMap_congr same

def Write.auditRow : Write Row → Option AuditRow
  | .audit audited => some audited
  | .row _ _ | .lob _ _ => none

/-- The rows of `AUDIT_TRAIL` among the effects. -/
def auditRowsOf (effects : List (Effect Row)) : List AuditRow :=
  (writtenBy effects).filterMap Write.auditRow

@[simp] theorem auditRowsOf_nil : auditRowsOf ([] : List (Effect Row)) = [] := rfl

@[simp] theorem auditRowsOf_append (first later : List (Effect Row)) :
    auditRowsOf (first ++ later) = auditRowsOf first ++ auditRowsOf later := by
  rw [auditRowsOf, writtenBy_append, List.filterMap_append]
  rfl

theorem auditRowsOf_unwritten {effects : List (Effect Row)} (unwritten : writtenBy effects = []) :
    auditRowsOf effects = [] := by
  rw [auditRowsOf, unwritten]
  rfl

theorem auditRowsOf_statement (table : CString) (changed : List Row) (lobs : LobWrites) :
    auditRowsOf (writes (changed.map (.row table)) ++ lobEffects table lobs) = [] := by
  simp [auditRowsOf, lobEffects, Write.auditRow, List.filterMap_eq_nil_iff]

theorem auditRowsOf_audit (rows : List AuditRow) (lobs : LobWrites) (table : CString) :
    auditRowsOf (writes (rows.map .audit) ++ lobEffects table lobs : List (Effect Row)) = rows := by
  have kept : (rows.map (Write.audit : _ → Write Row)).filterMap Write.auditRow = rows := by
    rw [List.filterMap_map]
    exact (List.filterMap_congr fun _ _ => rfl).trans List.filterMap_some
  simp [auditRowsOf, lobEffects, kept, Write.auditRow, List.filterMap_eq_nil_iff]

/-- The audit insert gets to its statement. -/
def auditReaches (ini : IniConfig) (count : Nat) (outcome : AuditOutcome) : Bool :=
  outcome.allocated && outcome.nested.validated && insertReady ini count outcome.nested

theorem auditRowsOf_auditEffects (ini : IniConfig) (fieldCount : Nat) (rows : List AuditRow)
    (outcome : AuditOutcome) :
    auditRowsOf (auditEffects ini fieldCount rows outcome : List (Effect Row) × Bool).1 =
      if auditReaches ini rows.length outcome then
        match outcome.nested.statement with
        | .failed done => rows.take done
        | .executed _ => rows
      else [] := by
  unfold auditEffects nestedInsert auditReaches
  cases outcome.allocated with
  | false => simp [auditRowsOf]
  | true =>
    cases outcome.nested.validated with
    | false => simp [auditRowsOf]
    | true =>
      cases insertReady ini rows.length outcome.nested with
      | false => simp [auditRowsOf]
      | true =>
        simp only [Bool.not_true, Bool.false_eq_true, if_false, Bool.and_self, if_true]
        cases outcome.nested.statement with
        | failed done =>
          have none : auditRowsOf (writes ((rows.take done).map .audit) ++ lobEffects [] ⟨0, true⟩ :
              List (Effect Row)) = rows.take done := auditRowsOf_audit _ _ _
          simpa [lobEffects, writes] using none
        | executed reported =>
          dsimp only
          split
          · exact auditRowsOf_audit rows _ _
          · rw [auditRowsOf_append, auditRowsOf_audit]
            exact List.append_nil _

theorem changeReason_ne_nil (w : World Row) {unnamed : CString} (named : unnamed ≠ []) :
    changeReason w unnamed ≠ [] := by
  unfold changeReason
  split
  · exact named
  · split
    · exact named
    · rename_i given
      exact fun empty => given (.inl empty)

/-- The changes of the one row an update audits. -/
def updateChanges (req : UpdateRequest) (outcome : UpdateOutcome Row) (image : BeforeImage) :
    List FieldChange :=
  rowChanges image (setColumns req.fields outcome.metadata) 0

def updateRowRequest (w : World Row) (req : UpdateRequest) (outcome : UpdateOutcome Row)
    (image : BeforeImage) : AuditTrailRequest :=
  rowRequest (updateAuditRequest w req) updateAction
    ((updateChanges req outcome image).map FieldChange.field)

theorem auditGuard_update {w : World Row} (idle : w.auditTrailInProgress = false)
    {req : UpdateRequest} {outcome : UpdateOutcome Row} {image : BeforeImage}
    (changed : updateChanges req outcome image ≠ []) :
    auditGuard w (updateRowRequest w req outcome image) =
      if req.tableName = [] then some false else none := by
  have reason : (updateRowRequest w req outcome image).changeReason ≠ [] :=
    changeReason_ne_nil w (by decide)
  have fields : (updateRowRequest w req outcome image).columnCount ≠ 0 := by
    simp [updateRowRequest, rowRequest, changed]
  have rows : (updateRowRequest w req outcome image).rows ≠ [] := by
    simp [updateRowRequest, rowRequest]
  rw [auditGuard_idle idle, auditArguments, if_neg (by simp [fields, rows]), if_neg reason]
  rfl

/-- The rows an update adds to the audit trail, when its statement went through. -/
def updateAuditRows (w : World Row) (req : UpdateRequest) (outcome : UpdateOutcome Row)
    (image : BeforeImage) : List AuditRow :=
  let atr := updateRowRequest w req outcome image
  (updateChanges req outcome image).map fun change =>
    auditFieldRow (auditIdentity w atr) atr change.field

theorem updateAudit_rows {w : World Row} (idle : w.auditTrailInProgress = false)
    (active : w.activeTx.isSome = true) (req : UpdateRequest) (outcome : UpdateOutcome Row)
    (image : BeforeImage) :
    ∃ effects, updateAudit w req outcome (some image) = w.emit effects ∧
      auditRowsOf effects =
        if req.tableName ≠ [] ∧
            auditReaches w.ini (updateChanges req outcome image).length (outcome.audits 0) then
          match (outcome.audits 0).nested.statement with
          | .failed done => (updateAuditRows w req outcome image).take done
          | .executed _ => updateAuditRows w req outcome image
        else [] := by
  have one : List.range updateRowCount = [0] := rfl
  simp only [updateAudit, idle, Bool.false_eq_true, if_false, auditTrailInsertUpdate, one, auditRows]
  by_cases changed : updateChanges req outcome image = []
  · have none : rowChanges image (setColumns req.fields outcome.metadata) 0 = [] := changed
    refine ⟨[], by simp [none], ?_⟩
    simp only [updateAuditRows, changed, List.map_nil, List.take_nil]
    split
    · split <;> rfl
    · rfl
  · have some : rowChanges image (setColumns req.fields outcome.metadata) 0 ≠ [] := changed
    have call : auditTrailInsert w (rowRequest (updateAuditRequest w req) updateAction
        ((rowChanges image (setColumns req.fields outcome.metadata) 0).map FieldChange.field))
        (outcome.audits 0) =
          auditTrailInsert w (updateRowRequest w req outcome image) (outcome.audits 0) := rfl
    rw [if_neg some, call, auditTrailInsert, auditGuard_update idle changed]
    by_cases unnamed : req.tableName = []
    · exact ⟨[], by simp [unnamed], by simp [unnamed, auditRowsOf]⟩
    · rw [if_neg unnamed]
      dsimp only
      rw [writeAuditRows_eq idle active]
      refine ⟨_, rfl, ?_⟩
      have rows : fieldRows (auditIdentity w (updateRowRequest w req outcome image))
          (updateRowRequest w req outcome image) = updateAuditRows w req outcome image := by
        simp [fieldRows, updateAuditRows, updateRowRequest, rowRequest]
      have count : (updateAuditRows w req outcome image).length =
          (updateChanges req outcome image).length := by
        simp [updateAuditRows]
      rw [rows, auditRowsOf_auditEffects, count]
      simp [unnamed]

/-- From its commit on a request adds nothing to the audit trail. -/
theorem auditRowsOf_ending (guarded owns : Bool) (w : World Row) (table : CString) (c : Completion)
    (rows : Nat) :
    auditRowsOf (cleanup guarded owns c ((commitAndRespond w owns table c).1, rows,
      (commitAndRespond w owns table c).2)).1.effects = auditRowsOf w.effects := by
  obtain ⟨ending, unwritten, same⟩ := cleanup_effects guarded owns c
    ((commitAndRespond w owns table c).1, rows, (commitAndRespond w owns table c).2)
  obtain ⟨tail, silent, finished⟩ := commitAndRespond_frame w owns table c
  rw [same, finished, World.emit_effects, auditRowsOf_append, auditRowsOf_append,
    auditRowsOf_unwritten unwritten, auditRowsOf_unwritten silent, List.append_nil, List.append_nil]

/-- The audit rows of a whole update whose statement went through. -/
theorem executeUpdateBatch_auditRows {w : World Row} (idle : w.auditTrailInProgress = false)
    (fresh : w.effects = []) {req : UpdateRequest} {outcome : UpdateOutcome Row}
    {image : BeforeImage} {changed : List Row} {reported : Nat}
    (validated : outcome.validated = true) (ready : updateSteps.all outcome.prepared = true)
    (fetched : auditTrailFetchBeforeImage (req.fields.map Prod.fst) outcome.beforeImage = some image)
    (ran : outcome.statement = .executed changed reported) (written : outcome.lobs.ok = true) :
    ∃ v : World Row, auditRowsOf (executeUpdateBatch w req outcome).1.effects =
      if req.tableName ≠ [] ∧
          auditReaches w.ini (updateChanges req outcome image).length (outcome.audits 0) then
        match (outcome.audits 0).nested.statement with
        | .failed done => (updateAuditRows v req outcome image).take done
        | .executed _ => updateAuditRows v req outcome image
      else [] := by
  obtain ⟨opened, begun⟩ : ∃ v, v = (beginStandaloneTxIfNeeded w outcome.uuid).1 := ⟨_, rfl⟩
  have idleOpened : opened.auditTrailInProgress = false := by simpa [begun] using idle
  have none : opened.effects = [] := by simpa [begun] using fresh
  have ini : opened.ini = w.ini := by simp [begun]
  obtain ⟨audited, call, rows⟩ := updateAudit_rows
    (w := opened.emit (writes (changed.map (.row req.tableName)) ++
      lobEffects req.tableName outcome.lobs)) idleOpened
    (begun ▸ beginStandaloneTxIfNeeded_active w outcome.uuid) req outcome image
  rw [World.emit_ini, ini] at rows
  refine ⟨_, Eq.trans ?_ rows⟩
  simp only [executeUpdateBatch, validated, updateRows, ready, ← begun, idleOpened, fetched, ran,
    written, call, Bool.not_true, Bool.false_eq_true, if_false]
  rw [auditRowsOf_ending, World.emit_emit, World.emit_effects, none, List.nil_append,
    auditRowsOf_append, auditRowsOf_statement, List.nil_append]

/-- FIELD_NAME, OLD_VALUE and NEW_VALUE. -/
def AuditRow.recorded (row : AuditRow) : CString × Option CString × CString :=
  (row.fieldName, row.oldValue, row.newValue)

def AuditedField.recorded (entry : AuditedField) : CString × Option CString × CString :=
  (if entry.name = [] then "UNKNOWN".toList else entry.name, some entry.oldValue, entry.newValue)

theorem updateAuditRows_recorded (w : World Row) (req : UpdateRequest)
    (outcome : UpdateOutcome Row) (image : BeforeImage) :
    (updateAuditRows w req outcome image).map AuditRow.recorded =
      (auditedFields req outcome image).map AuditedField.recorded := by
  have one : List.range updateRowCount = [0] := rfl
  simp only [updateAuditRows, auditedFields, one, List.flatMap_cons, List.flatMap_nil,
    List.append_nil, List.map_map]
  rfl

/-- The audit trail of the update is the one expected: the pairs it audits, the
    rows it writes, and the LOB columns of these rows. -/
structure RecordsChanges (w : World Row) (req : UpdateRequest) (outcome : UpdateOutcome Row)
    (image : BeforeImage) (expected : List AuditedField) : Prop where
  pairs : auditedFields req outcome image = expected
  rows : (auditRowsOf (executeUpdateBatch w req outcome).1.effects).map AuditRow.recorded =
    expected.map AuditedField.recorded
  values : expected ≠ [] → (∃ k, (outcome.audits 0).nested.statement = .executed k) ∧
    (outcome.audits 0).nested.lobs.ok = true

/-- The audit insert of the update goes through. -/
def AuditGoesThrough (w : World Row) (req : UpdateRequest) (outcome : UpdateOutcome Row)
    (count : Nat) : Prop :=
  req.tableName ≠ [] ∧ auditReaches w.ini count (outcome.audits 0) = true ∧
    (∃ k, (outcome.audits 0).nested.statement = .executed k) ∧
    (outcome.audits 0).nested.lobs.ok = true

/-- The before-image shows the first matched row as it is, no other matched row
    changes, and every new value fits its audit column. -/
structure FirstRowSuffices [DecidableEq V] (texts : ColumnTexts V) (req : UpdateRequest)
    (image : BeforeImage) (held : List (Nat → V)) : Prop where
  first : ∀ name value c, ((name, value), c) ∈ req.fields.zipIdx →
    match held.head? with
    | none => (image.get 0 c).text = value.take auditValueMax
    | some row =>
      if row c = texts.reads c value then (image.get 0 c).text = value.take auditValueMax
      else
        (image.get 0 c).text = texts.shows c (row c) ∧ value.length ≤ auditValueMax ∧
          texts.shows c (row c) ≠ value
  others : ∀ row ∈ held.tail, ∀ name value c, ((name, value), c) ∈ req.fields.zipIdx →
    row c = texts.reads c value

theorem expectedAt_row [DecidableEq V] {texts : ColumnTexts V} {r : Nat} {row : Nat → V}
    {pair : (CString × CString) × Nat} {entry : AuditedField}
    (picked : expectedAt texts r row pair = some entry) : entry.row = r ∧ entry.column = pair.2 := by
  obtain ⟨⟨name, value⟩, c⟩ := pair
  simp only [expectedAt] at picked
  split at picked
  · cases picked
  · cases picked
    exact ⟨rfl, rfl⟩

theorem recordedAt_row {image : BeforeImage} {pair : (CString × CString) × Nat}
    {entry : AuditedField} (picked : recordedAt image pair = some entry) :
    entry.row = 0 ∧ entry.column = pair.2 := by
  obtain ⟨⟨name, value⟩, c⟩ := pair
  simp only [recordedAt] at picked
  split at picked
  · cases picked
  · cases picked
    exact ⟨rfl, rfl⟩

/-- The rows after the first, and when none of them changes. -/
theorem laterFields [DecidableEq V] (texts : ColumnTexts V) (fields : List (CString × CString))
    (rest : List (Nat → V)) (k : Nat) :
    (∀ entry ∈ (rest.zipIdx (k + 1)).flatMap fun (row, r) =>
      fields.zipIdx.filterMap (expectedAt texts r row), entry.row ≠ 0) ∧
    (((rest.zipIdx (k + 1)).flatMap fun (row, r) =>
        fields.zipIdx.filterMap (expectedAt texts r row)) = [] ↔
      ∀ other ∈ rest, ∀ name value c, ((name, value), c) ∈ fields.zipIdx →
        other c = texts.reads c value) := by
  induction rest generalizing k with
  | nil => exact ⟨by simp, by simp⟩
  | cons row rest ih =>
    obtain ⟨rows, none⟩ := ih (k + 1)
    simp only [List.zipIdx_cons, List.flatMap_cons]
    constructor
    · intro entry member
      rcases List.mem_append.mp member with here | later
      · obtain ⟨pair, -, picked⟩ := List.mem_filterMap.mp here
        rw [(expectedAt_row picked).1]
        omega
      · exact rows entry later
    · rw [List.append_eq_nil_iff, none, List.filterMap_eq_nil_iff]
      constructor
      · rintro ⟨here, later⟩ other member name value c within
        rcases List.mem_cons.mp member with rfl | after
        · simpa [expectedAt] using here _ within
        · exact later other after name value c within
      · intro same
        refine ⟨fun pair within => ?_, fun other after => same other (List.mem_cons_of_mem _ after)⟩
        obtain ⟨⟨name, value⟩, c⟩ := pair
        simpa [expectedAt] using same row List.mem_cons_self name value c within

theorem recordedAt_eq_expectedAt [DecidableEq V] (texts : ColumnTexts V) (image : BeforeImage)
    (row : Nat → V) (name value : CString) (c : Nat) :
    recordedAt image ((name, value), c) = expectedAt texts 0 row ((name, value), c) ↔
      if row c = texts.reads c value then (image.get 0 c).text = value.take auditValueMax
      else
        (image.get 0 c).text = texts.shows c (row c) ∧ value.length ≤ auditValueMax ∧
          texts.shows c (row c) ≠ value := by
  have fits : value.take auditValueMax = value ↔ value.length ≤ auditValueMax :=
    List.take_eq_self_iff value
  by_cases unchanged : row c = texts.reads c value
  · simp [recordedAt, expectedAt, unchanged]
  · simp only [recordedAt, expectedAt, unchanged, if_false]
    split
    · rename_i same
      simp only [reduceCtorEq, false_iff, not_and, not_not]
      intro shown short
      rw [← shown, same, fits.mpr short]
    · rename_i different
      simp only [Option.some.injEq, AuditedField.mk.injEq, true_and, fits]
      constructor
      · rintro ⟨shown, short⟩
        refine ⟨shown, short, fun kept => different ?_⟩
        rw [shown, kept, fits.mpr short]
      · rintro ⟨shown, short, -⟩
        exact ⟨shown, short⟩

theorem auditedFields_eq_expected [DecidableEq V] (texts : ColumnTexts V) (req : UpdateRequest)
    (outcome : UpdateOutcome Row) (image : BeforeImage) (held : List (Nat → V)) :
    auditedFields req outcome image = expectedFields texts req.fields held ↔
      FirstRowSuffices texts req image held := by
  rw [auditedFields_eq]
  cases held with
  | nil =>
    rw [expectedFields, List.zipIdx_nil, List.flatMap_nil, List.filterMap_eq_nil_iff]
    constructor
    · intro none
      exact ⟨fun name value c within => by simpa [recordedAt] using none _ within,
        fun row member => by cases member⟩
    · rintro ⟨first, -⟩ ⟨⟨name, value⟩, c⟩ within
      simpa [recordedAt] using first name value c within
  | cons row rest =>
    obtain ⟨rows, none⟩ := laterFields texts req.fields rest 0
    have split : expectedFields texts req.fields (row :: rest) =
        req.fields.zipIdx.filterMap (expectedAt texts 0 row) ++
          ((rest.zipIdx (0 + 1)).flatMap fun (row, r) =>
            req.fields.zipIdx.filterMap (expectedAt texts r row)) := by
      rw [expectedFields, List.zipIdx_cons, List.flatMap_cons]
    have distinct : (req.fields.zipIdx.map Prod.snd).Nodup := by
      rw [List.zipIdx_map_snd]
      exact List.nodup_range'
    have recordedTags : ∀ a b, recordedAt image a = some b → AuditedField.column b = Prod.snd a :=
      fun _ _ picked => (recordedAt_row picked).2
    have expectedTags : ∀ a b, expectedAt texts 0 row a = some b →
        AuditedField.column b = Prod.snd a :=
      fun _ _ picked => (expectedAt_row picked).2
    have tagged := filterMap_eq_iff recordedTags expectedTags distinct
    rw [split]
    constructor
    · intro same
      have later : ((rest.zipIdx (0 + 1)).flatMap fun (row, r) =>
          req.fields.zipIdx.filterMap (expectedAt texts r row)) = [] := by
        refine List.eq_nil_iff_forall_not_mem.mpr fun entry member => ?_
        have within : entry ∈ req.fields.zipIdx.filterMap (recordedAt image) := by
          rw [same]
          exact List.mem_append_right _ member
        obtain ⟨pair, -, picked⟩ := List.mem_filterMap.mp within
        exact rows entry member (recordedAt_row picked).1
      rw [later, List.append_nil] at same
      exact ⟨fun name value c within =>
        (recordedAt_eq_expectedAt texts image row name value c).mp (tagged.mp same _ within),
        none.mp later⟩
    · rintro ⟨first, others⟩
      rw [none.mpr others, List.append_nil]
      refine tagged.mpr ?_
      rintro ⟨⟨name, value⟩, c⟩ within
      exact (recordedAt_eq_expectedAt texts image row name value c).mpr (first name value c within)

/-- A column whose values are their own texts. -/
def plainTexts : ColumnTexts CString := ⟨fun _ value => value, fun _ value => value⟩

/-- `UPDATE T SET N = 'c'` for the rows of one key, with the audit going through. -/
def setN (values : List String) : UpdateRequest × UpdateOutcome Nat :=
  (⟨"T".toList, [("N".toList, "c".toList)], [("K".toList, "1".toList)]⟩,
    { uuid := "u1".toList
      validated := true
      prepared := fun _ => true
      metadata := ["VARCHAR2".toList]
      beforeImage := some (responseWriteXml (values.map fun value =>
        [⟨"N".toList, "VARCHAR2".toList, value.toList⟩]))
      statement := .executed (List.range values.length) values.length
      lobs := ⟨0, true⟩
      audits := fun _ => ⟨true, sampleInsert true 1⟩
      completion := smoothCompletion })

def imageOf (values : List String) : BeforeImage := ⟨1, values.map fun value => [⟨value.toList, false⟩]⟩

end OciWrapper.Execute
