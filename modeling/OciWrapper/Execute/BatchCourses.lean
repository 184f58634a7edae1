import OciWrapper.Execute.BatchModules

namespace OciWrapper.Execute

open OciWrapper.Text OciWrapper.Audit

variable {Row R : Type}

/-- How a request that started in `w` reaches the label `Cleanup`: it stops with
    `rows` on its counter, or it gets to its commit. -/
inductive Course (w : World Row) (owns : Bool) (table : CString) (completion : Completion)
    (stop complete : Nat → List (Effect Row) → Prop) : World Row × Nat × Bool → Prop
  | stopped {rows effects} (only : OnlyWrites effects) (how : stop rows effects) :
    Course w owns table completion stop complete (w.emit effects, rows, false)
  | completed {rows effects} (only : OnlyWrites effects) (how : complete rows effects) :
    Course w owns table completion stop complete
      ((commitAndRespond (w.emit effects) owns table completion).1, rows,
        (commitAndRespond (w.emit effects) owns table completion).2)

theorem Course.unchanged {w : World Row} {owns : Bool} {table : CString} {completion : Completion}
    {stop complete : Nat → List (Effect Row) → Prop} (how : stop 0 []) :
    Course w owns table completion stop complete (w, 0, false) := by
  have stopped : Course w owns table completion stop complete (w.emit [], 0, false) :=
    .stopped .nil how
  rwa [World.emit_nil] at stopped

/-- The audit call of a module: made only when no audit is in progress. -/
theorem guardedAudit {audit : World Row → World Row × Bool} (audits : Audits audit)
    {w : World Row} (active : w.activeTx.isSome = true) :
    ∃ effects, OnlyWrites effects ∧
      (if w.auditTrailInProgress then w else (audit w).1) = w.emit effects := by
  split
  · exact ⟨[], .nil, w.emit_nil.symm⟩
  · rename_i idle
    exact audits w (Bool.eq_false_iff.mpr idle) active

inductive InsertStop (inject : R → Write Row) (ini : IniConfig) (req : InsertRequest R)
    (outcome : InsertOutcome) : Nat → List (Effect Row) → Prop
  | unprepared (unready : insertReady ini req.rows.length outcome = false) :
    InsertStop inject ini req outcome 0 []
  | statement {done} (ready : insertReady ini req.rows.length outcome = true)
    (failed : outcome.statement = .failed done) :
    InsertStop inject ini req outcome 0 (writes ((req.rows.take done).map inject))
  | lobs {rows} (ready : insertReady ini req.rows.length outcome = true)
    (ran : outcome.statement = .executed rows) (failed : outcome.lobs.ok = false) :
    InsertStop inject ini req outcome rows
      (writes (req.rows.map inject) ++ lobEffects req.tableName outcome.lobs)

/-- The effects of a course that reaches its commit: the statement, then the audit. -/
inductive InsertDone (inject : R → Write Row) (audit : World Row → World Row × Bool) (w : World Row)
    (req : InsertRequest R) (outcome : InsertOutcome) : Nat → List (Effect Row) → Prop
  | audited {rows statement effects}
    (ready : insertReady w.ini req.rows.length outcome = true)
    (ran : outcome.statement = .executed rows) (written : outcome.lobs.ok = true)
    (is : statement = writes (req.rows.map inject) ++ lobEffects req.tableName outcome.lobs)
    (same : (if (w.emit statement).auditTrailInProgress then w.emit statement
      else (audit (w.emit statement)).1) = (w.emit statement).emit effects) :
    InsertDone inject audit w req outcome rows (statement ++ effects)

theorem insertRows_course (inject : R → Write Row) {audit : World Row → World Row × Bool}
    (audits : Audits audit) (owns : Bool) {w : World Row} (active : w.activeTx.isSome = true)
    (req : InsertRequest R) (outcome : InsertOutcome) :
    Course w owns req.tableName outcome.completion (InsertStop inject w.ini req outcome)
      (InsertDone inject audit w req outcome)
      (insertRows inject (fun w => (audit w).1) owns w req outcome) := by
  unfold insertRows
  split
  · rename_i unready
    exact .unchanged (.unprepared (by simpa using unready))
  · rename_i notUnready
    have ready : insertReady w.ini req.rows.length outcome = true := by simpa using notUnready
    split
    · rename_i done failed
      exact .stopped (.writes _) (.statement ready failed)
    · rename_i reported ran
      have statement : OnlyWrites (writes (req.rows.map inject) ++
          lobEffects req.tableName outcome.lobs) := .append (.writes _) (.writes _)
      dsimp only
      split
      · rename_i failed
        exact .stopped statement (.lobs ready ran (by simpa using failed))
      · rename_i written
        obtain ⟨effects, only, same⟩ := guardedAudit audits
          (w := w.emit (writes (req.rows.map inject) ++ lobEffects req.tableName outcome.lobs)) active
        rw [same, World.emit_emit]
        exact .completed (statement.append only)
          (.audited ready ran (by simpa using written) rfl same)

theorem updateAudit_emit {w : World Row} (active : w.activeTx.isSome = true) (req : UpdateRequest)
    (outcome : UpdateOutcome Row) (oldValues : Option BeforeImage) :
    ∃ effects, OnlyWrites effects ∧ updateAudit w req outcome oldValues = w.emit effects := by
  cases oldValues with
  | none => exact ⟨[], .nil, w.emit_nil.symm⟩
  | some image => exact guardedAudit (auditTrailInsertUpdate_audits _ _ _ image outcome.audits) active

inductive UpdateStop (req : UpdateRequest) (outcome : UpdateOutcome Row) :
    Nat → List (Effect Row) → Prop
  | unprepared (unready : updateSteps.all outcome.prepared = false) : UpdateStop req outcome 0 []
  | statement {changed} (ready : updateSteps.all outcome.prepared = true)
    (failed : outcome.statement = .failed changed) :
    UpdateStop req outcome 0 (writes (changed.map (.row req.tableName)))
  | lobs {changed rows} (ready : updateSteps.all outcome.prepared = true)
    (ran : outcome.statement = .executed changed rows) (failed : outcome.lobs.ok = false) :
    UpdateStop req outcome rows
      (writes (changed.map (.row req.tableName)) ++ lobEffects req.tableName outcome.lobs)

/-- The before-image an update audits from. -/
def updateOldValues (w : World Row) (req : UpdateRequest) (outcome : UpdateOutcome Row) :
    Option BeforeImage :=
  if w.auditTrailInProgress then none
  else auditTrailFetchBeforeImage (req.fields.map Prod.fst) outcome.beforeImage

inductive UpdateDone (w : World Row) (req : UpdateRequest) (outcome : UpdateOutcome Row) :
    Nat → List (Effect Row) → Prop
  | audited {rows changed statement effects} (ready : updateSteps.all outcome.prepared = true)
    (ran : outcome.statement = .executed changed rows) (written : outcome.lobs.ok = true)
    (is : statement =
      writes (changed.map (.row req.tableName)) ++ lobEffects req.tableName outcome.lobs)
    (same : updateAudit (w.emit statement) req outcome (updateOldValues w req outcome) =
      (w.emit statement).emit effects) :
    UpdateDone w req outcome rows (statement ++ effects)

theorem updateRows_course (owns : Bool) {w : World Row} (active : w.activeTx.isSome = true)
    (req : UpdateRequest) (outcome : UpdateOutcome Row) :
    Course w owns req.tableName outcome.completion (UpdateStop req outcome)
      (UpdateDone w req outcome) (updateRows owns w req outcome) := by
  unfold updateRows
  split
  · rename_i unready
    exact .unchanged (.unprepared (by simpa using unready))
  · rename_i notUnready
    have ready : updateSteps.all outcome.prepared = true := by simpa using notUnready
    dsimp only
    split
    · rename_i changed failed
      exact .stopped (.writes _) (.statement ready failed)
    · rename_i changed reported ran
      have statement : OnlyWrites (writes (changed.map (.row req.tableName)) ++
          lobEffects req.tableName outcome.lobs) := .append (.writes _) (.writes _)
      split
      · rename_i failed
        exact .stopped statement (.lobs ready ran (by simpa using failed))
      · rename_i written
        obtain ⟨effects, only, same⟩ := updateAudit_emit
          (w := w.emit (writes (changed.map (.row req.tableName)) ++
            lobEffects req.tableName outcome.lobs)) active req outcome
          (updateOldValues w req outcome)
        have audited := same
        unfold updateOldValues at audited
        rw [audited, World.emit_emit]
        exact .completed (statement.append only)
          (.audited ready ran (by simpa using written) rfl same)

theorem deleteAudit_emit {w : World Row} (active : w.activeTx.isSome = true) (req : DeleteRequest)
    (outcome : DeleteOutcome Row) :
    ∃ effects, OnlyWrites effects ∧ deleteAudit w req outcome = w.emit effects := by
  unfold deleteAudit
  cases auditTrailFetchBeforeImage (req.keys.map Prod.fst) outcome.beforeImage with
  | none => exact ⟨[], .nil, by simp⟩
  | some image => exact guardedAudit (auditTrailInsertDelete_audits _ _ image outcome.audits) active

inductive DeleteStop (w : World Row) (req : DeleteRequest) (outcome : DeleteOutcome Row) :
    Nat → List (Effect Row) → Prop
  | unprepared (unready : deleteSteps.all outcome.prepared = false) : DeleteStop w req outcome 0 []
  | statement {changed audited} (ready : deleteSteps.all outcome.prepared = true)
    (same : deleteAudit w req outcome = w.emit audited)
    (failed : outcome.statement = .failed changed) :
    DeleteStop w req outcome 0 (audited ++ writes (changed.map (.row req.tableName)))

inductive DeleteDone (w : World Row) (req : DeleteRequest) (outcome : DeleteOutcome Row) :
    Nat → List (Effect Row) → Prop
  | statement {rows changed audited} (ready : deleteSteps.all outcome.prepared = true)
    (same : deleteAudit w req outcome = w.emit audited)
    (ran : outcome.statement = .executed changed rows) :
    DeleteDone w req outcome rows (audited ++ writes (changed.map (.row req.tableName)))

theorem deleteRows_course (owns : Bool) {w : World Row} (active : w.activeTx.isSome = true)
    (req : DeleteRequest) (outcome : DeleteOutcome Row) :
    Course w owns req.tableName outcome.completion (DeleteStop w req outcome)
      (DeleteDone w req outcome) (deleteRows owns w req outcome) := by
  unfold deleteRows
  split
  · rename_i unready
    exact .unchanged (.unprepared (by simpa using unready))
  · rename_i notUnready
    have ready : deleteSteps.all outcome.prepared = true := by simpa using notUnready
    obtain ⟨audited, only, same⟩ := deleteAudit_emit active req outcome
    dsimp only
    rw [same]
    split
    · rename_i changed failed
      rw [World.emit_emit]
      exact .stopped (only.append (.writes _)) (.statement ready same failed)
    · rename_i changed reported ran
      rw [World.emit_emit]
      exact .completed (only.append (.writes _)) (.statement ready same ran)

/-- From its commit on a request writes nothing and has the connection as it was. -/
theorem commitAndRespond_frame (w : World Row) (owns : Bool) (table : CString)
    (completion : Completion) :
    ∃ effects, writtenBy effects = [] ∧
      (commitAndRespond w owns table completion).1 = w.emit effects := by
  obtain ⟨effects, emits, unwritten, -⟩ :=
    txCommitWithRetry_spec w completion.commits w.ini.txMaxRetries
  unfold commitAndRespond
  split
  · exact ⟨_, rfl, rfl⟩
  · split
    · rename_i after failed
      exact ⟨_, unwritten, (congrArg Prod.fst failed).symm.trans emits⟩
    · rename_i after committed
      have same : after = w.emit effects := (congrArg Prod.fst committed).symm.trans emits
      exact ⟨effects ++ [.invalidate table], by rw [writtenBy_append, unwritten]; rfl,
        by rw [same, World.emit_emit]⟩

theorem cleanup_effects (guarded owns : Bool) (completion : Completion)
    (reached : World Row × Nat × Bool) :
    ∃ ending, writtenBy ending = [] ∧
      (cleanup guarded owns completion reached).1.effects = reached.1.effects ++ ending := by
  have ended : ∀ w : World Row, (endStandaloneTxIfOwned w owns).effects = w.effects := by
    intro w
    unfold endStandaloneTxIfOwned
    split <;> rfl
  simp only [cleanup, ended]
  split
  · exact ⟨[.rollback completion.rolledBack], rfl, rfl⟩
  · exact ⟨[], rfl, (List.append_nil _).symm⟩

theorem Course.frame {w : World Row} {owns : Bool} {table : CString} {completion : Completion}
    {stop complete : Nat → List (Effect Row) → Prop} {reached : World Row × Nat × Bool}
    (course : Course w owns table completion stop complete reached) :
    ∃ effects, reached.1 = w.emit effects := by
  cases course with
  | stopped only how => exact ⟨_, rfl⟩
  | completed only how =>
    obtain ⟨effects, -, same⟩ := commitAndRespond_frame _ _ _ _
    exact ⟨_, same.trans (w.emit_emit _ _)⟩

end OciWrapper.Execute
