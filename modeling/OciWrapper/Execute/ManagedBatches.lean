import OciWrapper.Execute.BatchCourses

namespace OciWrapper.Execute

open OciWrapper.Text OciWrapper.Audit

variable {Row R : Type}

def InsertOutcome.succeeds (outcome : InsertOutcome) (ini : IniConfig) (rowCount : Nat) : Bool :=
  outcome.validated && insertReady ini rowCount outcome &&
    match outcome.statement with
    | .failed _ => false
    | .executed _ => outcome.lobs.ok && outcome.completion.responded

def UpdateOutcome.succeeds (outcome : UpdateOutcome Row) : Bool :=
  outcome.validated && updateSteps.all outcome.prepared &&
    match outcome.statement with
    | .failed _ => false
    | .executed _ _ => outcome.lobs.ok && outcome.completion.responded

/-- The update fails with rows on its counter. -/
def UpdateOutcome.failsLate (outcome : UpdateOutcome Row) : Bool :=
  outcome.validated && updateSteps.all outcome.prepared &&
    match outcome.statement with
    | .failed _ => false
    | .executed _ reported => 0 < reported && !(outcome.lobs.ok && outcome.completion.responded)

def DeleteOutcome.succeeds (outcome : DeleteOutcome Row) : Bool :=
  outcome.validated && deleteSteps.all outcome.prepared &&
    match outcome.statement with
    | .failed _ => false
    | .executed _ _ => outcome.completion.responded

/-- The delete fails with rows on its counter. -/
def DeleteOutcome.failsLate (outcome : DeleteOutcome Row) : Bool :=
  outcome.validated && deleteSteps.all outcome.prepared &&
    match outcome.statement with
    | .failed _ => false
    | .executed _ reported => 0 < reported && !outcome.completion.responded

/-- Inside a transaction a request gets to the label `Cleanup` with writes alone. -/
theorem Course.managed {w : World Row} {table : CString} {completion : Completion}
    {stop complete : Nat → List (Effect Row) → Prop} {reached : World Row × Nat × Bool}
    (course : Course w false table completion stop complete reached)
    (active : w.activeTx.isSome = true) :
    ∃ rows effects, OnlyWrites effects ∧
      (reached = (w.emit effects, rows, false) ∧ (∃ before, stop rows before) ∨
        reached = (w.emit effects, rows, completion.responded) ∧ ∃ before, complete rows before) := by
  cases course with
  | stopped only how => exact ⟨_, _, only, .inl ⟨rfl, _, how⟩⟩
  | @completed rows effects only how =>
    refine ⟨rows, _, only.append (.invalidate table), .inr ⟨?_, _, how⟩⟩
    rw [commitAndRespond_managed (by exact active), World.emit_emit]

/-- The failure path that does not look at who owns the transaction. -/
theorem cleanup_unguarded (w : World Row) (rows : Nat) (ok : Bool) (completion : Completion) :
    cleanup false false completion (w, rows, ok) =
      (w.emit (if !ok && 0 < rows then [.rollback completion.rolledBack] else []), ok) := by
  simp only [cleanup, endStandaloneTxIfOwned, Bool.false_and, Bool.not_false, Bool.and_true,
    Bool.false_eq_true, if_false]
  split <;> simp

theorem executeInsertBatch_managed {w : World Row} (active : w.activeTx.isSome = true)
    (req : InsertRequest Row) (outcome : InsertOutcome) (snapshot : SnapshotOutcome) :
    ∃ effects, OnlyWrites effects ∧ executeInsertBatch w req outcome snapshot =
      (w.emit effects, outcome.succeeds w.ini req.rows.length) := by
  simp only [executeInsertBatch, insertBatch, begin_managed active]
  cases validated : outcome.validated with
  | false => exact ⟨[], .nil, by simp [InsertOutcome.succeeds, validated]⟩
  | true =>
    obtain ⟨rows, effects, only, stopped | completed⟩ :=
      (insertRows_course (.row req.tableName)
        (fun w => auditTrailInsertSnapshot_audits (insertAuditRequest w req snapshot.lastRowid)
          snapshot w) false active req outcome).managed active
    · obtain ⟨same, before, how⟩ := stopped
      refine ⟨effects, only, ?_⟩
      rw [same, if_neg (by simp), cleanup_managed (by exact active)]
      cases how with
      | unprepared unready => simp [InsertOutcome.succeeds, validated, unready]
      | statement ready failed => simp [InsertOutcome.succeeds, validated, failed]
      | lobs ready ran failed => simp [InsertOutcome.succeeds, validated, ran, failed]
    · obtain ⟨same, before, how⟩ := completed
      refine ⟨effects, only, ?_⟩
      rw [same, if_neg (by simp), cleanup_managed (by exact active)]
      cases how with
      | audited ready ran written is same => simp [InsertOutcome.succeeds, validated, ready, ran, written]

theorem executeUpdateBatch_managed {w : World Row} (active : w.activeTx.isSome = true)
    (req : UpdateRequest) (outcome : UpdateOutcome Row) :
    ∃ effects, OnlyWrites effects ∧ executeUpdateBatch w req outcome =
      (w.emit (effects ++
        if outcome.failsLate then [.rollback outcome.completion.rolledBack] else []),
        outcome.succeeds) := by
  simp only [executeUpdateBatch, begin_managed active]
  cases validated : outcome.validated with
  | false => exact ⟨[], .nil, by simp [UpdateOutcome.succeeds, UpdateOutcome.failsLate, validated]⟩
  | true =>
    obtain ⟨rows, effects, only, stopped | completed⟩ :=
      (updateRows_course false active req outcome).managed active
    · obtain ⟨same, before, how⟩ := stopped
      refine ⟨effects, only, ?_⟩
      rw [same, if_neg (by simp), cleanup_unguarded, World.emit_emit]
      cases how with
      | unprepared unready => simp [UpdateOutcome.succeeds, UpdateOutcome.failsLate, validated, unready]
      | statement ready failed => simp [UpdateOutcome.succeeds, UpdateOutcome.failsLate, validated, failed]
      | lobs ready ran failed => simp [UpdateOutcome.succeeds, UpdateOutcome.failsLate, validated, ready, ran, failed]
    · obtain ⟨same, before, how⟩ := completed
      refine ⟨effects, only, ?_⟩
      rw [same, if_neg (by simp), cleanup_unguarded, World.emit_emit]
      cases how with
      | audited ready ran written is same => simp [UpdateOutcome.succeeds, UpdateOutcome.failsLate, validated, ready, ran, written, Bool.and_comm]

theorem executeDeleteBatch_managed {w : World Row} (active : w.activeTx.isSome = true)
    (req : DeleteRequest) (outcome : DeleteOutcome Row) :
    ∃ effects, OnlyWrites effects ∧ executeDeleteBatch w req outcome =
      (w.emit (effects ++
        if outcome.failsLate then [.rollback outcome.completion.rolledBack] else []),
        outcome.succeeds) := by
  simp only [executeDeleteBatch, begin_managed active]
  cases validated : outcome.validated with
  | false => exact ⟨[], .nil, by simp [DeleteOutcome.succeeds, DeleteOutcome.failsLate, validated, endStandaloneTxIfOwned]⟩
  | true =>
    obtain ⟨rows, effects, only, stopped | completed⟩ :=
      (deleteRows_course false active req outcome).managed active
    · obtain ⟨same, before, how⟩ := stopped
      refine ⟨effects, only, ?_⟩
      rw [same, if_neg (by simp), cleanup_unguarded, World.emit_emit]
      cases how with
      | unprepared unready => simp [DeleteOutcome.succeeds, DeleteOutcome.failsLate, validated, unready]
      | statement ready audited failed => simp [DeleteOutcome.succeeds, DeleteOutcome.failsLate, validated, failed]
    · obtain ⟨same, before, how⟩ := completed
      refine ⟨effects, only, ?_⟩
      rw [same, if_neg (by simp), cleanup_unguarded, World.emit_emit]
      cases how with
      | statement ready audited ran => simp [DeleteOutcome.succeeds, DeleteOutcome.failsLate, validated, ready, ran, Bool.and_comm]

end OciWrapper.Execute
