import OciWrapper.Execute.BatchCourses

namespace OciWrapper.Execute

open OciWrapper.Text OciWrapper.Audit

variable {Row : Type}

/-- The connection holds the transaction it held before, and a standalone
    request that comes next owns its work exactly if one before would have. -/
def KeepsIdentity (before after : World Row) : Prop :=
  after.activeTx = before.activeTx ∧ ∀ uuid,
    (beginStandaloneTxIfNeeded after uuid).2 = (beginStandaloneTxIfNeeded before uuid).2

theorem keepsIdentity_iff (before after : World Row) :
    KeepsIdentity before after ↔ after.activeTx = before.activeTx := by
  constructor
  · exact And.left
  · intro same
    refine ⟨same, fun uuid => ?_⟩
    rw [beginStandaloneTxIfNeeded_owns, beginStandaloneTxIfNeeded_owns, same]

theorem cleanup_activeTx (guarded owns : Bool) (completion : Completion)
    (reached : World Row × Nat × Bool) :
    (cleanup guarded owns completion reached).1.activeTx =
      (endStandaloneTxIfOwned reached.1 owns).activeTx := by
  unfold cleanup endStandaloneTxIfOwned
  cases owns with
  | true => rfl
  | false =>
    simp only [Bool.false_eq_true, if_false]
    split <;> rfl

/-- Every path that reaches `Cleanup` closes the identity it opened. -/
theorem cleanup_closes {w : World Row} {uuid table : CString} {guarded : Bool}
    {completion : Completion} {stop complete : Nat → List (Effect Row) → Prop}
    {reached : World Row × Nat × Bool}
    (course : Course (beginStandaloneTxIfNeeded w uuid).1 (beginStandaloneTxIfNeeded w uuid).2
      table completion stop complete reached) :
    (cleanup guarded (beginStandaloneTxIfNeeded w uuid).2 completion reached).1.activeTx =
      w.activeTx := by
  obtain ⟨effects, same⟩ := course.frame
  rw [cleanup_activeTx, same, ← endStandaloneTx_begin w uuid]
  unfold endStandaloneTxIfOwned
  split <;> rfl

/-- A return that skips the closing keeps the identity only if it was not opened. -/
theorem begin_keeps_iff (w : World Row) (uuid : CString) :
    (beginStandaloneTxIfNeeded w uuid).1.activeTx = w.activeTx ↔ w.activeTx.isSome = true := by
  unfold beginStandaloneTxIfNeeded
  cases active : w.activeTx with
  | none => simp
  | some handle => simp [active]

theorem executeInsertBatch_activeTx (w : World Row) (req : InsertRequest Row)
    (outcome : InsertOutcome) (snapshot : SnapshotOutcome) :
    (executeInsertBatch w req outcome snapshot).1.activeTx = w.activeTx ↔
      w.activeTx.isSome = true ∨ outcome.validated = true := by
  simp only [executeInsertBatch, insertBatch]
  cases outcome.validated with
  | false => simp [begin_keeps_iff]
  | true =>
    simp only [Bool.not_true, Bool.false_eq_true, if_false, or_true, iff_true]
    exact cleanup_closes (insertRows_course (.row req.tableName)
      (fun w => auditTrailInsertSnapshot_audits (insertAuditRequest w req snapshot.lastRowid)
        snapshot w)
      _ (beginStandaloneTxIfNeeded_active w outcome.uuid) req outcome)

theorem executeUpdateBatch_activeTx (w : World Row) (req : UpdateRequest)
    (outcome : UpdateOutcome Row) :
    (executeUpdateBatch w req outcome).1.activeTx = w.activeTx ↔
      w.activeTx.isSome = true ∨ outcome.validated = true := by
  simp only [executeUpdateBatch]
  cases outcome.validated with
  | false => simp [begin_keeps_iff]
  | true =>
    simp only [Bool.not_true, Bool.false_eq_true, if_false, or_true, iff_true]
    exact cleanup_closes
      (updateRows_course _ (beginStandaloneTxIfNeeded_active w outcome.uuid) req outcome)

/-- The module that also closes the identity when Stage 1 rejects the request. -/
theorem executeDeleteBatch_activeTx (w : World Row) (req : DeleteRequest)
    (outcome : DeleteOutcome Row) :
    (executeDeleteBatch w req outcome).1.activeTx = w.activeTx := by
  simp only [executeDeleteBatch]
  split
  · exact endStandaloneTx_begin w outcome.uuid
  · exact cleanup_closes
      (deleteRows_course _ (beginStandaloneTxIfNeeded_active w outcome.uuid) req outcome)

/-- An insert or update gives the identity back exactly if it found one or passed
    Stage 1; a delete always does. -/
theorem batches_keep_identity (w : World Row) :
    (∀ req outcome snapshot, KeepsIdentity w (executeInsertBatch w req outcome snapshot).1 ↔
      w.activeTx.isSome = true ∨ outcome.validated = true) ∧
    (∀ req outcome, KeepsIdentity w (executeUpdateBatch w req outcome).1 ↔
      w.activeTx.isSome = true ∨ outcome.validated = true) ∧
    ∀ req outcome, KeepsIdentity w (executeDeleteBatch w req outcome).1 := by
  refine ⟨fun req outcome snapshot => ?_, fun req outcome => ?_, fun req outcome => ?_⟩
  · rw [keepsIdentity_iff, executeInsertBatch_activeTx]
  · rw [keepsIdentity_iff, executeUpdateBatch_activeTx]
  · rw [keepsIdentity_iff]
    exact executeDeleteBatch_activeTx w req outcome

def sampleIni : IniConfig where
  username := "APP".toList
  txTimeoutSeconds := 300
  txMaxRetries := 3
  maxBulkInserts := 500
  authMaxFailedAttempts := 5

def idleWorld : World Nat := ⟨sampleIni, none, false, []⟩

def smoothCompletion : Completion := ⟨fun _ => .ok, true, true⟩

/-- An insert that succeeds unless Stage 1 rejects it. -/
def sampleInsert (validated : Bool) (rows : Nat) : InsertOutcome where
  uuid := "u1".toList
  validated := validated
  prepared := fun _ => true
  statement := .executed rows
  lobs := ⟨0, true⟩
  completion := smoothCompletion

/-- No audit rows are allocated. -/
def unaudited : SnapshotOutcome where
  allocated := false
  nested := sampleInsert false 0
  lastRowid := []
  snapshots := fun _ => []

def insertInto (table : String) (rows : List Nat) : InsertRequest Nat := ⟨table.toList, 1, rows⟩

/-- A rejected insert leaves its identity behind, and the insert after it reports
    success without a commit. -/
theorem rejected_insert_leaks :
    ¬ (∀ (w : World Nat) req outcome snapshot,
      KeepsIdentity w (executeInsertBatch w req outcome snapshot).1) ∧
    let rejected := (executeInsertBatch idleWorld (insertInto "T" [1]) (sampleInsert false 1)
      unaudited).1
    let next := executeInsertBatch rejected (insertInto "T" [2]) (sampleInsert true 1) unaudited
    next.2 = true ∧ next.1.effects = [.write (.row "T".toList 2), .invalidate "T".toList] := by
  constructor
  · intro keeps
    have kept := (keeps idleWorld (insertInto "T" [1]) (sampleInsert false 1) unaudited).1
    exact absurd kept (by decide)
  · decide

end OciWrapper.Execute
