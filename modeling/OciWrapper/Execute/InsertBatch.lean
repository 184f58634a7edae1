import OciWrapper.Execute.TransactionManager

namespace OciWrapper.Execute

open OciWrapper.Text OciWrapper.Store

variable {Row R : Type}

/-- What the end of a request meets: the commits of its own transaction, the
    response it builds, the rollback of its failure path. -/
structure Completion where
  commits : Nat → CommitResult
  responded : Bool
  rolledBack : Bool

/-- The writes into LOB columns up to the first that fails. -/
structure LobWrites where
  done : Nat
  ok : Bool

def lobEffects (table : CString) (lobs : LobWrites) : List (Effect Row) :=
  writes ((List.range lobs.done).map (.lob table))

/-- Commit unless a managed transaction is open, invalidate, build the response. -/
def commitAndRespond (w : World Row) (owns : Bool) (table : CString) (completion : Completion) :
    World Row × Bool :=
  if w.activeTx.isSome && !owns then (w.emit [.invalidate table], completion.responded)
  else
    match txCommitWithRetry w completion.commits w.ini.txMaxRetries with
    | (w, false) => (w, false)
    | (w, true) => (w.emit [.invalidate table], completion.responded)

/-- The label `Cleanup`, for the world, the row counter and the result that reach it. -/
def cleanup (guarded owns : Bool) (completion : Completion) (reached : World Row × Nat × Bool) :
    World Row × Bool :=
  let (w, rows, ok) := reached
  let w :=
    if !ok && 0 < rows && !(guarded && (w.activeTx.isSome && !owns)) then
      w.emit [.rollback completion.rolledBack]
    else w
  (endStandaloneTxIfOwned w owns, ok)

structure InsertRequest (R : Type) where
  tableName : CString
  columnCount : Nat
  rows : List R

/-- The steps of `execute_insert_batch` before its statement, in order. -/
inductive InsertStep
  | allocateContext | buildContext | fetchMetadata | buildSql | selectDriver
  | allocateBinds | allocateTexts | resolveTexts
  deriving DecidableEq

def insertSteps : List InsertStep :=
  [.allocateContext, .buildContext, .fetchMetadata, .buildSql, .selectDriver, .allocateBinds,
    .allocateTexts, .resolveTexts]

/-- The driver inserts row by row; a failure leaves the rows already done. -/
inductive InsertStatement
  | executed (reported : Nat)
  | failed (done : Nat)

structure InsertOutcome where
  uuid : CString
  validated : Bool
  prepared : InsertStep → Bool
  statement : InsertStatement
  lobs : LobWrites
  completion : Completion

/-- `max_bulk_inserts`, never below one. -/
def maxBatch (ini : IniConfig) : Int := max 1 ini.maxBulkInserts

/-- Every step before the statement succeeds. -/
def insertReady (ini : IniConfig) (rowCount : Nat) (outcome : InsertOutcome) : Bool :=
  insertSteps.all outcome.prepared && rowCount ≤ maxBatch ini

/-- From the end of Stage 1 to the label `Cleanup`. -/
def insertRows (inject : R → Write Row) (audit : World Row → World Row) (owns : Bool)
    (w : World Row) (req : InsertRequest R) (outcome : InsertOutcome) : World Row × Nat × Bool :=
  if !insertReady w.ini req.rows.length outcome then (w, 0, false)
  else
    match outcome.statement with
    | .failed done => (w.emit (writes ((req.rows.take done).map inject)), 0, false)
    | .executed reported =>
      let w := w.emit (writes (req.rows.map inject) ++ lobEffects req.tableName outcome.lobs)
      if !outcome.lobs.ok then (w, reported, false)
      else
        let w := if w.auditTrailInProgress then w else audit w
        let (w, ok) := commitAndRespond w owns req.tableName outcome.completion
        (w, reported, ok)

/-- `execute_insert_batch`; `audit` is the call it makes when no audit is in progress. -/
def insertBatch (inject : R → Write Row) (audit : World Row → World Row) (w : World Row)
    (req : InsertRequest R) (outcome : InsertOutcome) : World Row × Bool :=
  let (w, owns) := beginStandaloneTxIfNeeded w outcome.uuid
  if !outcome.validated then (w, false)
  else cleanup true owns outcome.completion (insertRows inject audit owns w req outcome)

/-- With the flag set the module makes no audit call. -/
theorem insertBatch_inProgress (inject : R → Write Row) (audit other : World Row → World Row)
    {w : World Row} (inProgress : w.auditTrailInProgress = true) (req : InsertRequest R)
    (outcome : InsertOutcome) :
    insertBatch inject audit w req outcome = insertBatch inject other w req outcome := by
  simp [insertBatch, insertRows, inProgress]

/-- What an insert does inside a transaction while an audit is in progress. -/
def nestedInsert (inject : R → Write Row) (ini : IniConfig) (req : InsertRequest R)
    (outcome : InsertOutcome) : List (Effect Row) × Bool :=
  if !outcome.validated then ([], false)
  else if !insertReady ini req.rows.length outcome then ([], false)
  else
    match outcome.statement with
    | .failed done => (writes ((req.rows.take done).map inject), false)
    | .executed _ =>
      let effects := writes (req.rows.map inject) ++ lobEffects req.tableName outcome.lobs
      if !outcome.lobs.ok then (effects, false)
      else (effects ++ [.invalidate req.tableName], outcome.completion.responded)

/-- The guarded failure path leaves a managed transaction alone. -/
theorem cleanup_managed {w : World Row} (active : w.activeTx.isSome = true) (rows : Nat)
    (ok : Bool) (completion : Completion) :
    cleanup true false completion (w, rows, ok) = (w, ok) := by
  simp [cleanup, endStandaloneTxIfOwned, active]

theorem commitAndRespond_managed {w : World Row} (active : w.activeTx.isSome = true)
    (table : CString) (completion : Completion) :
    commitAndRespond w false table completion =
      (w.emit [.invalidate table], completion.responded) := by
  simp [commitAndRespond, active]

theorem insertBatch_nested (inject : R → Write Row) (audit : World Row → World Row)
    {w : World Row} (inProgress : w.auditTrailInProgress = true) (active : w.activeTx.isSome = true)
    (req : InsertRequest R) (outcome : InsertOutcome) :
    insertBatch inject audit w req outcome =
      (w.emit (nestedInsert inject w.ini req outcome).1,
        (nestedInsert inject w.ini req outcome).2) := by
  rw [insertBatch, begin_managed active]
  unfold nestedInsert insertRows
  cases outcome.validated
  · simp
  · simp only [Bool.not_true, Bool.false_eq_true, if_false]
    split
    · rw [cleanup_managed active, World.emit_nil]
    · cases outcome.statement with
      | failed done =>
        dsimp only
        rw [cleanup_managed (by exact active)]
      | executed reported =>
        dsimp only
        split
        · rw [cleanup_managed (by exact active)]
        · rw [World.emit_auditTrailInProgress, if_pos inProgress,
            commitAndRespond_managed (by exact active), cleanup_managed (by exact active),
            World.emit_emit]

theorem nestedInsert_onlyWrites (inject : R → Write Row) (ini : IniConfig)
    (req : InsertRequest R) (outcome : InsertOutcome) :
    OnlyWrites (nestedInsert inject ini req outcome).1 := by
  unfold nestedInsert
  split
  · exact .nil
  · split
    · exact .nil
    · split
      · exact .writes _
      · have statement : OnlyWrites (writes (req.rows.map inject) ++
            lobEffects req.tableName outcome.lobs) := .append (.writes _) (.writes _)
        dsimp only
        split
        · exact statement
        · exact statement.append (.invalidate _)

end OciWrapper.Execute
