import OciWrapper.Infra.AuthManager
import OciWrapper.Execute.RequestSequence

namespace OciWrapper.Core

open OciWrapper.Text OciWrapper.Store OciWrapper.Execute OciWrapper.Infra

variable {Row : Type}

/-- What `execute_ddl_statement` meets; the server may commit on its own. -/
structure DdlOutcome where
  uuid : CString
  copied : Bool
  executed : Bool
  commits : Bool

/-- `execute_ddl_statement`; it refuses to run inside a transaction. -/
def executeDdlStatement (w : World Row) (outcome : DdlOutcome) : World Row × Bool :=
  if w.activeTx.isSome then (w, false)
  else if !outcome.copied then (w, false)
  else
    let (w, owns) := beginStandaloneTxIfNeeded w outcome.uuid
    (endStandaloneTxIfOwned (w.emit [.ddl outcome.commits]) owns, outcome.executed)

/-- The statements of one DDL operation, up to the first that fails. -/
def executeDdl (w : World Row) : List DdlOutcome → World Row × Bool
  | [] => (w, true)
  | outcome :: rest =>
    match executeDdlStatement w outcome with
    | (w, false) => (w, false)
    | (w, true) => executeDdl w rest

/-- An operation that Level 2 accepts, with what its own steps bring. A CREATE USER
    has a second statement when roles are granted. -/
inductive Operation (Row : Type)
  | select (ok : Bool)
  | data (request : Request Row)
  | executeProcedure (written : List (Write Row)) (ok : Bool)
  | authenticate (req : AuthenticateRequest) (outcome : AuthOutcome Row)
  | checkPermission (allowed : Bool)
  | ddl (first : DdlOutcome) (roleGrant : Option DdlOutcome) (responded : Bool)

def dispatchOperation (w : World Row) : Operation Row → World Row × Bool
  | .select ok => (w, ok)
  | .data request => runRequest w request
  | .executeProcedure written ok => (w.emit (writes written), ok)
  | .authenticate req outcome =>
    let (w, result) := authAuthenticate w req outcome
    (w, result = .ok)
  | .checkPermission _ => (w, true)
  | .ddl first roleGrant responded =>
    let (w, executed) := executeDdl w (first :: roleGrant.toList)
    (w, executed && responded)

/-- The loop of a transactional request: the effects of each operation up to the
    first that fails, and whether none did. -/
def dispatchOperations (w : World Row) :
    List (Operation Row) → World Row × List (List (Effect Row)) × Bool
  | [] => (w, [], true)
  | operation :: rest =>
    match dispatchOperation { w with effects := [] } operation with
    | (w, false) => (w, [w.effects], false)
    | (w, true) =>
      let (after, blocks, ok) := dispatchOperations w rest
      (after, w.effects :: blocks, ok)

/-- What the dispatcher's own calls around the loop bring. -/
structure ScopeOutcome where
  uuid : CString
  commits : Nat → CommitResult
  rolledBack : Bool

structure ScopeRun (Row : Type) where
  operations : List (List (Effect Row))
  ending : List (Effect Row)
  ok : Bool

/-- The part of `process_xml_file` for a request with `transaction_required`. -/
def processTransaction (w : World Row) (sessionId transactionName : CString)
    (operations : List (Operation Row)) (outcome : ScopeOutcome) : World Row × ScopeRun Row :=
  match txBegin w txInit sessionId transactionName outcome.uuid with
  | (w, _, .noActive) | (w, _, .alreadyActive) | (w, _, .ociFailure) => (w, ⟨[], [], false⟩)
  | (w, handle, .ok) =>
    let (w, blocks, ok) := dispatchOperations w operations
    let w := { w with effects := [] }
    if ok then
      let (w, _, result) := txCommit w handle outcome.commits outcome.rolledBack
      ({ w with activeTx := none }, ⟨blocks, w.effects, result = .ok⟩)
    else
      let (w, _, _) := txRollback w handle outcome.rolledBack
      ({ w with activeTx := none }, ⟨blocks, w.effects, false⟩)

/-- No operation ends the transaction, and its end decides on all changes at once. -/
structure Undivided (run : ScopeRun Row) : Prop where
  untouched : ∀ block ∈ run.operations, OnlyWrites block
  committed : TxStore.effectOf (actionsOf (run.operations.flatten ++ run.ending)) =
    if run.ok then writtenBy run.operations.flatten else []

def Operation.succeeds (ini : IniConfig) : Operation Row → Bool
  | .select ok => ok
  | .data (.insert req outcome _) => outcome.succeeds ini req.rows.length
  | .data (.update _ outcome) => outcome.succeeds
  | .data (.delete _ outcome) => outcome.succeeds
  | .executeProcedure _ ok => ok
  | .authenticate req outcome => outcome.succeeds ini req
  | .checkPermission _ => true
  | .ddl _ _ _ => false

/-- The operation ends the transaction by itself. -/
def Operation.endsTransaction (ini : IniConfig) : Operation Row → Bool
  | .data (.update _ outcome) => outcome.failsLate
  | .data (.delete _ outcome) => outcome.failsLate
  | .authenticate req outcome => outcome.commitsItself ini req
  | .data (.insert _ _ _) | .select _ | .executeProcedure _ _ | .checkPermission _ | .ddl _ _ _ =>
    false

/-- The operations the loop gets to. -/
def reached (ini : IniConfig) : List (Operation Row) → List (Operation Row)
  | [] => []
  | operation :: rest =>
    operation :: if operation.succeeds ini then reached ini rest else []

theorem onlyWrites_rollback {effects : List (Effect Row)} (only : OnlyWrites effects)
    (late done : Bool) :
    OnlyWrites (effects ++ if late then [.rollback done] else []) ↔ late = false := by
  rw [OnlyWrites.append_iff]
  cases late with
  | false => simp [only, OnlyWrites.nil]
  | true => simp [OnlyWrites]

/-- What one operation does inside a transaction. -/
theorem dispatchOperation_managed {w : World Row} (active : w.activeTx.isSome = true)
    (operation : Operation Row) :
    ∃ effects, (OnlyWrites effects ↔ operation.endsTransaction w.ini = false) ∧
      dispatchOperation w operation = (w.emit effects, operation.succeeds w.ini) := by
  cases operation with
  | select ok => exact ⟨[], by simp [OnlyWrites.nil, Operation.endsTransaction],
      by simp [dispatchOperation, Operation.succeeds]⟩
  | data request =>
    cases request with
    | insert req outcome snapshot =>
      obtain ⟨effects, only, same⟩ := executeInsertBatch_managed active req outcome snapshot
      exact ⟨effects, by simp [only, Operation.endsTransaction], same⟩
    | update req outcome =>
      obtain ⟨effects, only, same⟩ := executeUpdateBatch_managed active req outcome
      exact ⟨_, onlyWrites_rollback only _ _, same⟩
    | delete req outcome =>
      obtain ⟨effects, only, same⟩ := executeDeleteBatch_managed active req outcome
      exact ⟨_, onlyWrites_rollback only _ _, same⟩
  | executeProcedure written ok =>
    exact ⟨_, by simp [OnlyWrites.writes, Operation.endsTransaction], rfl⟩
  | authenticate req outcome =>
    obtain ⟨effects, same, only, ok⟩ := authAuthenticate_managed active req outcome
    refine ⟨effects, only, ?_⟩
    simp only [dispatchOperation, same, Operation.succeeds, ok, Bool.decide_eq_true]
  | checkPermission allowed => exact ⟨[], by simp [OnlyWrites.nil, Operation.endsTransaction],
      by simp [dispatchOperation, Operation.succeeds]⟩
  | ddl first roleGrant responded =>
    refine ⟨[], by simp [OnlyWrites.nil, Operation.endsTransaction], ?_⟩
    simp [dispatchOperation, executeDdl, executeDdlStatement, active, Operation.succeeds]

/-- What the loop does inside a transaction. -/
theorem dispatchOperations_managed {w : World Row} (active : w.activeTx.isSome = true)
    (operations : List (Operation Row)) :
    ∃ blocks, ∃ effects, dispatchOperations w operations =
        ({ w with effects := effects }, blocks, (reached w.ini operations).all (·.succeeds w.ini)) ∧
      ((∀ block ∈ blocks, OnlyWrites block) ↔
        ∀ operation ∈ reached w.ini operations, operation.endsTransaction w.ini = false) := by
  induction operations generalizing w with
  | nil => exact ⟨[], w.effects, rfl, by simp [reached]⟩
  | cons operation rest ih =>
    obtain ⟨effects, only, same⟩ :=
      dispatchOperation_managed (w := { w with effects := [] }) active operation
    simp only [dispatchOperations, same, reached]
    cases succeeds : operation.succeeds w.ini with
    | false => exact ⟨[effects], effects, by simp [World.emit, succeeds], by simp [only]⟩
    | true =>
      obtain ⟨blocks, last, run, quiet⟩ :=
        ih (w := { w with effects := effects }) active
      refine ⟨effects :: blocks, last, ?_, by simp [only, quiet]⟩
      simp only [World.emit, List.nil_append, run]
      simp [succeeds]

theorem onlyWrites_flatten {blocks : List (List (Effect Row))}
    (each : ∀ block ∈ blocks, OnlyWrites block) : OnlyWrites blocks.flatten := by
  induction blocks with
  | nil => exact .nil
  | cons block blocks ih =>
    exact .append (each block List.mem_cons_self)
      (ih fun other member => each other (List.mem_cons_of_mem _ member))

theorem effectOf_committed {effects ending : List (Effect Row)} (only : OnlyWrites effects)
    (ends : actionsOf ending = [.commit]) :
    TxStore.effectOf (actionsOf (effects ++ ending)) = writtenBy effects := by
  rw [actionsOf_append, only.actions, ends, TxStore.effectOf, TxStore.replay_append,
    TxStore.replay_writes]
  rfl

theorem effectOf_uncommitted {effects ending : List (Effect Row)} (only : OnlyWrites effects)
    (ends : TxAction.commit ∉ actionsOf ending) :
    TxStore.effectOf (actionsOf (effects ++ ending)) = [] := by
  rw [TxStore.effectOf, TxStore.replay_committed]
  · rfl
  · rw [actionsOf_append, only.actions, List.mem_append, not_or]
    exact ⟨by simp, ends⟩

/-- The end of a transaction whose operations left it alone. -/
theorem txCommit_ending {w : World Row} (fresh : w.effects = []) {handle : TxHandle}
    (active : handle.status = .active) (driver : Nat → CommitResult) (rolledBack : Bool)
    {effects : List (Effect Row)} (only : OnlyWrites effects) :
    TxStore.effectOf (actionsOf (effects ++ (txCommit w handle driver rolledBack).1.effects)) =
      if (txCommit w handle driver rolledBack).2.2 = .ok then writtenBy effects else [] := by
  obtain ⟨commits, emits, -, acts, done⟩ := txCommitWithRetry_spec w driver handle.maxRetries
  by_cases committed : lastCommit driver handle.maxRetries = .ok
  · have ran : txCommitWithRetry w driver handle.maxRetries = (w.emit commits, true) :=
      Prod.ext emits (done.mpr committed)
    rw [committed] at acts
    simp only [txCommit, active, ran, fresh, ne_eq, not_true_eq_false, if_false, if_true,
      World.emit_effects, List.nil_append]
    exact effectOf_committed only acts
  · have ran : txCommitWithRetry w driver handle.maxRetries = (w.emit commits, false) :=
      Prod.ext emits (Bool.eq_false_iff.mpr fun ok => committed (done.mp ok))
    simp only [txCommit, active, ran, fresh, ne_eq, not_true_eq_false, if_false,
      World.emit_effects, List.nil_append, reduceCtorEq]
    apply effectOf_uncommitted only
    rw [actionsOf_append, acts]
    cases last : lastCommit driver handle.maxRetries with
    | ok => exact absurd last committed
    | retryable => cases rolledBack <;> simp [Effect.action, actionsOf]
    | failed undone => cases undone <;> cases rolledBack <;> simp [Effect.action, actionsOf]

theorem txRollback_ending {w : World Row} (fresh : w.effects = []) {handle : TxHandle}
    (active : handle.status = .active) (rolledBack : Bool) {effects : List (Effect Row)}
    (only : OnlyWrites effects) :
    TxStore.effectOf (actionsOf (effects ++ (txRollback w handle rolledBack).1.effects)) = [] := by
  apply effectOf_uncommitted only
  simp only [txRollback, active, ne_eq, not_true_eq_false, if_false, World.emit_effects, fresh,
    List.nil_append]
  cases rolledBack <;> simp [Effect.action, actionsOf]

def localUser : AuthUser := ⟨7, ['Y'], ['N'], 0, "LOCAL".toList⟩

/-- A wrong password, recorded without trouble. -/
def deniedAttempt : AuthOutcome Nat where
  lookup := .found localUser
  verified := false
  bound := false
  sessionRow := 0
  session := sampleInsert true 1
  snapshot := unaudited
  described := true
  sessionId := "S1".toList
  copied := true
  update := ⟨true, .executed [1] 1, fun _ => .ok, true, ⟨false, sampleInsert false 0⟩⟩

end OciWrapper.Core
