import OciWrapper.Store.TxStore
import OciWrapper.Text.Chars

namespace OciWrapper.Execute

open OciWrapper.Text OciWrapper.Store

inductive TxStatus
  | none | active | committed | rolledBack | aborted | timedOut
  deriving DecidableEq

/-- `tx_handle_t` without its clock readings. -/
structure TxHandle where
  transactionId : CString
  sessionId : CString
  txName : CString
  status : TxStatus
  timeoutSeconds : Int
  maxRetries : Int
  deriving DecidableEq

inductive TxResult
  | ok | noActive | alreadyActive | ociFailure
  deriving DecidableEq

/-- A driver commit; one that fails may have undone the transaction. -/
inductive CommitResult
  | ok
  | retryable
  | failed (undone : Bool)
  deriving DecidableEq

structure IniConfig where
  username : CString
  txTimeoutSeconds : Int
  txMaxRetries : Int
  maxBulkInserts : Int
  authMaxFailedAttempts : Int

/-- One row of `AUDIT_TRAIL`; a snapshot row has no `OLD_VALUE` field. -/
structure AuditRow where
  tableName : CString
  recordId : CString
  fieldName : CString
  actionType : CString
  oldValue : Option CString
  newValue : CString
  dataType : CString
  changedBy : CString
  changeReason : CString
  transactionId : CString
  sessionId : CString
  clientIp : CString
  applicationName : CString
  moduleName : CString
  rowHash : CString
  deriving DecidableEq

/-- What a request writes: rows of its own table, the LOB columns of those rows,
    rows of the audit trail. -/
inductive Write (Row : Type)
  | row (table : CString) (row : Row)
  | lob (table : CString) (index : Nat)
  | audit (row : AuditRow)
  deriving DecidableEq

/-- What the modules ask of the driver and of the result-set cache. -/
inductive Effect (Row : Type)
  | write (w : Write Row)
  | commit (result : CommitResult)
  | rollback (done : Bool)
  | ddl (commits : Bool)
  | invalidate (table : CString)
  deriving DecidableEq

variable {Row : Type}

def Effect.action : Effect Row → Option (TxAction (Write Row))
  | .write w => some (.write w)
  | .commit .ok | .ddl true => some .commit
  | .commit (.failed true) => some .rollback
  | .rollback true => some .rollback
  | .commit .retryable | .commit (.failed false) | .rollback false | .ddl false | .invalidate _ =>
    none

/-- The database work among the effects. -/
def actionsOf (effects : List (Effect Row)) : List (TxAction (Write Row)) :=
  effects.filterMap Effect.action

@[simp] theorem actionsOf_nil : actionsOf ([] : List (Effect Row)) = [] := rfl

@[simp] theorem actionsOf_append (first later : List (Effect Row)) :
    actionsOf (first ++ later) = actionsOf first ++ actionsOf later := List.filterMap_append

def writes (ws : List (Write Row)) : List (Effect Row) := ws.map .write

@[simp] theorem actionsOf_writes (ws : List (Write Row)) :
    actionsOf (writes ws) = ws.map TxAction.write := by
  induction ws with
  | nil => rfl
  | cons w ws ih => simpa [actionsOf, writes, Effect.action] using ih

def Effect.written : Effect Row → Option (Write Row)
  | .write w => some w
  | .commit _ | .rollback _ | .ddl _ | .invalidate _ => none

/-- Everything that is written, in order. -/
def writtenBy (effects : List (Effect Row)) : List (Write Row) := effects.filterMap Effect.written

@[simp] theorem writtenBy_nil : writtenBy ([] : List (Effect Row)) = [] := rfl

@[simp] theorem writtenBy_append (first later : List (Effect Row)) :
    writtenBy (first ++ later) = writtenBy first ++ writtenBy later := List.filterMap_append

@[simp] theorem writtenBy_writes (ws : List (Write Row)) : writtenBy (writes ws) = ws := by
  induction ws with
  | nil => rfl
  | cons w ws ih => simpa [writtenBy, writes, Effect.written] using ih

/-- Only data is changed: no commit, no rollback, no DDL, which may commit by itself. -/
def OnlyWrites (effects : List (Effect Row)) : Prop :=
  (∀ result, .commit result ∉ effects) ∧ (∀ done, .rollback done ∉ effects) ∧
    ∀ commits, .ddl commits ∉ effects

theorem OnlyWrites.actions {effects : List (Effect Row)} (only : OnlyWrites effects) :
    actionsOf effects = (writtenBy effects).map .write := by
  induction effects with
  | nil => rfl
  | cons effect effects ih =>
    obtain ⟨commits, rollbacks, ddls⟩ := only
    simp only [List.mem_cons, not_or] at commits rollbacks ddls
    have rest := ih ⟨fun result => (commits result).2, fun done => (rollbacks done).2,
      fun implicit => (ddls implicit).2⟩
    cases effect with
    | write w => simpa [actionsOf, writtenBy, Effect.action, Effect.written] using rest
    | invalidate table => exact rest
    | commit result => exact absurd rfl (commits result).1
    | rollback done => exact absurd rfl (rollbacks done).1
    | ddl implicit => exact absurd rfl (ddls implicit).1

theorem OnlyWrites.nil : OnlyWrites ([] : List (Effect Row)) := by
  simp [OnlyWrites]

theorem OnlyWrites.writes (ws : List (Write Row)) : OnlyWrites (writes ws) := by
  simp [OnlyWrites, Execute.writes]

theorem OnlyWrites.invalidate (table : CString) :
    OnlyWrites [(.invalidate table : Effect Row)] := by
  simp [OnlyWrites]

theorem OnlyWrites.append_iff {first later : List (Effect Row)} :
    OnlyWrites (first ++ later) ↔ OnlyWrites first ∧ OnlyWrites later := by
  simp only [OnlyWrites, List.mem_append, not_or, forall_and]
  tauto

theorem OnlyWrites.append {first later : List (Effect Row)} (left : OnlyWrites first)
    (right : OnlyWrites later) : OnlyWrites (first ++ later) :=
  append_iff.mpr ⟨left, right⟩

/-- `oci_context_t` and the process-wide flag of the audit module, with what
    was asked of driver and cache so far. -/
structure World (Row : Type) where
  ini : IniConfig
  activeTx : Option TxHandle
  auditTrailInProgress : Bool
  effects : List (Effect Row)

namespace World

def emit (w : World Row) (effects : List (Effect Row)) : World Row :=
  { w with effects := w.effects ++ effects }

@[simp] theorem emit_ini (w : World Row) (es : List (Effect Row)) : (w.emit es).ini = w.ini := rfl

@[simp] theorem emit_activeTx (w : World Row) (es : List (Effect Row)) :
    (w.emit es).activeTx = w.activeTx := rfl

@[simp] theorem emit_auditTrailInProgress (w : World Row) (es : List (Effect Row)) :
    (w.emit es).auditTrailInProgress = w.auditTrailInProgress := rfl

@[simp] theorem emit_effects (w : World Row) (es : List (Effect Row)) :
    (w.emit es).effects = w.effects ++ es := rfl

@[simp] theorem emit_emit (w : World Row) (first later : List (Effect Row)) :
    (w.emit first).emit later = w.emit (first ++ later) := by
  simp [emit, List.append_assoc]

@[simp] theorem emit_nil (w : World Row) : w.emit [] = w := by
  simp [emit]

end World

def dash : CString := ['-']

def txInit : TxHandle where
  transactionId := dash
  sessionId := dash
  txName := dash
  status := .none
  timeoutSeconds := 0
  maxRetries := 0

def txGetId (handle : TxHandle) : CString :=
  if handle.status = .none then dash else handle.transactionId

/-- Sets up a local identity when no transaction is active; true if it did. -/
def beginStandaloneTxIfNeeded (w : World Row) (uuid : CString) : World Row × Bool :=
  match w.activeTx with
  | some _ => (w, false)
  | none => ({ w with activeTx := some { txInit with transactionId := uuid, status := .active } }, true)

def endStandaloneTxIfOwned (w : World Row) (owned : Bool) : World Row :=
  if owned then { w with activeTx := none } else w

/-- `TX_UUID_LEN - 1` and the width of `tx_name`, less its terminator. -/
def txUuidMax : Nat := 36
def txNameMax : Nat := 127

def txBegin (w : World Row) (handle : TxHandle) (sessionId txName uuid : CString) :
    World Row × TxHandle × TxResult :=
  if handle.status = .active then (w, handle, .alreadyActive)
  else
    let handle := { handle with
      transactionId := uuid
      sessionId := if sessionId = [] then dash else sessionId.take txUuidMax
      txName := if txName = [] then dash else txName.take txNameMax
      timeoutSeconds := w.ini.txTimeoutSeconds
      maxRetries := w.ini.txMaxRetries
      status := .active }
    ({ w with activeTx := some handle }, handle, .ok)

/-- The results of the attempts that the loop of `tx_commit_with_retry` makes. -/
def commitAttempts (driver : Nat → CommitResult) : (left attempt : Nat) → List CommitResult
  | 0, attempt => [driver attempt]
  | left + 1, attempt =>
    match driver attempt with
    | .retryable => .retryable :: commitAttempts driver left (attempt + 1)
    | result => [result]

def txCommitWithRetry (w : World Row) (driver : Nat → CommitResult) (maxRetries : Int) :
    World Row × Bool :=
  let results := commitAttempts driver maxRetries.toNat 0
  (w.emit (results.map .commit), results.getLast? = some .ok)

def txCommit (w : World Row) (handle : TxHandle) (driver : Nat → CommitResult)
    (rolledBack : Bool) : World Row × TxHandle × TxResult :=
  if handle.status ≠ .active then (w, handle, .noActive)
  else
    match txCommitWithRetry w driver handle.maxRetries with
    | (w, true) => ({ w with activeTx := none }, { handle with status := .committed }, .ok)
    | (w, false) =>
      ({ w with activeTx := none }.emit [.rollback rolledBack],
        { handle with status := .aborted }, .ociFailure)

def txRollback (w : World Row) (handle : TxHandle) (rolledBack : Bool) :
    World Row × TxHandle × TxResult :=
  if handle.status ≠ .active then (w, handle, .noActive)
  else
    ({ w with activeTx := none }.emit [.rollback rolledBack],
      { handle with status := .rolledBack }, .ok)

@[simp] theorem beginStandaloneTxIfNeeded_effects (w : World Row) (uuid : CString) :
    (beginStandaloneTxIfNeeded w uuid).1.effects = w.effects := by
  unfold beginStandaloneTxIfNeeded
  split <;> rfl

@[simp] theorem beginStandaloneTxIfNeeded_ini (w : World Row) (uuid : CString) :
    (beginStandaloneTxIfNeeded w uuid).1.ini = w.ini := by
  unfold beginStandaloneTxIfNeeded
  split <;> rfl

@[simp] theorem beginStandaloneTxIfNeeded_flag (w : World Row) (uuid : CString) :
    (beginStandaloneTxIfNeeded w uuid).1.auditTrailInProgress = w.auditTrailInProgress := by
  unfold beginStandaloneTxIfNeeded
  split <;> rfl

/-- The identity is owned exactly if no transaction was active. -/
theorem beginStandaloneTxIfNeeded_owns (w : World Row) (uuid : CString) :
    (beginStandaloneTxIfNeeded w uuid).2 = w.activeTx.isNone := by
  unfold beginStandaloneTxIfNeeded
  cases w.activeTx <;> rfl

theorem begin_managed {w : World Row} (active : w.activeTx.isSome = true) (uuid : CString) :
    beginStandaloneTxIfNeeded w uuid = (w, false) := by
  obtain ⟨handle, is⟩ := Option.isSome_iff_exists.mp active
  rw [beginStandaloneTxIfNeeded, is]

theorem beginStandaloneTxIfNeeded_active (w : World Row) (uuid : CString) :
    (beginStandaloneTxIfNeeded w uuid).1.activeTx.isSome = true := by
  unfold beginStandaloneTxIfNeeded
  cases active : w.activeTx
  · rfl
  · simp [active]

/-- Closing an identity right after opening it gives back the transaction of before. -/
theorem endStandaloneTx_begin (w : World Row) (uuid : CString) :
    (endStandaloneTxIfOwned (beginStandaloneTxIfNeeded w uuid).1
      (beginStandaloneTxIfNeeded w uuid).2).activeTx = w.activeTx := by
  unfold beginStandaloneTxIfNeeded endStandaloneTxIfOwned
  cases active : w.activeTx
  · rfl
  · simp [active]

theorem commitAttempts_ne_nil (driver : Nat → CommitResult) (left attempt : Nat) :
    commitAttempts driver left attempt ≠ [] := by
  cases left with
  | zero => simp [commitAttempts]
  | succ left =>
    unfold commitAttempts
    split <;> simp

/-- Only the last attempt is not retryable, unless the retries ran out. -/
theorem commitAttempts_spec (driver : Nat → CommitResult) (left attempt : Nat) :
    ∃ n last, commitAttempts driver left attempt = List.replicate n .retryable ++ [last] := by
  induction left generalizing attempt with
  | zero => exact ⟨0, driver attempt, rfl⟩
  | succ left ih =>
    unfold commitAttempts
    split
    · obtain ⟨n, last, rest⟩ := ih (attempt + 1)
      exact ⟨n + 1, last, by rw [rest]; rfl⟩
    · rename_i result _
      exact ⟨0, _, rfl⟩

theorem actionsOf_retries (n : Nat) :
    actionsOf ((List.replicate n CommitResult.retryable).map (Effect.commit : _ → Effect Row)) =
      [] := by
  induction n with
  | zero => rfl
  | succ n ih => simp [List.replicate_succ, actionsOf, Effect.action]

/-- The result the retry loop ends with. -/
def lastCommit (driver : Nat → CommitResult) (maxRetries : Int) : CommitResult :=
  (commitAttempts driver maxRetries.toNat 0).getLast (commitAttempts_ne_nil _ _ _)

theorem writtenBy_commits (results : List CommitResult) :
    writtenBy (results.map (Effect.commit : _ → Effect Row)) = [] := by
  induction results with
  | nil => rfl
  | cons result results ih => simp [writtenBy, Effect.written]

/-- The database sees the last attempt alone. -/
theorem txCommitWithRetry_spec (w : World Row) (driver : Nat → CommitResult) (maxRetries : Int) :
    ∃ effects, (txCommitWithRetry w driver maxRetries).1 = w.emit effects ∧
      writtenBy effects = [] ∧
      actionsOf effects = (Effect.action (.commit (lastCommit driver maxRetries) : Effect Row)).toList ∧
      (txCommitWithRetry w driver maxRetries).2 = (lastCommit driver maxRetries = .ok) := by
  obtain ⟨n, last, made⟩ := commitAttempts_spec driver maxRetries.toNat 0
  have ends : lastCommit driver maxRetries = last := by
    simp only [lastCommit, made, List.getLast_concat]
  refine ⟨_, rfl, writtenBy_commits _, ?_, ?_⟩
  · rw [made, List.map_append, actionsOf_append, actionsOf_retries, ends]
    cases action : (Effect.commit last : Effect Row).action <;> simp [actionsOf, action]
  · simp [txCommitWithRetry, made, ends]

end OciWrapper.Execute
