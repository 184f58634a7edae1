import OciWrapper.Concurrent.Runs
import OciWrapper.Execute.TransactionManager

namespace OciWrapper.Execute

open OciWrapper.Text OciWrapper.Store OciWrapper.Concurrent

variable {H Row : Type}

def txAbort (w : World Row) (handle : TxHandle) (rolledBack : Bool) :
    World Row × TxHandle × TxResult :=
  let w := if handle.status = .active then w.emit [.rollback rolledBack] else w
  ({ w with activeTx := none }, { handle with status := .aborted }, .ok)

/-- The idle time asks for an abort. -/
def TxHandle.TimedOut (handle : TxHandle) (idle : Int) : Prop :=
  handle.status = .active ∧ 0 < handle.timeoutSeconds ∧ handle.timeoutSeconds ≤ idle

instance (handle : TxHandle) (idle : Int) : Decidable (handle.TimedOut idle) :=
  inferInstanceAs (Decidable (_ ∧ _ ∧ _))

/-- `tx_check_timeout`; true is `TX_ERR_TIMEOUT`. -/
def txCheckTimeout (w : World Row) (handle : TxHandle) (idle : Int) (rolledBack : Bool) :
    World Row × TxHandle × Bool :=
  if handle.TimedOut idle then
    let (w, handle, _) := txAbort w handle rolledBack
    (w, { handle with status := .timedOut }, true)
  else (w, handle, false)

/-- `tx_handle_t` with the clock reading that the idle check takes. -/
structure ClockedHandle where
  handle : TxHandle
  lastActivityEpoch : Int

/-- One `oci_context_t` and the handles that point to it; `active_tx` is a pointer. -/
structure HandleContext (H Row : Type) where
  ini : IniConfig
  activeTx : Option H
  handles : H → ClockedHandle
  effects : List (Effect Row)

inductive TxCall (H : Type)
  | begin (h : H) (sessionId txName uuid : CString) (now : Int)
  | commit (h : H) (driver : Nat → CommitResult) (rolledBack : Bool)
  | rollback (h : H) (rolledBack : Bool)
  | abort (h : H) (rolledBack : Bool)
  | checkTimeout (h : H) (now : Int) (rolledBack : Bool)
  | touch (h : H) (now : Int)

def TxCall.target : TxCall H → H
  | .begin h _ _ _ _ | .commit h _ _ | .rollback h _ | .abort h _ | .checkTimeout h _ _
  | .touch h _ => h

namespace HandleContext

def start (ini : IniConfig) : HandleContext H Row := ⟨ini, none, fun _ => ⟨txInit, 0⟩, []⟩

def status (s : HandleContext H Row) (h : H) : TxStatus := (s.handles h).handle.status

/-- What an execute module sees of the context. -/
def world (s : HandleContext H Row) : World Row :=
  ⟨s.ini, s.activeTx.map fun h => (s.handles h).handle, false, s.effects⟩

variable [DecidableEq H]

/-- The handle and the driver calls of an operation, with the pointer it stores. -/
def store (s : HandleContext H Row) (h : H) (w : World Row) (handle : TxHandle)
    (activeTx : Option H) : HandleContext H Row :=
  { s with
    activeTx := activeTx
    handles := Function.update s.handles h { s.handles h with handle := handle }
    effects := w.effects }

def call (s : HandleContext H Row) : TxCall H → HandleContext H Row
  | .begin h sessionId txName uuid now =>
    match txBegin s.world (s.handles h).handle sessionId txName uuid with
    | (w, handle, .ok) =>
      let s := s.store h w handle (some h)
      { s with handles := Function.update s.handles h ⟨handle, now⟩ }
    | (_, _, .noActive) | (_, _, .alreadyActive) | (_, _, .ociFailure) => s
  | .commit h driver rolledBack =>
    match txCommit s.world (s.handles h).handle driver rolledBack with
    | (_, _, .noActive) => s
    | (w, handle, .ok) | (w, handle, .alreadyActive) | (w, handle, .ociFailure) =>
      s.store h w handle none
  | .rollback h rolledBack =>
    match txRollback s.world (s.handles h).handle rolledBack with
    | (_, _, .noActive) => s
    | (w, handle, .ok) | (w, handle, .alreadyActive) | (w, handle, .ociFailure) =>
      s.store h w handle none
  | .abort h rolledBack =>
    let (w, handle, _) := txAbort s.world (s.handles h).handle rolledBack
    s.store h w handle none
  | .checkTimeout h now rolledBack =>
    match txCheckTimeout s.world (s.handles h).handle (now - (s.handles h).lastActivityEpoch)
      rolledBack with
    | (_, _, false) => s
    | (w, handle, true) => s.store h w handle none
  | .touch h now =>
    if s.status h = .active then
      { s with handles := Function.update s.handles h ⟨(s.handles h).handle, now⟩ }
    else s

/-- The call gets past its guards. -/
def Acts (s : HandleContext H Row) : TxCall H → Prop
  | .begin h _ _ _ _ => s.status h ≠ .active
  | .commit h _ _ | .rollback h _ => s.status h = .active
  | .abort _ _ => True
  | .checkTimeout h now _ => (s.handles h).handle.TimedOut (now - (s.handles h).lastActivityEpoch)
  | .touch _ _ => False

/-- The commit that the driver makes for the handle succeeds. -/
def Commits (s : HandleContext H Row) (h : H) (driver : Nat → CommitResult) : Prop :=
  lastCommit driver (s.handles h).handle.maxRetries = .ok

instance (s : HandleContext H Row) (h : H) (driver : Nat → CommitResult) :
    Decidable (s.Commits h driver) := inferInstanceAs (Decidable (_ = _))

/-- The status that a call which acts leaves behind. -/
def outcome (s : HandleContext H Row) : TxCall H → TxStatus
  | .begin _ _ _ _ _ => .active
  | .commit h driver _ => if s.Commits h driver then .committed else .aborted
  | .rollback _ _ => .rolledBack
  | .abort _ _ => .aborted
  | .checkTimeout _ _ _ => .timedOut
  | .touch h _ => s.status h

/-- The pointer that a call which acts leaves behind. -/
def pointer : TxCall H → Option H
  | .begin h _ _ _ _ => some h
  | .commit _ _ _ | .rollback _ _ | .abort _ _ | .checkTimeout _ _ _ | .touch _ _ => none

theorem store_status (s : HandleContext H Row) (h : H) (w : World Row) (handle : TxHandle)
    (activeTx : Option H) :
    (s.store h w handle activeTx).status = Function.update s.status h handle.status := by
  funext k
  simp only [status, store, Function.update_apply]
  split <;> rfl

theorem call_acts {s : HandleContext H Row} {c : TxCall H} (acts : s.Acts c) :
    (s.call c).status = Function.update s.status c.target (s.outcome c) ∧
      (s.call c).activeTx = pointer c := by
  cases c with
  | begin h sessionId txName uuid now =>
    have idle : ¬ (s.handles h).handle.status = .active := acts
    simp only [call, txBegin, if_neg idle]
    refine ⟨?_, rfl⟩
    funext k
    simp only [status, store, Function.update_apply, TxCall.target, outcome]
    split <;> rfl
  | commit h driver rolledBack =>
    have active : (s.handles h).handle.status = .active := acts
    obtain ⟨effects, world, -, -, succeeds⟩ :=
      txCommitWithRetry_spec s.world driver (s.handles h).handle.maxRetries
    simp only [call, txCommit, active, ne_eq, not_true_eq_false, if_false]
    generalize txCommitWithRetry s.world driver (s.handles h).handle.maxRetries = made at *
    obtain ⟨w, done⟩ := made
    cases done with
    | true =>
      have committed : s.Commits h driver := succeeds.mp rfl
      refine ⟨?_, rfl⟩
      rw [store_status]
      simp [outcome, committed, TxCall.target]
    | false =>
      have failed : ¬ s.Commits h driver := fun committed => by
        simpa using succeeds.mpr committed
      refine ⟨?_, rfl⟩
      rw [store_status]
      simp [outcome, failed, TxCall.target]
  | rollback h rolledBack =>
    have active : (s.handles h).handle.status = .active := acts
    simp only [call, txRollback, active, ne_eq, not_true_eq_false, if_false]
    exact ⟨store_status _ _ _ _ _, rfl⟩
  | abort h rolledBack => exact ⟨store_status _ _ _ _ _, rfl⟩
  | checkTimeout h now rolledBack =>
    simp only [Acts] at acts
    simp only [call, txCheckTimeout, if_pos acts]
    exact ⟨store_status _ _ _ _ _, rfl⟩
  | touch h now => exact acts.elim

theorem call_idle {s : HandleContext H Row} {c : TxCall H} (idle : ¬ s.Acts c) :
    (s.call c).status = s.status ∧ (s.call c).activeTx = s.activeTx := by
  cases c with
  | begin h sessionId txName uuid now =>
    have active : (s.handles h).handle.status = .active := Classical.not_not.mp idle
    simp [call, txBegin, active]
  | commit h driver rolledBack =>
    have inactive : (s.handles h).handle.status ≠ .active := idle
    simp [call, txCommit, inactive]
  | rollback h rolledBack =>
    have inactive : (s.handles h).handle.status ≠ .active := idle
    simp [call, txRollback, inactive]
  | abort h rolledBack => exact (idle trivial).elim
  | checkTimeout h now rolledBack =>
    simp only [Acts] at idle
    simp only [call, txCheckTimeout, if_neg idle]
    trivial
  | touch h now =>
    simp only [call]
    split
    · refine ⟨?_, rfl⟩
      funext k
      simp only [status, Function.update_apply]
      split
      · rename_i same
        rw [same]
      · rfl
    · exact ⟨rfl, rfl⟩

/-- No call touches another handle. -/
theorem call_others (s : HandleContext H Row) (c : TxCall H) {k : H} (other : k ≠ c.target) :
    (s.call c).handles k = s.handles k := by
  have stored : ∀ w handle activeTx, (s.store c.target w handle activeTx).handles k = s.handles k :=
    fun w handle activeTx => Function.update_of_ne other _ _
  cases c with
  | begin h sessionId txName uuid now =>
    simp only [call]
    split
    · exact (Function.update_of_ne other _ _).trans (stored _ _ _)
    all_goals rfl
  | commit h driver rolledBack =>
    simp only [call]
    split
    · rfl
    all_goals exact stored _ _ _
  | rollback h rolledBack =>
    simp only [call]
    split
    · rfl
    all_goals exact stored _ _ _
  | abort h rolledBack => exact stored _ _ _
  | checkTimeout h now rolledBack =>
    simp only [call]
    split
    · rfl
    · exact stored _ _ _
  | touch h now =>
    simp only [call]
    split
    · exact Function.update_of_ne other _ _
    · rfl

/-- The same call on the context by value, as the execute modules see it. -/
def worldAfter (s : HandleContext H Row) : TxCall H → World Row
  | .begin h sessionId txName uuid _ =>
    (txBegin s.world (s.handles h).handle sessionId txName uuid).1
  | .commit h driver rolledBack => (txCommit s.world (s.handles h).handle driver rolledBack).1
  | .rollback h rolledBack => (txRollback s.world (s.handles h).handle rolledBack).1
  | .abort h rolledBack => (txAbort s.world (s.handles h).handle rolledBack).1
  | .checkTimeout h now rolledBack =>
    (txCheckTimeout s.world (s.handles h).handle (now - (s.handles h).lastActivityEpoch)
      rolledBack).1
  | .touch _ _ => s.world

/-- The pointer and the handle behind it agree with the handle that is passed on by value. -/
theorem call_world (s : HandleContext H Row) (c : TxCall H) : (s.call c).world = s.worldAfter c := by
  cases c with
  | begin h sessionId txName uuid now =>
    by_cases active : (s.handles h).handle.status = .active
    · simp [call, worldAfter, txBegin, active]
    · simp [call, worldAfter, txBegin, active, world, store]
  | commit h driver rolledBack =>
    by_cases active : (s.handles h).handle.status = .active
    · obtain ⟨effects, made, -⟩ :=
        txCommitWithRetry_spec s.world driver (s.handles h).handle.maxRetries
      simp only [call, worldAfter, txCommit, active, ne_eq, not_true_eq_false, if_false]
      generalize txCommitWithRetry s.world driver (s.handles h).handle.maxRetries = done at *
      obtain ⟨w, ok⟩ := done
      subst made
      cases ok <;> simp [world, store, World.emit]
    · simp [call, worldAfter, txCommit, active]
  | rollback h rolledBack =>
    by_cases active : (s.handles h).handle.status = .active
    · simp [call, worldAfter, txRollback, active, world, store, World.emit]
    · simp [call, worldAfter, txRollback, active]
  | abort h rolledBack =>
    by_cases active : (s.handles h).handle.status = .active
    · simp [call, worldAfter, txAbort, active, world, store, World.emit]
    · simp [call, worldAfter, txAbort, active, world, store]
  | checkTimeout h now rolledBack =>
    by_cases due : (s.handles h).handle.TimedOut (now - (s.handles h).lastActivityEpoch)
    · simp [call, worldAfter, txCheckTimeout, txAbort, due, due.1, world, store, World.emit]
    · simp [call, worldAfter, txCheckTimeout, due]
  | touch h now =>
    simp only [call, worldAfter]
    split
    · have same : ∀ k, (Function.update s.handles h ⟨(s.handles h).handle, now⟩ k).handle =
          (s.handles k).handle := by
        intro k
        by_cases other : k = h
        · rw [other, Function.update_self]
        · rw [Function.update_of_ne other]
      simp [world, same]
    · rfl

end HandleContext

end OciWrapper.Execute
