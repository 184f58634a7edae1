import OciWrapper.Concurrent.Runs
import OciWrapper.Mssql.Connection

namespace OciWrapper.Mssql

open OciWrapper.Concurrent

variable {W : Type}

structure Connection (W : Type) where
  autocommit : Bool
  uncommitted : List W
  deriving DecidableEq

/-- A connection as `mssql_open_connection` leaves it. -/
def Connection.opened : Connection W := ⟨true, []⟩

structure Slot (W : Type) where
  connection : Option (Connection W)
  inUse : Bool
  deriving DecidableEq

/-- The pool's slots and the one database behind their connections. -/
structure Pool (W : Type) where
  slots : List (Slot W)
  database : List W
  deriving DecidableEq

/-- The counter moves with every opening and closing of a slot. -/
def Pool.slotsOpen (pool : Pool W) : Nat := pool.slots.countP (·.connection.isSome)

def Pool.set (pool : Pool W) (idx : Nat) (slot : Slot W) : Pool W :=
  { pool with slots := pool.slots.set idx slot }

def openSlot (pool : Pool W) (idx : Nat) : Pool W := pool.set idx ⟨some .opened, false⟩

def closeSlot (pool : Pool W) (idx : Nat) : Pool W := pool.set idx ⟨none, false⟩

/-- Closing a slot and opening it again, `opens` telling whether one of the attempts succeeds. -/
def recycleSlot (pool : Pool W) (idx : Nat) (opens : Bool) : Pool W :=
  if opens then openSlot pool idx else closeSlot pool idx

structure BorrowCalls where
  opens : Bool
  alive : Bool
  reopens : Bool
  deriving DecidableEq

/-- The slot that a borrower gets: an idle one, or one that is opened for it. -/
def chooseSlot (settings : Settings) (pool : Pool W) (opens : Bool) : Pool W × Option Nat :=
  match pool.slots.findIdx? fun slot => slot.connection.isSome && !slot.inUse with
  | some idx => (pool, some idx)
  | none =>
    if pool.slotsOpen < settings.poolMaxSize && opens then
      match pool.slots.findIdx? fun slot => slot.connection.isNone with
      | some idx => (openSlot pool idx, some idx)
      | none => (pool, none)
    else (pool, none)

def validateSlot (settings : Settings) (pool : Pool W) (idx : Nat) (odbc : BorrowCalls) :
    Pool W × Bool :=
  if settings.connectionValidationOnBorrow && !odbc.alive then
    (recycleSlot pool idx odbc.reopens, odbc.reopens)
  else (pool, true)

def grantSlot (pool : Pool W) (idx : Nat) : Pool W × Option Nat :=
  match pool.slots[idx]? with
  | some slot => (pool.set idx { slot with inUse := true }, some idx)
  | none => (pool, none)

/-- The granted slot; none when the caller has to wait, or the slot could not be recovered. -/
def mssqlPoolGetSession (settings : Settings) (pool : Pool W) (odbc : BorrowCalls) :
    Pool W × Option Nat :=
  match chooseSlot settings pool odbc.opens with
  | (pool, none) => (pool, none)
  | (pool, some idx) =>
    match validateSlot settings pool idx odbc with
    | (pool, false) => (pool, none)
    | (pool, true) => grantSlot pool idx

/-- What a call makes of the connection in a slot. -/
def Pool.through (pool : Pool W) (idx : Nat) (use : Link W → Link W) : Pool W :=
  match pool.slots[idx]? with
  | some ⟨some connection, inUse⟩ =>
    let link := use ⟨connection.autocommit, connection.uncommitted, pool.database⟩
    ⟨pool.slots.set idx ⟨some ⟨link.autocommit, link.uncommitted⟩, inUse⟩, link.database⟩
  | _ => pool

def freeSlot (pool : Pool W) (idx : Nat) : Pool W :=
  match pool.slots[idx]? with
  | some slot => pool.set idx { slot with inUse := false }
  | none => pool

-- A failed rollback, or a failed switch back after it, does not keep the slot from being freed.
def mssqlPoolReleaseSession (settings : Settings) (pool : Pool W) (idx : Nat) (odbc : EndCalls) :
    Pool W :=
  if settings.rollbackOnReturnToPool then
    freeSlot (pool.through idx fun link => (mssqlRollback settings link odbc).2) idx
  else freeSlot pool idx

/-- The first half of `MSSQL_Pool_reconnect_session`, `same` telling whether the
    caller's handle is the slot's. The borrow that follows is a call of its own:
    other calls can come between. -/
def mssqlPoolReconnectSession (pool : Pool W) (idx : Nat) (same : Bool) : Pool W :=
  match pool.slots[idx]? with
  | some slot => if slot.connection.isSome && same then closeSlot pool idx else pool
  | none => pool

structure SlotCheck where
  expired : Bool
  alive : Bool
  reopens : Bool
  deriving DecidableEq

def checkSlot (slot : Slot W) (check : SlotCheck) : Slot W :=
  if slot.connection.isNone || slot.inUse then slot
  else if check.expired || !check.alive then
    if check.reopens then ⟨some .opened, false⟩ else ⟨none, false⟩
  else slot

def mssqlPoolHealthCheck (pool : Pool W) (check : Nat → SlotCheck) : Pool W :=
  { pool with slots := pool.slots.mapIdx fun idx slot => checkSlot slot (check idx) }

/-- A statement of the session that holds a slot. -/
inductive Statement (W : Type)
  | select
  | dmlExecute (odbc : StatementCalls W)
  | dmlExecuteReturningRowids (odbc : StatementCalls W)
  | lobWriteByRowid (empty keyed : Bool) (odbc : StatementCalls W)
  | dmlExecuteProcedure (activeTx : Bool) (odbc : ProcedureCalls W)

def Statement.perform (settings : Settings) (link : Link W) : Statement W → Ran W
  | .select => ⟨0, link, none⟩
  | .dmlExecute odbc => mssqlDmlExecute settings link odbc
  | .dmlExecuteReturningRowids odbc => mssqlDmlExecuteReturningRowids settings link odbc
  | .lobWriteByRowid empty keyed odbc => mssqlLobWriteByRowid settings link empty keyed odbc
  | .dmlExecuteProcedure activeTx odbc => mssqlDmlExecuteProcedure settings link activeTx odbc

inductive Call (W : Type)
  | getSession (odbc : BorrowCalls)
  | releaseSession (idx : Nat) (odbc : EndCalls)
  | reconnectSession (idx : Nat) (same : Bool)
  | healthCheck (check : Nat → SlotCheck)
  | commit (idx : Nat) (odbc : EndCalls)
  | rollback (idx : Nat) (odbc : EndCalls)
  | execute (idx : Nat) (statement : Statement W)

def step (settings : Settings) (pool : Pool W) : Call W → Pool W
  | .getSession odbc => (mssqlPoolGetSession settings pool odbc).1
  | .releaseSession idx odbc => mssqlPoolReleaseSession settings pool idx odbc
  | .reconnectSession idx same => mssqlPoolReconnectSession pool idx same
  | .healthCheck check => mssqlPoolHealthCheck pool check
  | .commit idx odbc => pool.through idx fun link => (mssqlCommit settings link odbc).2
  | .rollback idx odbc => pool.through idx fun link => (mssqlRollback settings link odbc).2
  | .execute idx statement => pool.through idx fun link => (statement.perform settings link).link

def Pool.Lent (pool : Pool W) (idx : Nat) : Prop := ∀ slot, pool.slots[idx]? = some slot → slot.inUse

/-- Sessions use the connection of a slot while it is lent to them. -/
def ByHolder (pool : Pool W) : Call W → Prop
  | .commit idx _ | .rollback idx _ | .execute idx _ => pool.Lent idx
  | _ => True

def remember (last : Nat → Option EndCalls) : Call W → Nat → Option EndCalls
  | .releaseSession idx odbc => Function.update last idx (some odbc)
  | _ => last

/-- How each slot was last released, if it was. -/
def lastRelease (calls : List (Call W)) : Nat → Option EndCalls :=
  calls.foldl remember fun _ => none

def RolledBack (settings : Settings) : Option EndCalls → Prop
  | none => True
  | some odbc => settings.rollbackOnReturnToPool = true ∧ odbc.ended = true

def SwitchedBack : Option EndCalls → Prop
  | none => True
  | some odbc => odbc.mode.settable = true

def Connection.link (connection : Connection W) (database : List W) : Link W :=
  ⟨connection.autocommit, connection.uncommitted, database⟩

/-- What an idle connection is like, by the last release of its slot. -/
def Connection.Rested (settings : Settings) (last : Option EndCalls)
    (connection : Connection W) : Prop :=
  RolledBack settings last →
    connection.uncommitted = [] ∧ (SwitchedBack last → connection.autocommit = true)

/-- What the invariant says of one slot. -/
def Slot.Fit (settings : Settings) (last : Option EndCalls) (slot : Slot W) : Prop :=
  ∀ connection, slot.connection = some connection →
    (connection.link []).Sound settings ∧
      (slot.inUse = false → connection.Rested settings last)

def Pool.Fit (settings : Settings) (last : Nat → Option EndCalls) (pool : Pool W) : Prop :=
  ∀ (idx : Nat) (slot : Slot W), pool.slots[idx]? = some slot → slot.Fit settings (last idx)

variable {settings : Settings} {last : Nat → Option EndCalls} {pool : Pool W} {idx : Nat}

theorem Link.Sound.of_connection {connection : Connection W}
    (sound : (connection.link []).Sound settings) (database : List W) :
    (connection.link database).Sound settings :=
  ⟨sound.settled, sound.configured⟩

theorem Connection.opened_sound : ((.opened : Connection W).link []).Sound settings :=
  ⟨fun _ => rfl, fun _ => rfl⟩

theorem Slot.Fit.opened (ending : Option EndCalls) (inUse : Bool) :
    (⟨some .opened, inUse⟩ : Slot W).Fit settings ending := by
  intro connection found
  cases found
  exact ⟨Connection.opened_sound, fun _ _ => ⟨rfl, fun _ => rfl⟩⟩

theorem Slot.Fit.closed (ending : Option EndCalls) (inUse : Bool) :
    (⟨none, inUse⟩ : Slot W).Fit settings ending := by
  intro connection found
  cases found

theorem Slot.Fit.granted {ending : Option EndCalls} {slot : Slot W}
    (fit : slot.Fit settings ending) : Slot.Fit settings ending { slot with inUse := true } := by
  intro connection found
  exact ⟨(fit connection found).1, fun idle => absurd idle (by simp)⟩

theorem Pool.Fit.set (fit : pool.Fit settings last) {slot : Slot W}
    (new : slot.Fit settings (last idx)) : (pool.set idx slot).Fit settings last := by
  intro other found at_other
  simp only [Pool.set, List.getElem?_set] at at_other
  split at at_other
  · next same =>
    split at at_other
    · cases at_other
      rw [← same]
      exact new
    · cases at_other
  · exact fit other found at_other

theorem Pool.Fit.recycle (fit : pool.Fit settings last) (opens : Bool) :
    (recycleSlot pool idx opens).Fit settings last := by
  unfold recycleSlot
  split
  · exact fit.set (Slot.Fit.opened _ _)
  · exact fit.set (Slot.Fit.closed _ _)

theorem Pool.Fit.validate (fit : pool.Fit settings last) (idx : Nat) (odbc : BorrowCalls) :
    (validateSlot settings pool idx odbc).1.Fit settings last := by
  unfold validateSlot
  split
  · exact fit.recycle _
  · exact fit

theorem Pool.Fit.grant (fit : pool.Fit settings last) :
    (grantSlot pool idx).1.Fit settings last := by
  unfold grantSlot
  split
  · next slot found => exact fit.set (fit idx slot found).granted
  · exact fit

theorem Pool.Fit.choose (fit : pool.Fit settings last) (opens : Bool) :
    (chooseSlot settings pool opens).1.Fit settings last := by
  unfold chooseSlot
  split
  · exact fit
  split
  · split
    · exact fit.set (Slot.Fit.opened _ _)
    · exact fit
  · exact fit

theorem Pool.Fit.getSession (fit : pool.Fit settings last) (odbc : BorrowCalls) :
    (mssqlPoolGetSession settings pool odbc).1.Fit settings last := by
  have chosen := fit.choose odbc.opens
  unfold mssqlPoolGetSession
  split
  · next lender none => rwa [none] at chosen
  · next lender idx some =>
    rw [some] at chosen
    have valid := chosen.validate idx odbc
    split
    · next refused => rwa [refused] at valid
    · next accepted =>
      rw [accepted] at valid
      exact valid.grant

theorem Pool.through_cases (pool : Pool W) (idx : Nat) (use : Link W → Link W) :
    pool.through idx use = pool ∧
        (∀ connection inUse, pool.slots[idx]? ≠ some ⟨some connection, inUse⟩) ∨
      ∃ connection inUse, pool.slots[idx]? = some ⟨some connection, inUse⟩ ∧
        pool.through idx use =
          ⟨pool.slots.set idx ⟨some ⟨(use (connection.link pool.database)).autocommit,
              (use (connection.link pool.database)).uncommitted⟩, inUse⟩,
            (use (connection.link pool.database)).database⟩ := by
  unfold through
  split
  · next connection inUse found => exact Or.inr ⟨connection, inUse, found, rfl⟩
  · next other => exact Or.inl ⟨rfl, other⟩

theorem Pool.Fit.through (fit : pool.Fit settings last) (lent : pool.Lent idx)
    {use : Link W → Link W} (keeps : ∀ link, link.Sound settings → (use link).Sound settings) :
    (pool.through idx use).Fit settings last := by
  obtain ⟨kept, -⟩ | ⟨connection, inUse, found, used⟩ := pool.through_cases idx use
  · rwa [kept]
  · rw [used]
    have sound := (fit idx _ found connection rfl).1.of_connection pool.database
    have fitting : Slot.Fit settings (last idx)
        ⟨some ⟨(use (connection.link pool.database)).autocommit,
          (use (connection.link pool.database)).uncommitted⟩, inUse⟩ := by
      intro after same
      cases same
      have lentOut : inUse = true := lent _ found
      refine ⟨⟨(keeps _ sound).settled, (keeps _ sound).configured⟩, fun idle => ?_⟩
      rw [lentOut] at idle
      contradiction
    exact Pool.Fit.set fit fitting

/-- A rollback leaves the connection at rest as far as its ODBC calls went through. -/
theorem rollback_rested {link : Link W} (sound : link.Sound settings) (odbc : EndCalls) :
    Connection.Rested settings (some odbc)
      ⟨(mssqlRollback settings link odbc).2.autocommit,
        (mssqlRollback settings link odbc).2.uncommitted⟩ := by
  rintro ⟨-, ended⟩
  obtain ⟨-, settled, switched⟩ := endTransaction_settles sound
    (endTransaction_returns settings link false ended)
  exact ⟨settled, switched⟩

/-- Only the slot at `idx` changes, and what it holds afterwards is known. -/
theorem Pool.Fit.replace (fit : pool.Fit settings last) {after : Pool W}
    {ending : Option EndCalls}
    (others : ∀ other, other ≠ idx → after.slots[other]? = pool.slots[other]?)
    (new : ∀ slot, after.slots[idx]? = some slot → slot.Fit settings ending) :
    after.Fit settings (Function.update last idx ending) := by
  intro other slot found
  by_cases same : other = idx
  · subst same
    rw [Function.update_self]
    exact new slot found
  · rw [Function.update_of_ne same]
    rw [others other same] at found
    exact fit other slot found

theorem freeSlot_others (pool : Pool W) (idx : Nat) {other : Nat} (different : other ≠ idx) :
    (freeSlot pool idx).slots[other]? = pool.slots[other]? := by
  unfold freeSlot
  split
  · simp [Pool.set, List.getElem?_set_ne (Ne.symm different)]
  · rfl

theorem freeSlot_at (pool : Pool W) (idx : Nat) :
    (freeSlot pool idx).slots[idx]? =
      pool.slots[idx]?.map fun slot => { slot with inUse := false } := by
  unfold freeSlot
  split
  · next slot found =>
    obtain ⟨bound, rfl⟩ := List.getElem?_eq_some_iff.mp found
    simp [Pool.set, bound]
  · next missing => simp [missing]

theorem Pool.through_others (pool : Pool W) {other : Nat} (use : Link W → Link W)
    (different : other ≠ idx) : (pool.through idx use).slots[other]? = pool.slots[other]? := by
  obtain ⟨kept, -⟩ | ⟨connection, inUse, -, used⟩ := pool.through_cases idx use
  · rw [kept]
  · rw [used]
    exact List.getElem?_set_ne (Ne.symm different)

theorem Pool.through_at {use : Link W → Link W} {slot : Slot W} {connection : Connection W}
    (found : (pool.through idx use).slots[idx]? = some slot)
    (holds : slot.connection = some connection) :
    ∃ earlier inUse, pool.slots[idx]? = some ⟨some earlier, inUse⟩ ∧
      connection = ⟨(use (earlier.link pool.database)).autocommit,
        (use (earlier.link pool.database)).uncommitted⟩ := by
  obtain ⟨kept, empty⟩ | ⟨earlier, inUse, before, used⟩ := pool.through_cases idx use
  · rw [kept] at found
    obtain ⟨held, inUse⟩ := slot
    cases holds
    exact absurd found (empty connection inUse)
  · obtain ⟨bound, -⟩ := List.getElem?_eq_some_iff.mp before
    rw [used] at found
    simp only [List.getElem?_set_self bound, Option.some.injEq] at found
    subst found
    cases holds
    exact ⟨earlier, inUse, before, rfl⟩

theorem Pool.Fit.release (fit : pool.Fit settings last) (odbc : EndCalls) :
    (mssqlPoolReleaseSession settings pool idx odbc).Fit settings
      (Function.update last idx (some odbc)) := by
  unfold mssqlPoolReleaseSession
  split
  · next rolls =>
    apply fit.replace
    · intro other different
      rw [freeSlot_others _ _ different, pool.through_others _ different]
    · intro slot found connection holds
      rw [freeSlot_at, Option.map_eq_some_iff] at found
      obtain ⟨ended, at_idx, rfl⟩ := found
      obtain ⟨earlier, inUse, before, rfl⟩ := Pool.through_at at_idx holds
      have sound := (fit idx _ before earlier rfl).1.of_connection pool.database
      have after := endTransaction_sound sound false odbc
      exact ⟨⟨after.settled, after.configured⟩, fun _ => rollback_rested sound odbc⟩
  · next keeps =>
    apply fit.replace
    · exact fun other different => freeSlot_others _ _ different
    · intro slot found connection holds
      rw [freeSlot_at, Option.map_eq_some_iff] at found
      obtain ⟨before, at_idx, rfl⟩ := found
      exact ⟨(fit idx before at_idx connection holds).1, fun _ rolled => absurd rolled.1 keeps⟩

theorem Pool.Fit.reconnect (fit : pool.Fit settings last) (same : Bool) :
    (mssqlPoolReconnectSession pool idx same).Fit settings last := by
  unfold mssqlPoolReconnectSession
  split
  · split
    · exact fit.set (Slot.Fit.closed _ _)
    · exact fit
  · exact fit

theorem Slot.Fit.check {ending : Option EndCalls} {slot : Slot W}
    (fit : slot.Fit settings ending) (check : SlotCheck) :
    (checkSlot slot check).Fit settings ending := by
  unfold checkSlot
  split
  · exact fit
  split
  · split
    · exact Slot.Fit.opened _ _
    · exact Slot.Fit.closed _ _
  · exact fit

theorem Pool.Fit.healthCheck (fit : pool.Fit settings last) (check : Nat → SlotCheck) :
    (mssqlPoolHealthCheck pool check).Fit settings last := by
  intro idx slot found
  simp only [mssqlPoolHealthCheck, List.getElem?_mapIdx, Option.map_eq_some_iff] at found
  obtain ⟨before, at_idx, rfl⟩ := found
  exact (fit idx before at_idx).check _

theorem Statement.perform_sound {link : Link W} (sound : link.Sound settings)
    (statement : Statement W) : (statement.perform settings link).link.Sound settings := by
  cases statement with
  | select => exact sound
  | dmlExecute odbc => exact write_sound sound odbc
  | dmlExecuteReturningRowids odbc => exact write_sound sound odbc
  | lobWriteByRowid empty keyed odbc => exact mssqlLobWriteByRowid_sound sound empty keyed odbc
  | dmlExecuteProcedure activeTx odbc => exact mssqlDmlExecuteProcedure_sound sound activeTx odbc

theorem Statement.perform_database (statement : Statement W) (link : Link W) :
    link.database <+: (statement.perform settings link).link.database := by
  cases statement with
  | select => exact List.prefix_rfl
  | dmlExecute odbc => exact write_database link odbc
  | dmlExecuteReturningRowids odbc => exact write_database link odbc
  | lobWriteByRowid empty keyed odbc => exact mssqlLobWriteByRowid_database link empty keyed odbc
  | dmlExecuteProcedure activeTx odbc => exact mssqlDmlExecuteProcedure_database link activeTx odbc

theorem Pool.Fit.step (fit : pool.Fit settings last) (call : Call W)
    (held : ByHolder pool call) : (step settings pool call).Fit settings (remember last call) := by
  cases call with
  | getSession odbc => exact fit.getSession odbc
  | releaseSession idx odbc => exact fit.release odbc
  | reconnectSession idx same => exact fit.reconnect same
  | healthCheck check => exact fit.healthCheck check
  | commit idx odbc =>
    exact fit.through held fun _ sound => endTransaction_sound sound true odbc
  | rollback idx odbc =>
    exact fit.through held fun _ sound => endTransaction_sound sound false odbc
  | execute idx statement =>
    exact fit.through held fun _ sound => statement.perform_sound sound

theorem lastRelease_append (calls : List (Call W)) (call : Call W) :
    lastRelease (calls ++ [call]) = remember (lastRelease calls) call := by
  simp [lastRelease]

def run (settings : Settings) (pool : Pool W) (calls : List (Call W)) : Pool W :=
  calls.foldl (step settings) pool

theorem Pool.Fit.run (fit : pool.Fit settings fun _ => none) {calls : List (Call W)}
    (held : Meets (Mssql.step settings) ByHolder pool calls) :
    (Mssql.run settings pool calls).Fit settings (lastRelease calls) := by
  induction calls using List.reverseRecOn with
  | nil => exact fit
  | append_singleton calls call ih =>
    obtain ⟨earlier, last⟩ := Meets.append_iff.mp held
    simp only [Mssql.run, List.foldl_append, List.foldl_cons, List.foldl_nil, lastRelease_append]
    exact (ih earlier).step call last.1

/-- A pool after `MSSQL_Connect_pool`. -/
def Pool.Connected (pool : Pool W) : Prop :=
  ∀ slot ∈ pool.slots, slot = ⟨some .opened, false⟩ ∨ slot = ⟨none, false⟩

theorem Pool.Connected.fit (connected : pool.Connected) (last : Nat → Option EndCalls) :
    pool.Fit settings last := by
  intro idx slot found
  rcases connected slot (List.mem_of_getElem? found) with rfl | rfl
  · exact Slot.Fit.opened _ _
  · exact Slot.Fit.closed _ _

/-- A statement runs in manual-commit unless `autocommit_mode = 1` or it is a
    procedure outside a managed transaction, which runs in autocommit. -/
def Statement.RunsIn (settings : Settings) (manual : Bool) : Statement W → Prop
  | .dmlExecuteProcedure activeTx _ => settings.autocommitMode = true ∨ manual = activeTx
  | _ => settings.autocommitMode = true ∨ manual = true

theorem Statement.runsIn {link : Link W} (sound : link.Sound settings) {statement : Statement W}
    {manual : Bool} (ran : (statement.perform settings link).manual = some manual) :
    statement.RunsIn settings manual := by
  cases statement with
  | select => cases ran
  | dmlExecute odbc => exact write_manual ran
  | dmlExecuteReturningRowids odbc => exact write_manual ran
  | lobWriteByRowid empty keyed odbc => exact mssqlLobWriteByRowid_manual ran
  | dmlExecuteProcedure activeTx odbc => exact mssqlDmlExecuteProcedure_manual sound ran

/-- A connection that is idle after its last release rolled it back holds no
    uncommitted write, and is in autocommit if that release could switch it back;
    every statement that changes data runs in the mode of its kind; a commit or
    rollback that succeeds leaves nothing uncommitted, and autocommit if the
    switch back succeeds. -/
theorem connections_keep_mode (settings : Settings) (pool : Pool W) (connected : pool.Connected)
    (calls : List (Call W)) (held : Meets (step settings) ByHolder pool calls) (idx : Nat)
    (connection : Connection W) (inUse : Bool)
    (found : (run settings pool calls).slots[idx]? = some ⟨some connection, inUse⟩) :
    (inUse = false → connection.Rested settings (lastRelease calls idx)) ∧
      (∀ database statement manual,
        (Statement.perform settings (connection.link database) statement).manual = some manual →
          statement.RunsIn settings manual) ∧
      ∀ database commit odbc,
        (endTransaction commit settings (connection.link database) odbc).1 = 0 →
          (endTransaction commit settings (connection.link database) odbc).2.uncommitted = [] ∧
            (odbc.mode.settable = true →
              (endTransaction commit settings
                (connection.link database) odbc).2.autocommit = true) := by
  obtain ⟨sound, rested⟩ := Pool.Fit.run (connected.fit _) held idx _ found connection rfl
  refine ⟨rested, fun database statement manual ran => ?_, fun database commit odbc returned => ?_⟩
  · exact Statement.runsIn (sound.of_connection database) ran
  · exact (endTransaction_settles (sound.of_connection database) returned).2

theorem connections_keep_mode_borrowed :
    Connection.Rested ⟨false, true, true, 4⟩ (some ⟨true, ⟨true, true⟩⟩)
      (⟨true, []⟩ : Connection Nat) :=
  (connections_keep_mode ⟨false, true, true, 4⟩ ⟨[⟨some .opened, false⟩], []⟩
    (fun _ member => Or.inl (List.mem_singleton.mp member))
    [.getSession ⟨true, true, true⟩,
      .execute 0 (.dmlExecute ⟨⟨true, true⟩, true, [.applied [7]], true⟩),
      .releaseSession 0 ⟨true, ⟨true, true⟩⟩]
    ⟨trivial, by intro slot found; cases found; rfl, trivial, trivial⟩
    0 ⟨true, []⟩ false rfl).1 rfl

/-- A procedure outside a managed transaction changes data in autocommit, a
    commit whose switch back fails leaves manual-commit on, and a release without
    a rollback puts an uncommitted write into the idle pool. -/
theorem mode_varies :
    (Statement.perform ⟨false, true, true, 4⟩ (⟨true, [], []⟩ : Link Nat)
        (.dmlExecuteProcedure false
          ⟨⟨⟨true, true⟩, true, [.applied [7]], true⟩, true, true, ⟨true, ⟨true, true⟩⟩⟩)) =
        ⟨0, ⟨true, [], [7]⟩, some false⟩ ∧
      mssqlCommit ⟨false, true, true, 4⟩ (⟨false, [7], []⟩ : Link Nat) ⟨true, ⟨true, false⟩⟩ =
        (0, ⟨false, [], [7]⟩) ∧
      run ⟨false, false, true, 4⟩ (⟨[⟨some .opened, false⟩], []⟩ : Pool Nat)
        [.getSession ⟨true, true, true⟩,
          .execute 0 (.dmlExecute ⟨⟨true, true⟩, true, [.applied [7]], true⟩),
          .releaseSession 0 ⟨true, ⟨true, true⟩⟩] =
        ⟨[⟨some ⟨false, [7]⟩, false⟩], []⟩ := by
  decide

end OciWrapper.Mssql
