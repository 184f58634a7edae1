import OciWrapper.Concurrent.Runs
import Mathlib.Data.List.Basic
import Mathlib.Logic.Function.Basic

namespace OciWrapper.Worker

open OciWrapper.Concurrent

inductive Driver
  | oracle
  | mssql
  deriving DecidableEq

structure Settings where
  driver : Driver
  rollbackOnReturnToPool : Bool
  validationOnBorrow : Bool
  poolMaxSize : Nat

/-- A pool slot: its connection handle, none while it is closed, and its state. -/
structure Slot where
  handle : Option Nat
  inUse : Bool
  deriving DecidableEq

/-- The two fields of `oci_context_t` that tie a worker to a slot. -/
structure Context where
  poolSlotIndex : Nat
  svchp : Option Nat
  deriving DecidableEq

/-- The context after `memset(ctx, 0, sizeof(*ctx))`. -/
def Context.zeroed : Context := ⟨0, none⟩

/-- Where a worker stands in `worker_thread_main`. A release is `releasing` between
    its rollback, made without the lock, and the freeing of its slot. -/
inductive Phase
  | starting
  | serving
  | releasing (shutdown : Bool)
  | borrowing
  | stopped
  deriving DecidableEq

/-- The pool and its workers; `nextHandle` numbers the connections. -/
structure State (T : Type) where
  slots : List Slot
  nextHandle : Nat
  phase : T → Phase
  ctx : T → Context

/-- What a borrow meets: whether opening a slot, validating it and opening it
    again succeed, and whether the wait for a slot times out. -/
structure Borrow where
  opens : Bool
  alive : Bool
  reopens : Bool
  timedOut : Bool
  deriving DecidableEq

structure SlotCheck where
  expired : Bool
  alive : Bool
  reopens : Bool
  deriving DecidableEq

/-- The steps of the workers, each atomic under the pool's lock or a rollback without it. -/
inductive Event (T : Type)
  | getSession (worker : T) (borrow : Borrow)
  | reconnect (worker : T)
  | shutdown (worker : T)
  | freeSlot (worker : T)
  | healthCheck (check : Nat → SlotCheck)

variable {T : Type}

namespace State

def start (slots : Nat) : State T :=
  ⟨List.replicate slots ⟨none, false⟩, 0, fun _ => .starting, fun _ => .zeroed⟩

def set (s : State T) (idx : Nat) (slot : Slot) : State T := { s with slots := s.slots.set idx slot }

def openSlot (s : State T) (idx : Nat) : State T :=
  { s.set idx ⟨some s.nextHandle, false⟩ with nextHandle := s.nextHandle + 1 }

def closeSlot (s : State T) (idx : Nat) : State T := s.set idx ⟨none, false⟩

def recycleSlot (s : State T) (idx : Nat) (opens : Bool) : State T :=
  if opens then s.openSlot idx else s.closeSlot idx

def slotsOpen (s : State T) : Nat := s.slots.countP (·.handle.isSome)

/-- The slot that a borrower gets: an idle one, or one that is opened for it. -/
def chooseSlot (settings : Settings) (s : State T) (opens : Bool) : State T × Option Nat :=
  match s.slots.findIdx? fun slot => slot.handle.isSome && !slot.inUse with
  | some idx => (s, some idx)
  | none =>
    if s.slotsOpen < settings.poolMaxSize && opens then
      match s.slots.findIdx? fun slot => slot.handle.isNone with
      | some idx => (s.openSlot idx, some idx)
      | none => (s, none)
    else (s, none)

def validateSlot (settings : Settings) (s : State T) (idx : Nat) (borrow : Borrow) :
    State T × Bool :=
  if settings.validationOnBorrow && !borrow.alive then
    (s.recycleSlot idx borrow.reopens, borrow.reopens)
  else (s, true)

/-- What becomes of a borrow: a slot is granted, the pool gives up, or the caller waits on. -/
inductive Grant
  | granted (idx : Nat)
  | failed
  | waiting
  deriving DecidableEq

def poolGetSession (settings : Settings) (s : State T) (borrow : Borrow) : State T × Grant :=
  match s.chooseSlot settings borrow.opens with
  | (s, none) => (s, if borrow.timedOut then .failed else .waiting)
  | (s, some idx) =>
    match s.validateSlot settings idx borrow with
    | (s, false) => (s, .failed)
    | (s, true) => (s, .granted idx)

/-- A slot that is open and not lent is recycled when it is too old or does not answer. -/
def recycles (slot : Slot) (check : SlotCheck) : Bool :=
  slot.handle.isSome && !slot.inUse && (check.expired || !check.alive)

def checkSlot (check : Nat → SlotCheck) (s : State T) (idx : Nat) : State T :=
  match s.slots[idx]? with
  | some slot =>
    if recycles slot (check idx) then s.recycleSlot idx (check idx).reopens else s
  | none => s

def healthCheck (s : State T) (check : Nat → SlotCheck) : State T :=
  (List.range s.slots.length).foldl (checkSlot check) s

variable {s : State T}

/-- A slot without a connection is not lent. -/
def ClosedIdle (s : State T) : Prop :=
  ∀ slot ∈ s.slots, slot.handle = none → slot.inUse = false

/-- The pool changes no slot that is in use, and no worker. -/
structure Spares (s after : State T) : Prop where
  phase : after.phase = s.phase
  ctx : after.ctx = s.ctx
  closed : s.ClosedIdle → after.ClosedIdle
  lent : ∀ (idx : Nat) (slot : Slot), s.slots[idx]? = some slot → slot.inUse = true →
    after.slots[idx]? = some slot

theorem Spares.refl (s : State T) : Spares s s := ⟨rfl, rfl, id, fun _ _ found _ => found⟩

theorem Spares.trans {mid after : State T} (first : Spares s mid) (later : Spares mid after) :
    Spares s after :=
  ⟨later.phase.trans first.phase, later.ctx.trans first.ctx, later.closed ∘ first.closed,
    fun idx slot found used => later.lent idx slot (first.lent idx slot found used) used⟩

theorem ClosedIdle.set (closed : s.ClosedIdle) (idx : Nat) {slot : Slot}
    (idle : slot.handle = none → slot.inUse = false) : (s.set idx slot).ClosedIdle := by
  intro other member
  rcases List.mem_or_eq_of_mem_set member with old | rfl
  · exact closed other old
  · exact idle

/-- The slot is there and not lent. -/
def Idle (s : State T) (idx : Nat) : Prop :=
  ∃ slot, s.slots[idx]? = some slot ∧ slot.inUse = false

theorem Idle.spares_set {idx : Nat} (idle : s.Idle idx) (handle : Option Nat) :
    Spares s (s.set idx ⟨handle, false⟩) := by
  obtain ⟨before, there, free⟩ := idle
  refine ⟨rfl, rfl, fun closed => closed.set idx fun _ => rfl, fun other lent found used => ?_⟩
  have different : idx ≠ other := by
    rintro rfl
    rw [there] at found
    cases found
    rw [free] at used
    contradiction
  simp only [set, List.getElem?_set_ne different, found]

theorem set_slots {idx : Nat} (idle : s.Idle idx) (slot : Slot) :
    (s.set idx slot).slots[idx]? = some slot := by
  obtain ⟨before, there, -⟩ := idle
  obtain ⟨bound, -⟩ := List.getElem?_eq_some_iff.mp there
  simp [set, bound]

/-- The slot is idle and its connection open. -/
def Ready (s : State T) (idx : Nat) : Prop :=
  ∃ slot, s.slots[idx]? = some slot ∧ slot.inUse = false ∧ slot.handle.isSome = true

theorem Ready.idle {idx : Nat} (ready : s.Ready idx) : s.Idle idx := by
  obtain ⟨slot, there, free, -⟩ := ready
  exact ⟨slot, there, free⟩

theorem Idle.open {idx : Nat} (idle : s.Idle idx) :
    Spares s (s.openSlot idx) ∧ (s.openSlot idx).Ready idx := by
  have spares := idle.spares_set (some s.nextHandle)
  exact ⟨⟨spares.phase, spares.ctx, spares.closed, spares.lent⟩,
    ⟨some s.nextHandle, false⟩, set_slots idle _, rfl, rfl⟩

theorem Idle.recycle {idx : Nat} (idle : s.Idle idx) (opens : Bool) :
    Spares s (s.recycleSlot idx opens) ∧
      (opens = true → (s.recycleSlot idx opens).Ready idx) := by
  unfold recycleSlot
  split
  · exact ⟨idle.open.1, fun _ => idle.open.2⟩
  · next fails => exact ⟨idle.spares_set none, fun opened => absurd opened fails⟩

theorem find_slot {p : Slot → Bool} {idx : Nat} (found : s.slots.findIdx? p = some idx) :
    ∃ slot ∈ s.slots, s.slots[idx]? = some slot ∧ p slot = true := by
  obtain ⟨bound, holds, -⟩ := List.findIdx?_eq_some_iff_getElem.mp found
  exact ⟨s.slots[idx], List.getElem_mem bound, List.getElem?_eq_getElem bound, holds⟩

theorem chooseSlot_spares (closed : s.ClosedIdle) (settings : Settings) (opens : Bool) :
    Spares s (s.chooseSlot settings opens).1 ∧
      ∀ idx, (s.chooseSlot settings opens).2 = some idx →
        (s.chooseSlot settings opens).1.Ready idx := by
  unfold chooseSlot
  split
  · next idx found =>
    refine ⟨.refl s, fun other same => ?_⟩
    cases same
    obtain ⟨slot, -, there, idle⟩ := find_slot found
    simp only [Bool.and_eq_true, Bool.not_eq_true'] at idle
    exact ⟨slot, there, idle.2, idle.1⟩
  split
  · split
    · next idx found =>
      obtain ⟨slot, member, there, empty⟩ := find_slot found
      have idle : s.Idle idx := ⟨slot, there, closed slot member (by simpa using empty)⟩
      refine ⟨idle.open.1, fun other same => ?_⟩
      cases same
      exact idle.open.2
    · exact ⟨.refl s, fun _ none => by cases none⟩
  · exact ⟨.refl s, fun _ none => by cases none⟩

theorem validateSlot_spares {idx : Nat} (ready : s.Ready idx) (settings : Settings)
    (borrow : Borrow) :
    Spares s (s.validateSlot settings idx borrow).1 ∧
      ((s.validateSlot settings idx borrow).2 = true →
        (s.validateSlot settings idx borrow).1.Ready idx) := by
  unfold validateSlot
  split
  · exact ready.idle.recycle borrow.reopens
  · exact ⟨.refl s, fun _ => ready⟩

/-- The slot that a borrow is granted was idle, and has an open connection. -/
theorem poolGetSession_spares (closed : s.ClosedIdle) (settings : Settings) (borrow : Borrow) :
    Spares s (s.poolGetSession settings borrow).1 ∧
      ∀ idx, (s.poolGetSession settings borrow).2 = .granted idx →
        (s.poolGetSession settings borrow).1.Ready idx := by
  have chosen := chooseSlot_spares closed settings borrow.opens
  unfold poolGetSession
  split
  · next after none =>
    rw [none] at chosen
    refine ⟨chosen.1, fun idx granted => ?_⟩
    dsimp only at granted
    split at granted <;> cases granted
  · next after idx some =>
    rw [some] at chosen
    have valid := validateSlot_spares (chosen.2 idx rfl) settings borrow
    split
    · next refused =>
      rw [refused] at valid
      exact ⟨chosen.1.trans valid.1, fun _ granted => by cases granted⟩
    · next accepted =>
      rw [accepted] at valid
      refine ⟨chosen.1.trans valid.1, fun other granted => ?_⟩
      cases granted
      exact valid.2 rfl

theorem checkSlot_spares (check : Nat → SlotCheck) (idx : Nat) :
    Spares s (s.checkSlot check idx) := by
  unfold checkSlot
  split
  · next slot found =>
    split
    · next recycled =>
      have free : slot.inUse = false := by
        simp only [recycles, Bool.and_eq_true, Bool.not_eq_true'] at recycled
        exact recycled.1.2
      exact (Idle.recycle ⟨slot, found, free⟩ (check idx).reopens).1
    · exact .refl s
  · exact .refl s

theorem healthCheck_spares (check : Nat → SlotCheck) : Spares s (s.healthCheck check) := by
  unfold healthCheck
  generalize List.range s.slots.length = indices
  induction indices generalizing s with
  | nil => exact .refl s
  | cons idx indices ih => exact (checkSlot_spares check idx).trans ih

/-- The worker's context has the slot's connection. -/
def Holds (s : State T) (worker : T) (idx : Nat) : Prop :=
  (s.ctx worker).svchp.isSome = true ∧ (s.ctx worker).poolSlotIndex = idx

/-- Every context that has a connection has that of a slot which is lent, to no
    other worker; a worker that waits for a slot has none. -/
structure Owned (s : State T) : Prop where
  closed : s.ClosedIdle
  lent : ∀ holder idx, s.Holds holder idx →
    s.slots[idx]? = some ⟨(s.ctx holder).svchp, true⟩
  alone : ∀ holder other idx, s.Holds holder idx → s.Holds other idx → holder = other
  waits : ∀ worker, s.phase worker = .starting ∨ s.phase worker = .borrowing →
    (s.ctx worker).svchp = none

theorem Holds.slot (owned : s.Owned) {holder : T} {idx : Nat} (holds : s.Holds holder idx) :
    ∃ slot, s.slots[idx]? = some slot ∧ slot.inUse = true ∧ slot.handle.isSome = true :=
  ⟨_, owned.lent holder idx holds, rfl, holds.1⟩

theorem Idle.not_held (owned : s.Owned) {idx : Nat} (idle : s.Idle idx) (holder : T) :
    ¬ s.Holds holder idx := by
  intro holds
  obtain ⟨slot, there, free⟩ := idle
  obtain ⟨held, same, used, -⟩ := holds.slot owned
  rw [there] at same
  cases same
  rw [free] at used
  contradiction

theorem Owned.spares (owned : s.Owned) {after : State T} (spares : Spares s after) :
    after.Owned := by
  have same : ∀ holder idx, after.Holds holder idx → s.Holds holder idx := by
    intro holder idx holds
    rwa [Holds, spares.ctx] at holds
  refine ⟨spares.closed owned.closed, fun holder idx holds => ?_, ?_, ?_⟩
  · rw [spares.ctx]
    exact spares.lent idx _ (owned.lent holder idx (same holder idx holds)) rfl
  · exact fun holder other idx holds others =>
      owned.alone holder other idx (same holder idx holds) (same other idx others)
  · rw [spares.phase, spares.ctx]
    exact owned.waits

/-- A slot that nobody holds can be set to anything that is not lent. -/
theorem Owned.set (owned : s.Owned) {idx : Nat} (nobody : ∀ holder, ¬ s.Holds holder idx)
    (slot : Slot) (free : slot.inUse = false) : (s.set idx slot).Owned := by
  refine ⟨owned.closed.set idx fun _ => free, fun holder other holds => ?_, owned.alone,
    owned.waits⟩
  have different : idx ≠ other := by
    rintro rfl
    exact nobody holder holds
  simp only [State.set, List.getElem?_set_ne different]
  exact owned.lent holder other holds

/-- `MSSQL_Pool_reconnect_session` closes the slot if it still has the caller's connection. -/
def mssqlClose (s : State T) (worker : T) : State T :=
  match s.slots[(s.ctx worker).poolSlotIndex]? with
  | some slot =>
    if slot.handle.isSome ∧ slot.handle = (s.ctx worker).svchp then
      s.closeSlot (s.ctx worker).poolSlotIndex
    else s
  | none => s

/-- The release of the worker rolls back the connection in this slot. -/
def RollsBack (settings : Settings) (s : State T) (worker : T) (idx : Nat) : Prop :=
  s.phase worker = .serving ∧ settings.rollbackOnReturnToPool = true ∧
    (s.ctx worker).poolSlotIndex = idx ∧
      ∃ slot, s.slots[idx]? = some slot ∧ slot.handle.isSome = true

variable {settings : Settings}

/-- The pool leaves a slot that is held alone. -/
theorem Spares.same_slot (owned : s.Owned) {after : State T} (spares : Spares s after)
    {holder : T} {idx : Nat} (holds : s.Holds holder idx) :
    after.slots[idx]? = s.slots[idx]? := by
  obtain ⟨slot, there, used, -⟩ := holds.slot owned
  rw [there]
  exact spares.lent idx slot there used

/-- A rollback in a held slot is the holder's own, or made through a zeroed context. -/
theorem RollsBack.worker_eq (owned : s.Owned) {worker holder : T} {idx : Nat}
    (rolls : s.RollsBack settings worker idx) (holds : s.Holds holder idx)
    (mine : (s.ctx worker).svchp = none →
      ∀ holder, ¬ s.Holds holder (s.ctx worker).poolSlotIndex) : worker = holder := by
  obtain ⟨-, -, rfl, -⟩ := rolls
  cases connected : (s.ctx worker).svchp with
  | none => exact absurd holds (mine connected holder)
  | some handle =>
    exact owned.alone worker holder _ ⟨by rw [connected]; rfl, rfl⟩ holds

theorem Holds.rollsBack (owned : s.Owned) {worker holder : T}
    (holds : s.Holds holder (s.ctx worker).poolSlotIndex)
    (rolls : settings.rollbackOnReturnToPool = true) (serves : s.phase worker = .serving) :
    s.RollsBack settings worker (s.ctx worker).poolSlotIndex := by
  obtain ⟨slot, there, -, opened⟩ := holds.slot owned
  exact ⟨serves, rolls, rfl, slot, there, opened⟩

theorem mssqlClose_own (owned : s.Owned) {worker holder : T} {idx : Nat}
    (holds : s.Holds holder idx)
    (changed : (s.mssqlClose worker).slots[idx]? ≠ s.slots[idx]?) : worker = holder := by
  unfold mssqlClose at changed
  split at changed
  · split at changed
    · next slot there same =>
      have own : s.Holds worker (s.ctx worker).poolSlotIndex := ⟨by rw [← same.2]; exact same.1, rfl⟩
      by_cases here : (s.ctx worker).poolSlotIndex = idx
      · subst here
        exact owned.alone worker holder _ own holds
      · simp [closeSlot, State.set, List.getElem?_set_ne here] at changed
    · exact absurd rfl changed
  · exact absurd rfl changed

theorem start_owned (slots : Nat) : (start slots : State T).Owned := by
  refine ⟨fun slot member _ => ?_, fun holder idx holds => ?_, fun holder _ idx holds => ?_,
    fun _ _ => rfl⟩
  · rw [List.eq_of_mem_replicate member]
  · exact absurd holds.1 (by simp [start, Context.zeroed])
  · exact absurd holds.1 (by simp [start, Context.zeroed])

variable [DecidableEq T]

def proceed (s : State T) (worker : T) (phase : Phase) (ctx : Context) : State T :=
  { s with phase := Function.update s.phase worker phase, ctx := Function.update s.ctx worker ctx }

/-- The slot at `idx` is the worker's, and its context is filled in. -/
def lend (s : State T) (worker : T) (idx : Nat) : State T :=
  match s.slots[idx]? with
  | some slot => (s.set idx { slot with inUse := true }).proceed worker .serving ⟨idx, slot.handle⟩
  | none => s

/-- A worker that cannot borrow stops at its start; on a reconnect it goes on with
    the context that the reconnect has zeroed. -/
def getSession (settings : Settings) (s : State T) (worker : T) (borrow : Borrow) : State T :=
  if s.phase worker ≠ .starting ∧ s.phase worker ≠ .borrowing then s
  else
    match s.poolGetSession settings borrow with
    | (after, .granted idx) => after.lend worker idx
    | (after, .waiting) => after
    | (after, .failed) =>
      after.proceed worker (if s.phase worker = .starting then .stopped else .serving)
        (s.ctx worker)

def reconnect (settings : Settings) (s : State T) (worker : T) : State T :=
  if s.phase worker ≠ .serving then s
  else
    match settings.driver with
    | .oracle => s.proceed worker (.releasing false) (s.ctx worker)
    | .mssql => (s.mssqlClose worker).proceed worker .borrowing .zeroed

def shutdown (s : State T) (worker : T) : State T :=
  if s.phase worker ≠ .serving then s else s.proceed worker (.releasing true) (s.ctx worker)

/-- The second half of a release. -/
def freeSlot (s : State T) (worker : T) : State T :=
  match s.phase worker with
  | .releasing shutdown =>
    let next : Phase := if shutdown then .stopped else .borrowing
    match s.slots[(s.ctx worker).poolSlotIndex]? with
    | some slot =>
      (s.set (s.ctx worker).poolSlotIndex { slot with inUse := false }).proceed worker next .zeroed
    | none => s.proceed worker next (s.ctx worker)
  | _ => s

def step (settings : Settings) (s : State T) : Event T → State T
  | .getSession worker borrow => s.getSession settings worker borrow
  | .reconnect worker => s.reconnect settings worker
  | .shutdown worker => s.shutdown worker
  | .freeSlot worker => s.freeSlot worker
  | .healthCheck check => s.healthCheck check

/-- The slot is rolled back, marked free, closed or handed out by the event. -/
def Disturbs (settings : Settings) (s : State T) (idx : Nat) : Event T → Prop
  | .getSession worker borrow =>
    (s.phase worker = .starting ∨ s.phase worker = .borrowing) ∧
      ((s.poolGetSession settings borrow).2 = .granted idx ∨
        (s.poolGetSession settings borrow).1.slots[idx]? ≠ s.slots[idx]?)
  | .reconnect worker =>
    match settings.driver with
    | .oracle => s.RollsBack settings worker idx
    | .mssql => s.phase worker = .serving ∧ (s.mssqlClose worker).slots[idx]? ≠ s.slots[idx]?
  | .shutdown worker => s.RollsBack settings worker idx
  | .freeSlot worker =>
    (∃ shutdown, s.phase worker = .releasing shutdown) ∧ (s.ctx worker).poolSlotIndex = idx
  | .healthCheck check => (s.healthCheck check).slots[idx]? ≠ s.slots[idx]?

def worker : Event T → Option T
  | .getSession worker _ | .reconnect worker | .shutdown worker | .freeSlot worker => some worker
  | .healthCheck _ => none

/-- No slot that a worker's context holds is disturbed by anyone else. -/
def Exclusive (settings : Settings) (s : State T) (event : Event T) : Prop :=
  ∀ holder idx, s.Holds holder idx → s.Disturbs settings idx event → worker event = some holder

/-- No release is carried out through a zeroed context while another worker's
    context holds the slot that it names. -/
def ReleasesOwn (settings : Settings) (s : State T) : Event T → Prop
  | .reconnect worker => settings.driver = .oracle → settings.rollbackOnReturnToPool = true →
    s.phase worker = .serving → (s.ctx worker).svchp = none →
      ∀ holder, ¬ s.Holds holder (s.ctx worker).poolSlotIndex
  | .shutdown worker => settings.rollbackOnReturnToPool = true →
    s.phase worker = .serving → (s.ctx worker).svchp = none →
      ∀ holder, ¬ s.Holds holder (s.ctx worker).poolSlotIndex
  | .freeSlot worker => (∃ shutdown, s.phase worker = .releasing shutdown) →
    (s.ctx worker).svchp = none → ∀ holder, ¬ s.Holds holder (s.ctx worker).poolSlotIndex
  | .getSession _ _ | .healthCheck _ => True

/-- A worker can only lose its connection when its context is replaced by another without one. -/
theorem Owned.proceed (owned : s.Owned) (worker : T) {phase : Phase} {ctx : Context}
    (fewer : ctx = s.ctx worker ∨ ctx.svchp = none)
    (waits : phase = .starting ∨ phase = .borrowing → ctx.svchp = none) :
    (s.proceed worker phase ctx).Owned := by
  have same : ∀ holder idx, (s.proceed worker phase ctx).Holds holder idx →
      s.Holds holder idx ∧ (s.proceed worker phase ctx).ctx holder = s.ctx holder := by
    intro holder idx holds
    by_cases own : holder = worker
    · subst own
      simp only [Holds, State.proceed, Function.update_self] at holds ⊢
      rcases fewer with kept | gone
      · rw [kept] at holds ⊢
        exact ⟨holds, rfl⟩
      · rw [gone] at holds
        exact absurd holds.1 (by simp)
    · simp only [Holds, State.proceed, Function.update_of_ne own] at holds ⊢
      exact ⟨holds, trivial⟩
  refine ⟨owned.closed, fun holder idx holds => ?_, fun holder other idx holds others => ?_,
    fun other => ?_⟩
  · obtain ⟨before, kept⟩ := same holder idx holds
    rw [kept]
    exact owned.lent holder idx before
  · exact owned.alone holder other idx (same holder idx holds).1 (same other idx others).1
  · by_cases own : other = worker
    · subst own
      simp only [State.proceed, Function.update_self]
      exact waits
    · simp only [State.proceed, Function.update_of_ne own]
      exact owned.waits other

theorem Owned.lend (owned : s.Owned) {worker : T} {idx : Nat} (ready : s.Ready idx)
    (without : (s.ctx worker).svchp = none) : (s.lend worker idx).Owned := by
  have nobody := ready.idle.not_held owned
  obtain ⟨slot, there, free, opened⟩ := ready
  have bound : idx < s.slots.length := (List.getElem?_eq_some_iff.mp there).choose
  simp only [State.lend, there]
  have others : ∀ holder other, holder ≠ worker →
      ((s.set idx { slot with inUse := true }).proceed worker .serving ⟨idx, slot.handle⟩).Holds
        holder other → s.Holds holder other ∧ idx ≠ other := by
    intro holder other different holds
    simp only [Holds, State.proceed, State.set, Function.update_of_ne different] at holds
    refine ⟨holds, ?_⟩
    rintro rfl
    exact nobody holder holds
  have own : ∀ other,
      ((s.set idx { slot with inUse := true }).proceed worker .serving ⟨idx, slot.handle⟩).Holds
        worker other → idx = other := by
    intro other holds
    simp only [Holds, State.proceed, Function.update_self] at holds
    exact holds.2
  refine ⟨owned.closed.set idx fun empty => ?_, fun holder other holds => ?_,
    fun holder other at_idx holds held => ?_, fun other => ?_⟩
  · rw [show slot.handle = none from empty] at opened
    simp at opened
  · by_cases mine : holder = worker
    · subst mine
      obtain rfl := own other holds
      simp [State.proceed, State.set, bound]
    · obtain ⟨before, different⟩ := others holder other mine holds
      simp only [State.proceed, State.set, Function.update_of_ne mine,
        List.getElem?_set_ne different]
      exact owned.lent holder other before
  · by_cases mine : holder = worker
    · subst mine
      obtain rfl := own at_idx holds
      by_contra different
      exact (others other idx (Ne.symm different) held).2 rfl
    · obtain ⟨before, away⟩ := others holder at_idx mine holds
      by_cases theirs : other = worker
      · subst theirs
        exact absurd (own at_idx held) away
      · exact owned.alone holder other at_idx before (others other at_idx theirs held).1
  · by_cases mine : other = worker
    · subst mine
      simp [State.proceed]
    · simp only [State.proceed, State.set, Function.update_of_ne mine]
      exact owned.waits other

theorem holds_of_zeroed {worker holder : T} {phase : Phase} {idx : Nat}
    (holds : (s.proceed worker phase .zeroed).Holds holder idx) :
    holder ≠ worker ∧ s.Holds holder idx := by
  by_cases own : holder = worker
  · subst own
    simp [Holds, State.proceed, Context.zeroed] at holds
  · simp only [Holds, State.proceed, Function.update_of_ne own] at holds
    exact ⟨own, holds⟩

/-- A worker gives up a slot that only it can hold. -/
theorem Owned.give (owned : s.Owned) {worker : T} {phase : Phase} {slot : Slot}
    (free : slot.inUse = false)
    (mine : (s.ctx worker).svchp = none →
      ∀ holder, ¬ s.Holds holder (s.ctx worker).poolSlotIndex) :
    ((s.set (s.ctx worker).poolSlotIndex slot).proceed worker phase .zeroed).Owned := by
  have zeroed : (s.proceed worker phase .zeroed).Owned :=
    owned.proceed worker (Or.inr rfl) fun _ => rfl
  refine zeroed.set (fun holder holds => ?_) slot free
  obtain ⟨different, held⟩ := holds_of_zeroed holds
  cases connected : (s.ctx worker).svchp with
  | none => exact mine connected holder held
  | some handle =>
    have own : s.Holds worker (s.ctx worker).poolSlotIndex := ⟨by rw [connected]; rfl, rfl⟩
    exact different (owned.alone holder worker _ held own)

theorem Owned.getSession (owned : s.Owned) (worker : T) (borrow : Borrow) :
    (s.getSession settings worker borrow).Owned := by
  obtain ⟨spares, ready⟩ := poolGetSession_spares owned.closed settings borrow
  unfold State.getSession
  split
  · exact owned
  · next asks =>
    have without : (s.ctx worker).svchp = none := by
      apply owned.waits
      by_contra neither
      exact asks (not_or.mp neither)
    split
    · next after idx granted =>
      rw [granted] at spares ready
      exact (owned.spares spares).lend (ready idx rfl) (by rw [spares.ctx, without])
    · next after waits =>
      rw [waits] at spares
      exact owned.spares spares
    · next after failed =>
      rw [failed] at spares
      exact (owned.spares spares).proceed worker (Or.inr without) fun _ => without

theorem Owned.reconnect (owned : s.Owned) (worker : T) :
    (s.reconnect settings worker).Owned := by
  unfold State.reconnect
  split
  · exact owned
  split
  · exact owned.proceed worker (Or.inl rfl) (by simp)
  · unfold mssqlClose
    have zeroed : (s.proceed worker .borrowing .zeroed).Owned :=
      owned.proceed worker (Or.inr rfl) fun _ => rfl
    split
    · split
      · next slot there same =>
        refine owned.give rfl fun without => ?_
        rw [same.2, without] at same
        simp at same
      · exact zeroed
    · exact zeroed

theorem Owned.shutdown (owned : s.Owned) (worker : T) : (s.shutdown worker).Owned := by
  unfold State.shutdown
  split
  · exact owned
  · exact owned.proceed worker (Or.inl rfl) (by simp)

theorem Owned.freeSlot (owned : s.Owned) {worker : T}
    (mine : (∃ shutdown, s.phase worker = .releasing shutdown) → (s.ctx worker).svchp = none →
      ∀ holder, ¬ s.Holds holder (s.ctx worker).poolSlotIndex) :
    (s.freeSlot worker).Owned := by
  unfold State.freeSlot
  split
  · next shutdown releases =>
    dsimp only
    split
    · exact owned.give rfl (mine ⟨shutdown, releases⟩)
    · next missing =>
      refine owned.proceed worker (Or.inl rfl) fun _ => ?_
      by_contra connected
      have own : s.Holds worker (s.ctx worker).poolSlotIndex :=
        ⟨Option.isSome_iff_ne_none.mpr connected, rfl⟩
      rw [owned.lent worker _ own] at missing
      cases missing
  · exact owned

theorem Owned.step (owned : s.Owned) (event : Event T) (own : s.ReleasesOwn settings event) :
    (s.step settings event).Owned := by
  cases event with
  | getSession worker borrow => exact owned.getSession worker borrow
  | reconnect worker => exact owned.reconnect worker
  | shutdown worker => exact owned.shutdown worker
  | freeSlot worker => exact owned.freeSlot own
  | healthCheck check => exact owned.spares (healthCheck_spares check)

omit [DecidableEq T] in
/-- While every held slot is one worker's, an event disturbs no held slot exactly
    if it releases none through a zeroed context. -/
theorem Owned.exclusive_iff (owned : s.Owned) (event : Event T) :
    s.Exclusive settings event ↔ s.ReleasesOwn settings event := by
  have notOwn : ∀ {worker holder : T}, (s.ctx worker).svchp = none →
      s.Holds holder (s.ctx worker).poolSlotIndex → some worker ≠ some holder := by
    rintro worker holder without holds same
    cases same
    rw [Holds, without] at holds
    simp at holds
  cases event with
  | getSession worker borrow =>
    obtain ⟨spares, ready⟩ := poolGetSession_spares owned.closed settings borrow
    refine iff_of_true (fun holder idx holds disturbs => ?_) trivial
    rcases disturbs.2 with granted | changed
    · have held : (s.poolGetSession settings borrow).1.Holds holder idx := by
        rwa [Holds, spares.ctx]
      exact absurd held ((ready idx granted).idle.not_held (owned.spares spares) holder)
    · exact absurd (spares.same_slot owned holds) changed
  | reconnect worker =>
    constructor
    · intro exclusive oracle rolls serves without holder holds
      have back := holds.rollsBack owned rolls serves
      exact notOwn without holds (exclusive holder _ holds (by simpa [Disturbs, oracle] using back))
    · intro own holder idx holds disturbs
      cases driver : settings.driver with
      | oracle =>
        simp only [Disturbs, driver] at disturbs
        rw [State.worker, RollsBack.worker_eq owned disturbs holds
          (own driver disturbs.2.1 disturbs.1)]
      | mssql =>
        simp only [Disturbs, driver] at disturbs
        rw [State.worker, mssqlClose_own owned holds disturbs.2]
  | shutdown worker =>
    constructor
    · intro exclusive rolls serves without holder holds
      exact notOwn without holds (exclusive holder _ holds (holds.rollsBack owned rolls serves))
    · intro own holder idx holds disturbs
      rw [State.worker, RollsBack.worker_eq owned disturbs holds (own disturbs.2.1 disturbs.1)]
  | freeSlot worker =>
    constructor
    · intro exclusive releases without holder holds
      exact notOwn without holds (exclusive holder _ holds ⟨releases, rfl⟩)
    · rintro own holder idx holds ⟨releases, rfl⟩
      cases connected : (s.ctx worker).svchp with
      | none => exact absurd holds (own releases connected holder)
      | some handle =>
        rw [State.worker, owned.alone worker holder _ ⟨by rw [connected]; rfl, rfl⟩ holds]
  | healthCheck check =>
    refine iff_of_true (fun holder idx holds disturbs => ?_) trivial
    exact absurd ((healthCheck_spares check).same_slot owned holds) disturbs

/-- In a run of the workers no slot is disturbed under another worker's context
    exactly if no release of the run names, through a zeroed context, a slot that
    another worker holds. -/
theorem slots_stay_exclusive_iff (settings : Settings) (slots : Nat) (events : List (Event T)) :
    Meets (step settings) (Exclusive settings) (start slots) events ↔
      Meets (step settings) (ReleasesOwn settings) (start slots) events := by
  have keeps : ∀ (s : State T) event, s.Owned → s.Exclusive settings event →
      (s.step settings event).Owned := fun s event owned exclusive =>
    owned.step event ((owned.exclusive_iff event).mp exclusive)
  exact Meets.congr keeps (fun s event owned => owned.exclusive_iff event) (start_owned slots)

instance (s : State T) (worker : T) (idx : Nat) : Decidable (s.Holds worker idx) :=
  inferInstanceAs (Decidable (_ ∧ _))

def oraclePool : Settings := ⟨.oracle, true, true, 2⟩

def borrowed : Borrow := ⟨true, true, true, false⟩

/-- The second worker loses its session, cannot borrow another one and reconnects again. -/
def lostSession : List (Event Bool) :=
  [.getSession false borrowed, .getSession true borrowed, .reconnect true, .freeSlot true,
    .getSession true ⟨true, false, false, false⟩, .reconnect true, .freeSlot true,
    .getSession true borrowed]

/-- The second reconnect rolls back and frees the slot of the first worker, and is
    then granted it. -/
theorem slot_is_lent_twice :
    ¬ Meets (step oraclePool) (Exclusive oraclePool) (start 2) lostSession ∧
      (lostSession.foldl (step oraclePool) (start 2)).Holds false 0 ∧
      (lostSession.foldl (step oraclePool) (start 2)).Holds true 0 := by
  refine ⟨?_, by decide, by decide⟩
  rintro ⟨-, -, -, -, -, again, -⟩
  have held : ((lostSession.take 5).foldl (step oraclePool) (start 2)).Holds false 0 := by decide
  have back : ((lostSession.take 5).foldl (step oraclePool) (start 2)).RollsBack oraclePool
      true 0 := ⟨by decide, rfl, by decide, ⟨some 0, true⟩, by decide, rfl⟩
  cases again false 0 held back

end State

end OciWrapper.Worker
