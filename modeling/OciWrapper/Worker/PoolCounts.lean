import OciWrapper.Worker.PooledSessions
import Mathlib.Data.List.Count

namespace OciWrapper.Worker

/-- The pool settings of `config.ini`. -/
structure PoolIni where
  poolMinSize : Int
  poolMaxSize : Int
  retriesOnConnectionFailure : Int
  connectionValidationOnBorrow : Bool

def PoolIni.minSize (ini : PoolIni) : Int := if ini.poolMinSize > 0 then ini.poolMinSize else 1

def PoolIni.maxSize (ini : PoolIni) : Int := if ini.poolMaxSize > 0 then ini.poolMaxSize else 10

structure Pool where
  driver : Driver
  poolMinSize : Int
  poolMaxSize : Int
  retriesOnConnectionFailure : Int
  connectionValidationOnBorrow : Bool
  slots : List Slot
  slotsOpen : Int
  nextHandle : Nat

def Slot.opened (slot : Slot) : Int := if slot.handle.isSome then 1 else 0

namespace Pool

def set (pool : Pool) (idx : Nat) (slot : Slot) : Pool :=
  { pool with slots := pool.slots.set idx slot }

/-- `opens` says whether the connection is made. An attempt that fails in the Oracle
    pool frees whatever handles the slot had got. -/
def openSlot (pool : Pool) (idx : Nat) (opens : Bool) : Pool × Bool :=
  if opens then
    ({ pool.set idx ⟨some pool.nextHandle, false⟩ with nextHandle := pool.nextHandle + 1 }, true)
  else
    match pool.driver, pool.slots[idx]? with
    | .oracle, some slot => (pool.set idx { slot with handle := none }, false)
    | _, _ => (pool, false)

def closeSlot (pool : Pool) (idx : Nat) : Pool := pool.set idx ⟨none, false⟩

def count (pool : Pool) (change : Int) : Pool := { pool with slotsOpen := pool.slotsOpen + change }

/-- The attempts to open a closed slot, the first of them numbered `attempt`. -/
def reopenSlot (pool : Pool) (idx : Nat) (opens : Nat → Bool) : Nat → Nat → Pool × Bool
  | 0, _ => (pool, false)
  | attempts + 1, attempt =>
    match pool.openSlot idx (opens attempt) with
    | (after, true) => (after.count 1, true)
    | (after, false) => after.reopenSlot idx opens attempts (attempt + 1)

/-- The MSSQL pool makes one attempt at least. -/
def attempts (pool : Pool) : Nat :=
  match pool.driver with
  | .oracle => pool.retriesOnConnectionFailure.toNat
  | .mssql =>
    if pool.retriesOnConnectionFailure > 0 then pool.retriesOnConnectionFailure.toNat else 1

def recycleSlot (pool : Pool) (idx : Nat) (opens : Nat → Bool) (attempts : Nat) : Pool × Bool :=
  ((pool.closeSlot idx).count (-1)).reopenSlot idx opens attempts 0

/-- `OCI_Connect_pool` and `MSSQL_Connect_pool` before the first connection: only the
    latter lowers a minimum above the maximum. -/
def configured (driver : Driver) (ini : PoolIni) : Pool :=
  { driver := driver
    poolMinSize :=
      match driver with
      | .oracle => ini.minSize
      | .mssql => if ini.minSize > ini.maxSize then ini.maxSize else ini.minSize
    poolMaxSize := ini.maxSize
    retriesOnConnectionFailure :=
      if ini.retriesOnConnectionFailure ≥ 0 then ini.retriesOnConnectionFailure else 3
    connectionValidationOnBorrow := ini.connectionValidationOnBorrow
    slots := List.replicate ini.maxSize.toNat ⟨none, false⟩
    slotsOpen := 0
    nextHandle := 0 }

/-- The mandatory slots from `idx` on; the pool is given up when one cannot be opened.
    A slot behind the array is opened outside of it. -/
def openMandatory (opens : Nat → Nat → Bool) : Nat → Nat → Pool → Option Pool
  | 0, _, pool => some pool
  | slots + 1, idx, pool =>
    match pool.reopenSlot idx (opens idx) pool.attempts 0 with
    | (after, true) => openMandatory opens slots (idx + 1) after
    | (_, false) => none

def connect (driver : Driver) (ini : PoolIni) (opens : Nat → Nat → Bool) : Option Pool :=
  openMandatory opens (configured driver ini).poolMinSize.toNat 0 (configured driver ini)

/-- What a turn of a borrow meets, its attempts to open the slot again included. -/
structure BorrowTurn where
  opens : Bool
  alive : Bool
  reopens : Nat → Bool
  timedOut : Bool

def chooseSlot (pool : Pool) (opens : Bool) : Pool × Option Nat :=
  match pool.slots.findIdx? fun slot => slot.handle.isSome && !slot.inUse with
  | some idx => (pool, some idx)
  | none =>
    if pool.slotsOpen < pool.poolMaxSize then
      match pool.slots.findIdx? fun slot => slot.handle.isNone with
      | some idx =>
        match pool.openSlot idx opens with
        | (after, true) => (after.count 1, some idx)
        | (after, false) => (after, none)
      | none => (pool, none)
    else (pool, none)

def validateSlot (pool : Pool) (idx : Nat) (turn : BorrowTurn) : Pool × Bool :=
  if pool.connectionValidationOnBorrow && !turn.alive then
    pool.recycleSlot idx turn.reopens pool.attempts
  else (pool, true)

def markInUse (pool : Pool) (idx : Nat) : Pool :=
  match pool.slots[idx]? with
  | some slot => pool.set idx { slot with inUse := true }
  | none => pool

def getSession (pool : Pool) (turn : BorrowTurn) : Pool × State.Grant :=
  match pool.chooseSlot turn.opens with
  | (pool, none) => (pool, if turn.timedOut then .failed else .waiting)
  | (pool, some idx) =>
    match pool.validateSlot idx turn with
    | (pool, false) => (pool, .failed)
    | (pool, true) => (pool.markInUse idx, .granted idx)

/-- The part of a release under the lock. -/
def releaseSession (pool : Pool) (poolSlotIndex : Int) : Pool :=
  if poolSlotIndex < 0 ∨ poolSlotIndex ≥ pool.slots.length then pool
  else
    match pool.slots[poolSlotIndex.toNat]? with
    | some slot => pool.set poolSlotIndex.toNat { slot with inUse := false }
    | none => pool

/-- What a reconnect does before it borrows. -/
def reconnectSession (pool : Pool) (poolSlotIndex : Int) (svchp : Option Nat) : Pool :=
  match pool.driver with
  | .oracle => pool.releaseSession poolSlotIndex
  | .mssql =>
    if 0 ≤ poolSlotIndex ∧ poolSlotIndex < pool.slots.length then
      match pool.slots[poolSlotIndex.toNat]? with
      | some slot =>
        if slot.handle.isSome ∧ slot.handle = svchp then
          (pool.closeSlot poolSlotIndex.toNat).count (-1)
        else pool
      | none => pool
    else pool

structure SlotTurn where
  expired : Bool
  alive : Bool
  reopens : Nat → Bool

/-- An aged slot gets one attempt in the Oracle pool. -/
def checkSlot (check : Nat → SlotTurn) (pool : Pool) (idx : Nat) : Pool :=
  match pool.slots[idx]? with
  | some slot =>
    if slot.handle.isNone || slot.inUse then pool
    else if (check idx).expired then
      (pool.recycleSlot idx (check idx).reopens
        (match pool.driver with
          | .oracle => 1
          | .mssql => pool.attempts)).1
    else if !(check idx).alive then
      (pool.recycleSlot idx (check idx).reopens pool.attempts).1
    else pool
  | none => pool

def healthCheck (pool : Pool) (check : Nat → SlotTurn) : Pool :=
  (List.range pool.slots.length).foldl (checkSlot check) pool

inductive PoolCall where
  | getSession (turn : BorrowTurn)
  | releaseSession (poolSlotIndex : Int)
  | reconnectSession (poolSlotIndex : Int) (svchp : Option Nat)
  | healthCheck (check : Nat → SlotTurn)

def step (pool : Pool) : PoolCall → Pool
  | .getSession turn => (pool.getSession turn).1
  | .releaseSession poolSlotIndex => pool.releaseSession poolSlotIndex
  | .reconnectSession poolSlotIndex svchp => pool.reconnectSession poolSlotIndex svchp
  | .healthCheck check => pool.healthCheck check

def openSlots (pool : Pool) : Nat := pool.slots.countP (·.handle.isSome)

/-- `slots_open` counts the open slots, and only open slots are in use. -/
structure Counted (pool : Pool) : Prop where
  counts : pool.slotsOpen = pool.openSlots
  low : 0 ≤ pool.slotsOpen
  high : pool.slotsOpen ≤ pool.poolMaxSize
  connected : ∀ slot ∈ pool.slots, slot.inUse = true → slot.handle.isSome = true

variable {pool after : Pool} {idx : Nat}

/-- The array has its full size, and the counter counts it. -/
structure Sound (pool : Pool) : Prop where
  size : (pool.slots.length : Int) = pool.poolMaxSize
  counts : pool.slotsOpen = pool.openSlots
  connected : ∀ slot ∈ pool.slots, slot.inUse = true → slot.handle.isSome = true

theorem Sound.counted (sound : pool.Sound) : pool.Counted := by
  have bound : pool.openSlots ≤ pool.slots.length := List.countP_le_length
  have size := sound.size
  have counts := sound.counts
  exact ⟨counts, by omega, by omega, sound.connected⟩

theorem openSlots_set {slot : Slot} (found : pool.slots[idx]? = some slot) (new : Slot) :
    ((pool.slots.set idx new).countP (·.handle.isSome) : Int) =
      pool.openSlots - slot.opened + new.opened := by
  obtain ⟨bound, rfl⟩ := List.getElem?_eq_some_iff.mp found
  rw [List.countP_set bound, openSlots]
  unfold Slot.opened
  by_cases opened : pool.slots[idx].handle.isSome = true
  · have some : 0 < pool.slots.countP (·.handle.isSome) :=
      List.countP_pos_iff.mpr ⟨_, List.getElem_mem bound, opened⟩
    rw [if_pos opened, if_pos opened]
    split <;> omega
  · rw [if_neg opened, if_neg opened]
    split <;> omega

/-- One slot is changed, and the counter moves as far as the slot is opened or closed. -/
theorem Sound.replace (sound : pool.Sound) {slot : Slot} (found : pool.slots[idx]? = some slot)
    (new : Slot)
    (connected : new.inUse = true → new.handle.isSome = true)
    (slots : after.slots = pool.slots.set idx new) (maxSize : after.poolMaxSize = pool.poolMaxSize)
    (counts : after.slotsOpen = pool.slotsOpen - slot.opened + new.opened) : after.Sound := by
  refine ⟨?_, ?_, fun other member => ?_⟩
  · rw [slots, List.length_set, maxSize, sound.size]
  · rw [counts, openSlots, slots, openSlots_set found, sound.counts]
  · rw [slots] at member
    rcases List.mem_or_eq_of_mem_set member with old | rfl
    · exact sound.connected other old
    · exact connected

def Closed (pool : Pool) (idx : Nat) : Prop :=
  ∃ slot, pool.slots[idx]? = some slot ∧ slot.handle = none

def Open (pool : Pool) (idx : Nat) : Prop :=
  ∃ slot, pool.slots[idx]? = some slot ∧ slot.handle.isSome = true

/-- Only the slot at `idx` may be another one. -/
structure ChangesOnly (pool after : Pool) (idx : Nat) : Prop where
  driver : after.driver = pool.driver
  retries : after.retriesOnConnectionFailure = pool.retriesOnConnectionFailure
  maxSize : after.poolMaxSize = pool.poolMaxSize
  length : after.slots.length = pool.slots.length
  others : ∀ other, other ≠ idx → after.slots[other]? = pool.slots[other]?

theorem ChangesOnly.refl (pool : Pool) (idx : Nat) : ChangesOnly pool pool idx :=
  ⟨rfl, rfl, rfl, rfl, fun _ _ => rfl⟩

theorem ChangesOnly.trans {mid : Pool} (first : ChangesOnly pool mid idx)
    (later : ChangesOnly mid after idx) : ChangesOnly pool after idx :=
  ⟨later.driver.trans first.driver, later.retries.trans first.retries,
    later.maxSize.trans first.maxSize, later.length.trans first.length,
    fun other different => (later.others other different).trans (first.others other different)⟩

theorem ChangesOnly.set (pool : Pool) (idx : Nat) (slot : Slot) :
    ChangesOnly pool (pool.set idx slot) idx :=
  ⟨rfl, rfl, rfl, List.length_set, fun _ different => List.getElem?_set_ne (Ne.symm different)⟩

theorem openSlot_changes (pool : Pool) (idx : Nat) (opens : Bool) :
    ChangesOnly pool (pool.openSlot idx opens).1 idx := by
  have changes := ChangesOnly.set pool idx
  unfold openSlot
  split
  · have set := changes ⟨some pool.nextHandle, false⟩
    exact ⟨set.driver, set.retries, set.maxSize, set.length, set.others⟩
  · split
    · exact changes _
    · exact .refl pool idx

theorem openSlot_counts (pool : Pool) (idx : Nat) (opens : Bool) :
    (pool.openSlot idx opens).1.slotsOpen = pool.slotsOpen ∧
      (pool.openSlot idx opens).2 = opens := by
  unfold openSlot
  split
  · next success => exact ⟨rfl, success.symm⟩
  · next failure => split <;> exact ⟨rfl, (Bool.eq_false_iff.mpr failure).symm⟩

/-- Opening a closed slot that succeeds is counted by its caller. -/
theorem Sound.openSlot (sound : pool.Sound) (closed : pool.Closed idx) :
    (((pool.openSlot idx true).1.count 1).Sound ∧ ((pool.openSlot idx true).1.count 1).Open idx) ∧
      (pool.openSlot idx false).1.Sound ∧ (pool.openSlot idx false).1.Closed idx := by
  obtain ⟨slot, found, empty⟩ := closed
  obtain ⟨bound, -⟩ := List.getElem?_eq_some_iff.mp found
  have uncounted : slot.opened = 0 := by simp [Slot.opened, empty]
  refine ⟨⟨?_, ⟨some pool.nextHandle, false⟩, ?_, rfl⟩, ?_⟩
  · refine sound.replace found ⟨some pool.nextHandle, false⟩ (fun used => by cases used)
      rfl rfl ?_
    rw [uncounted]
    simp [Pool.openSlot, Pool.count, Pool.set, Slot.opened]
  · simp [Pool.openSlot, Pool.count, Pool.set, bound]
  · have same : { slot with handle := none } = slot := by rw [← empty]
    unfold Pool.openSlot
    rw [if_neg Bool.false_ne_true]
    split
    · next at_idx _ other =>
      rw [found] at other
      cases other
      rw [same]
      refine ⟨sound.replace found slot (sound.connected slot (List.mem_of_getElem? found)) rfl rfl
        (by simp [Pool.set]), slot, ?_, empty⟩
      simp [Pool.set, bound]
    · exact ⟨sound, slot, found, empty⟩

theorem reopenSlot_changes (opens : Nat → Bool) (attempts attempt : Nat) (pool : Pool) (idx : Nat) :
    ChangesOnly pool (pool.reopenSlot idx opens attempts attempt).1 idx := by
  induction attempts generalizing pool attempt with
  | zero => exact .refl pool idx
  | succ attempts ih =>
    have tried := openSlot_changes pool idx (opens attempt)
    unfold reopenSlot
    split
    · next after opened =>
      rw [opened] at tried
      exact ⟨tried.driver, tried.retries, tried.maxSize, tried.length, tried.others⟩
    · next after failed =>
      rw [failed] at tried
      exact tried.trans (ih (attempt + 1) after)

theorem reopenSlot_counts (opens : Nat → Bool) (attempts attempt : Nat) (pool : Pool) (idx : Nat) :
    (pool.reopenSlot idx opens attempts attempt).2 = true →
      (pool.reopenSlot idx opens attempts attempt).1.slotsOpen = pool.slotsOpen + 1 := by
  induction attempts generalizing pool attempt with
  | zero =>
    intro opened
    cases opened
  | succ attempts ih =>
    have tried := (openSlot_counts pool idx (opens attempt)).1
    unfold reopenSlot
    split
    · next after opened =>
      rw [opened] at tried
      exact fun _ => congrArg (· + 1) tried
    · next after failed =>
      rw [failed] at tried
      rw [← tried]
      exact ih (attempt + 1) after

theorem Sound.reopenSlot (opens : Nat → Bool) (attempts attempt : Nat) (sound : pool.Sound)
    (closed : pool.Closed idx) :
    (pool.reopenSlot idx opens attempts attempt).1.Sound ∧
      ((pool.reopenSlot idx opens attempts attempt).2 = true →
        (pool.reopenSlot idx opens attempts attempt).1.Open idx) := by
  induction attempts generalizing pool attempt with
  | zero => exact ⟨sound, fun opened => by cases opened⟩
  | succ attempts ih =>
    obtain ⟨success, failure⟩ := sound.openSlot closed
    have outcome := (openSlot_counts pool idx (opens attempt)).2
    unfold Pool.reopenSlot
    split
    · next after opened =>
      rw [opened] at outcome
      rw [← outcome] at opened
      rw [opened] at success
      exact ⟨success.1, fun _ => success.2⟩
    · next after failed =>
      rw [failed] at outcome
      rw [← outcome] at failed
      rw [failed] at failure
      exact ih (attempt + 1) failure.1 failure.2

theorem Sound.closeSlot (sound : pool.Sound) (opened : pool.Open idx) :
    ((pool.closeSlot idx).count (-1)).Sound ∧ ((pool.closeSlot idx).count (-1)).Closed idx := by
  obtain ⟨slot, found, connected⟩ := opened
  obtain ⟨bound, -⟩ := List.getElem?_eq_some_iff.mp found
  refine ⟨sound.replace found ⟨none, false⟩ (fun used => by cases used) rfl rfl ?_,
    ⟨none, false⟩, ?_, rfl⟩
  · simp [Pool.closeSlot, Pool.count, Pool.set, Slot.opened, connected, Int.sub_eq_add_neg]
  · simp [Pool.closeSlot, Pool.count, Pool.set, bound]

theorem Sound.recycleSlot (sound : pool.Sound) (opened : pool.Open idx) (opens : Nat → Bool)
    (attempts : Nat) :
    (pool.recycleSlot idx opens attempts).1.Sound ∧
      ((pool.recycleSlot idx opens attempts).2 = true →
        (pool.recycleSlot idx opens attempts).1.Open idx) := by
  obtain ⟨closes, closed⟩ := sound.closeSlot opened
  exact closes.reopenSlot opens attempts 0 closed

theorem find_slot {p : Slot → Bool} (found : pool.slots.findIdx? p = some idx) :
    ∃ slot, pool.slots[idx]? = some slot ∧ p slot = true := by
  obtain ⟨bound, holds, -⟩ := List.findIdx?_eq_some_iff_getElem.mp found
  exact ⟨pool.slots[idx], List.getElem?_eq_getElem bound, holds⟩

theorem Sound.chooseSlot (sound : pool.Sound) (opens : Bool) :
    (pool.chooseSlot opens).1.Sound ∧
      ∀ idx, (pool.chooseSlot opens).2 = some idx → (pool.chooseSlot opens).1.Open idx := by
  unfold Pool.chooseSlot
  split
  · next idx found =>
    obtain ⟨slot, there, idle⟩ := find_slot found
    refine ⟨sound, fun other same => ?_⟩
    cases same
    simp only [Bool.and_eq_true] at idle
    exact ⟨slot, there, idle.1⟩
  split
  · split
    · next idx found =>
      obtain ⟨slot, there, empty⟩ := find_slot found
      obtain ⟨success, failure⟩ := sound.openSlot ⟨slot, there, by simpa using empty⟩
      have outcome : pool.openSlot idx opens = ((pool.openSlot idx opens).1, opens) :=
        Prod.ext rfl (openSlot_counts pool idx opens).2
      rw [outcome]
      cases opens with
      | true =>
        refine ⟨success.1, fun other same => ?_⟩
        cases same
        exact success.2
      | false => exact ⟨failure.1, fun other same => by cases same⟩
    · exact ⟨sound, fun other same => by cases same⟩
  · exact ⟨sound, fun other same => by cases same⟩

theorem Sound.validateSlot (sound : pool.Sound) (opened : pool.Open idx) (turn : BorrowTurn) :
    (pool.validateSlot idx turn).1.Sound ∧
      ((pool.validateSlot idx turn).2 = true → (pool.validateSlot idx turn).1.Open idx) := by
  unfold Pool.validateSlot
  split
  · exact sound.recycleSlot opened turn.reopens pool.attempts
  · exact ⟨sound, fun _ => opened⟩

theorem Sound.markInUse (sound : pool.Sound) (opened : pool.Open idx) :
    (pool.markInUse idx).Sound := by
  obtain ⟨slot, found, connected⟩ := opened
  simp only [Pool.markInUse, found]
  exact sound.replace found { slot with inUse := true } (fun _ => connected) rfl rfl
    (by simp [Pool.set, Slot.opened])

theorem Sound.getSession (sound : pool.Sound) (turn : BorrowTurn) :
    (pool.getSession turn).1.Sound := by
  obtain ⟨chosen, found⟩ := sound.chooseSlot turn.opens
  unfold Pool.getSession
  split
  · next after none =>
    rw [none] at chosen
    exact chosen
  · next after idx some =>
    rw [some] at chosen found
    obtain ⟨validated, opened⟩ := chosen.validateSlot (found idx rfl) turn
    split
    · next last refused =>
      rw [refused] at validated
      exact validated
    · next last accepted =>
      rw [accepted] at validated opened
      exact validated.markInUse (opened rfl)

theorem Sound.releaseSession (sound : pool.Sound) (poolSlotIndex : Int) :
    (pool.releaseSession poolSlotIndex).Sound := by
  unfold Pool.releaseSession
  split
  · exact sound
  split
  · next slot found =>
    exact sound.replace found { slot with inUse := false } (fun used => by cases used) rfl rfl
      (by simp [Pool.set, Slot.opened])
  · exact sound

theorem Sound.reconnectSession (sound : pool.Sound) (poolSlotIndex : Int) (svchp : Option Nat) :
    (pool.reconnectSession poolSlotIndex svchp).Sound := by
  unfold Pool.reconnectSession
  split
  · exact sound.releaseSession poolSlotIndex
  split
  · split
    · next slot found =>
      split
      · next same => exact (sound.closeSlot ⟨slot, found, same.1⟩).1
      · exact sound
    · exact sound
  · exact sound

theorem Sound.checkSlot (sound : pool.Sound) (check : Nat → SlotTurn) (idx : Nat) :
    (checkSlot check pool idx).Sound := by
  unfold Pool.checkSlot
  split
  · next slot found =>
    split
    · exact sound
    · next idle =>
      have opened : pool.Open idx := by
        refine ⟨slot, found, ?_⟩
        simp only [Bool.or_eq_true, not_or, Option.isNone_iff_eq_none] at idle
        exact Option.isSome_iff_ne_none.mpr idle.1
      split
      · exact (sound.recycleSlot opened _ _).1
      split
      · exact (sound.recycleSlot opened _ _).1
      · exact sound
  · exact sound

theorem Sound.healthCheck (sound : pool.Sound) (check : Nat → SlotTurn) :
    (pool.healthCheck check).Sound := by
  unfold Pool.healthCheck
  generalize List.range pool.slots.length = indices
  induction indices generalizing pool with
  | nil => exact sound
  | cons idx indices ih => exact ih (sound.checkSlot check idx)

theorem Sound.step (sound : pool.Sound) (call : PoolCall) : (pool.step call).Sound := by
  cases call with
  | getSession turn => exact sound.getSession turn
  | releaseSession poolSlotIndex => exact sound.releaseSession poolSlotIndex
  | reconnectSession poolSlotIndex svchp => exact sound.reconnectSession poolSlotIndex svchp
  | healthCheck check => exact sound.healthCheck check

theorem Sound.run (sound : pool.Sound) (calls : List PoolCall) : (calls.foldl Pool.step pool).Sound := by
  induction calls generalizing pool with
  | nil => exact sound
  | cons call calls ih => exact ih (sound.step call)

/-- Every mandatory slot is counted, also one behind the array. -/
theorem openMandatory_counts {opens : Nat → Nat → Bool} {slots : Nat}
    (opened : openMandatory opens slots idx pool = some after) :
    after.slotsOpen = pool.slotsOpen + slots ∧ after.poolMaxSize = pool.poolMaxSize := by
  induction slots generalizing pool idx with
  | zero =>
    cases opened
    exact ⟨by simp, rfl⟩
  | succ slots ih =>
    have counts := reopenSlot_counts (opens idx) pool.attempts 0 pool idx
    have changes := reopenSlot_changes (opens idx) pool.attempts 0 pool idx
    unfold openMandatory at opened
    split at opened
    · next mid success =>
      rw [success] at counts changes
      obtain ⟨all, same⟩ := ih opened
      refine ⟨?_, same.trans changes.maxSize⟩
      rw [all, counts rfl]
      omega
    · cases opened

theorem openMandatory_sound {opens : Nat → Nat → Bool} {slots : Nat} (sound : pool.Sound)
    (fits : idx + slots ≤ pool.slots.length)
    (closed : ∀ other, idx ≤ other → other < pool.slots.length → pool.Closed other)
    (opened : openMandatory opens slots idx pool = some after) : after.Sound := by
  induction slots generalizing pool idx with
  | zero =>
    cases opened
    exact sound
  | succ slots ih =>
    have reopened := sound.reopenSlot (opens idx) pool.attempts 0 (closed idx (Nat.le_refl idx) (by omega))
    have changes := reopenSlot_changes (opens idx) pool.attempts 0 pool idx
    unfold openMandatory at opened
    split at opened
    · next mid success =>
      rw [success] at reopened changes
      refine ih reopened.1 (by rw [changes.length]; omega) (fun other later inside => ?_) opened
      rw [changes.length] at inside
      obtain ⟨slot, found, empty⟩ := closed other (by omega) inside
      exact ⟨slot, (changes.others other (by omega)).trans found, empty⟩
    · cases opened

theorem configured_sound (driver : Driver) (ini : PoolIni) :
    (configured driver ini).Sound ∧
      ∀ idx, idx < (configured driver ini).slots.length → (configured driver ini).Closed idx := by
  have positive : 0 < ini.maxSize := by
    unfold PoolIni.maxSize
    split <;> omega
  refine ⟨⟨?_, ?_, fun slot member => ?_⟩, fun idx inside => ⟨⟨none, false⟩, ?_, rfl⟩⟩
  · simp only [configured, List.length_replicate]
    omega
  · simp [configured, openSlots, List.countP_replicate]
  · obtain ⟨-, rfl⟩ := List.mem_replicate.mp member
    intro used
    cases used
  · simp only [configured, List.length_replicate] at inside
    simp [configured, inside]

/-- Every state of every run counts its open slots exactly if the pool was not opened
    with a minimum above its maximum, which only the Oracle pool lets stand. -/
theorem slots_open_counted_iff (driver : Driver) (ini : PoolIni) (opens : Nat → Nat → Bool)
    (pool : Pool) (connected : connect driver ini opens = some pool) (calls : List PoolCall) :
    (∀ reached, reached <+: calls → (reached.foldl step pool).Counted) ↔
      driver = .mssql ∨ ini.minSize ≤ ini.maxSize := by
  obtain ⟨sound, closed⟩ := configured_sound driver ini
  constructor
  · intro counted
    obtain ⟨counts, maxSize⟩ := openMandatory_counts connected
    have high := (counted [] (List.nil_prefix)).high
    simp only [List.foldl_nil, counts, maxSize] at high
    cases driver with
    | mssql => exact Or.inl rfl
    | oracle =>
      right
      simp only [configured] at high
      omega
  · intro bounded reached _
    have positive : 0 < ini.maxSize := by
      unfold PoolIni.maxSize
      split <;> omega
    have fits : 0 + (configured driver ini).poolMinSize.toNat ≤
        (configured driver ini).slots.length := by
      simp only [configured, List.length_replicate]
      cases driver with
      | oracle =>
        have least := bounded.resolve_left (by simp)
        simp only
        omega
      | mssql =>
        simp only
        split <;> omega
    have start := openMandatory_sound sound fits (fun other _ inside => closed other inside) connected
    exact (start.run reached).counted

def threeOfTwo : PoolIni := ⟨3, 2, 1, true⟩

def opensAll (_slot _attempt : Nat) : Bool := true

/-- A borrow whose slot does not answer and is not opened again, and a health check. -/
def troubled : List PoolCall :=
  [.getSession ⟨true, false, fun _ => false, false⟩, .getSession ⟨true, true, fun _ => true, false⟩,
    .healthCheck fun _ => ⟨true, true, fun _ => true⟩]

theorem slots_open_counted_mssql :
    ∃ pool, connect .mssql threeOfTwo opensAll = some pool ∧
      ∀ reached, reached <+: troubled → (reached.foldl step pool).Counted :=
  ⟨_, rfl, (slots_open_counted_iff .mssql threeOfTwo opensAll _ rfl troubled).mpr (.inl rfl)⟩

/-- The third mandatory slot lies behind the array of two. -/
theorem third_slot_of_two :
    ∃ pool, connect .oracle threeOfTwo opensAll = some pool ∧ ¬ pool.Counted ∧
      pool.slots.length = 2 ∧ pool.slotsOpen = 3 :=
  ⟨_, rfl, fun counted => absurd counted.high (by decide), by decide, by decide⟩

end Pool

end OciWrapper.Worker
