import OciWrapper.Concurrent.Ring
import Mathlib.Logic.Function.Basic

namespace OciWrapper.Infra

open OciWrapper.Concurrent

variable {C Item : Type}

structure GenericQueue (Item : Type) where
  items : List (Option Item)
  capacity : Int
  count : Int
  head : Int
  tail : Int
  shuttingDown : Bool

/-- `ready` says that the allocations and the initialisation of the mutex and of the
    condition variable succeed. -/
def genericQueueCreate (depth : Int) (ready : Bool) : Option (GenericQueue Item) :=
  if depth ≤ 0 then none
  else if ready then some ⟨List.replicate depth.toNat none, depth, 0, 0, 0, false⟩
  else none

def genericQueueEnqueue (q : GenericQueue Item) : Option Item → GenericQueue Item × Int
  | none => (q, -1)
  | some item =>
    if q.count ≥ q.capacity then (q, -1)
    else
      ({ q with
          items := q.items.set q.tail.toNat (some item)
          tail := (q.tail + 1) % q.capacity
          count := q.count + 1 }, 0)

def popLocked (q : GenericQueue Item) : GenericQueue Item × Option Item :=
  ({ q with
      items := q.items.set q.head.toNat none
      head := (q.head + 1) % q.capacity
      count := q.count - 1 },
    q.items.getD q.head.toNat none)

/-- The item that a dequeue leaves its wait with. -/
def takeLocked (q : GenericQueue Item) : GenericQueue Item × Option Item :=
  if q.count > 0 then popLocked q else (q, none)

/-- One turn of `generic_queue_dequeue_blocking` under the lock: it waits on `not_empty`,
    or returns. -/
def dequeueBlocking (q : GenericQueue Item) : Option (GenericQueue Item × Option Item) :=
  if q.count = 0 ∧ ¬ q.shuttingDown then none else some (takeLocked q)

/-- What `generic_queue_dequeue_timed` returns once it waits no longer, with `timed_out`. -/
def takeTimed (q : GenericQueue Item) : GenericQueue Item × Option Item × Bool :=
  let (after, item) := takeLocked q
  (after, item, item.isNone && !q.shuttingDown)

/-- One turn of its loop; `waitRc` says that the last wait ended with `ETIMEDOUT`. -/
def dequeueTimed (q : GenericQueue Item) (waitRc : Bool) :
    Option (GenericQueue Item × Option Item × Bool) :=
  if q.count = 0 ∧ ¬ q.shuttingDown ∧ ¬ waitRc then none else some (takeTimed q)

def genericQueueShutdown (q : GenericQueue Item) : GenericQueue Item :=
  { q with shuttingDown := true }

/-- The queue holds these items, in order. -/
structure GenericQueue.Holding (q : GenericQueue Item) (held : List Item) : Prop where
  size : (q.items.length : Int) = q.capacity
  count : q.count = held.length
  fits : held.length ≤ q.items.length
  headLow : 0 ≤ q.head
  headHigh : q.head < q.capacity
  tail : q.tail = (q.head + q.count) % q.capacity
  cells : Ring.Holds q.items q.head.toNat (held.map Option.some)

theorem genericQueueCreate_holding {depth : Int} {ready : Bool} {q : GenericQueue Item}
    (created : genericQueueCreate depth ready = some q) :
    q.Holding [] ∧ q.capacity = depth ∧ q.shuttingDown = false := by
  unfold genericQueueCreate at created
  split at created
  · cases created
  · split at created
    · cases created
      refine ⟨⟨?_, rfl, Nat.zero_le _, le_refl _, ?_, ?_, Ring.holds_nil⟩, rfl, rfl⟩
      · simp only [List.length_replicate]
        omega
      · simp only
        omega
      · simp
    · cases created

namespace GenericQueue.Holding

variable {q : GenericQueue Item} {held : List Item}

theorem bounds (holding : q.Holding held) : 0 ≤ q.count ∧ q.count ≤ q.capacity := by
  have size := holding.size
  have count := holding.count
  have fits := holding.fits
  omega

theorem headCell (holding : q.Holding held) : q.head.toNat % q.items.length = q.head.toNat := by
  have size := holding.size
  have low := holding.headLow
  have high := holding.headHigh
  apply Nat.mod_eq_of_lt
  omega

theorem tailCell (holding : q.Holding held) :
    q.tail.toNat = (q.head.toNat + held.length) % q.items.length := by
  have low : 0 ≤ q.head + q.count := by
    have head := holding.headLow
    have count := holding.bounds.1
    omega
  have capacity : 0 ≤ q.capacity := by
    have size := holding.size
    omega
  have sum : (q.head + q.count).toNat = q.head.toNat + held.length := by
    have head := holding.headLow
    have count := holding.count
    omega
  have cells : q.capacity.toNat = q.items.length := by
    have size := holding.size
    omega
  rw [holding.tail, Int.toNat_emod low capacity, sum, cells]

theorem nextHead (holding : q.Holding held) :
    ((q.head + 1) % q.capacity).toNat = (q.head.toNat + 1) % q.items.length := by
  have low := holding.headLow
  have size := holding.size
  have next : (q.head + 1).toNat = q.head.toNat + 1 := by omega
  have cells : q.capacity.toNat = q.items.length := by omega
  rw [Int.toNat_emod (by omega) (by omega), next, cells]

theorem shutdown (holding : q.Holding held) : (genericQueueShutdown q).Holding held :=
  ⟨holding.size, holding.count, holding.fits, holding.headLow, holding.headHigh, holding.tail,
    holding.cells⟩

/-- An item is accepted exactly when it is not NULL and there is room. -/
theorem enqueue (holding : q.Holding held) (item : Option Item) :
    ((genericQueueEnqueue q item).2 = 0 ↔ item.isSome ∧ q.count < q.capacity) ∧
      (genericQueueEnqueue q item).1.Holding
        (held ++ if (genericQueueEnqueue q item).2 = 0 then item.toList else []) := by
  cases item with
  | none => simpa [genericQueueEnqueue] using holding
  | some item =>
    simp only [genericQueueEnqueue]
    split
    · rename_i full
      refine ⟨by simpa using full, by simpa using holding⟩
    · rename_i notFull
      have size := holding.size
      have count := holding.count
      refine ⟨by simpa using notFull, ?_⟩
      constructor
      · simpa using size
      · simpa using count
      · simp only [List.length_set, if_true, Option.toList_some, List.length_append,
          List.length_singleton]
        omega
      · exact holding.headLow
      · exact holding.headHigh
      · simp only [holding.tail, Int.emod_add_emod, Int.add_assoc]
      · have room : (held.map Option.some).length < q.items.length := by
          rw [List.length_map]
          omega
        simpa [holding.tailCell] using holding.cells.push room (some item)

/-- With an item in the queue the first one is taken. -/
theorem pop {first : Item} (holding : q.Holding (first :: held)) :
    (popLocked q).2 = some first ∧ (popLocked q).1.Holding held := by
  have fits := holding.fits
  have size := holding.size
  have count := holding.count
  have low := holding.headLow
  simp only [List.length_cons] at fits count
  have fitsMapped : (held.map Option.some).length < q.items.length := by
    rw [List.length_map]
    omega
  have popped := @Ring.Holds.pop _ _ _ _ (some first) holding.cells fitsMapped none
  rw [holding.headCell] at popped
  refine ⟨?_, ?_⟩
  · simp [popLocked, List.getD_eq_getElem?_getD, popped.1]
  · constructor
    · simpa [popLocked] using size
    · simp only [popLocked]
      omega
    · simp only [popLocked, List.length_set]
      omega
    · exact Int.emod_nonneg _ (by omega)
    · exact Int.emod_lt_of_pos _ (by omega)
    · simp only [popLocked, Int.emod_add_emod, holding.tail]
      congr 1
      omega
    · simpa [popLocked, holding.nextHead] using popped.2

theorem take (holding : q.Holding held) :
    (takeLocked q).2 = held.head? ∧ (takeLocked q).1.Holding held.tail := by
  cases held with
  | nil =>
    have count := holding.count
    have empty : ¬ q.count > 0 := by simp [count]
    rw [takeLocked, if_neg empty]
    exact ⟨rfl, holding⟩
  | cons first held =>
    have count := holding.count
    have filled : q.count > 0 := by
      simp only [List.length_cons] at count
      omega
    rw [takeLocked, if_pos filled]
    exact holding.pop

theorem empty_of_take (holding : q.Holding held) (nothing : (takeLocked q).2 = none) :
    q.count = 0 := by
  rw [holding.take.1, List.head?_eq_none_iff] at nothing
  simp [holding.count, nothing]

end GenericQueue.Holding

/-- What a call gives back: an enqueue with the item it was given, a dequeue with the item
    it took and, when it is timed, with `timed_out`. -/
inductive QueueReturn (Item : Type) where
  | enqueued (item : Option Item) (rc : Int)
  | blocking (item : Option Item)
  | timed (item : Option Item) (timedOut : Bool)

inductive QueueWait where
  | blocking
  | timed
  deriving DecidableEq

/-- A consumer waiting in a dequeue may wake at any time; a timed wait may have timed out. -/
inductive QueueEvent (C Item : Type) where
  | enqueue (item : Option Item)
  | dequeueBlocking (consumer : C)
  | dequeueTimed (consumer : C) (timeoutMs : Int)
  | wake (consumer : C) (timedOut : Bool)
  | shutdown

/-- The queue, the consumers that wait on `not_empty`, and the calls that have returned, in
    order, each with the queue that it found when it held the lock last. -/
structure QueueRun (C Item : Type) where
  queue : GenericQueue Item
  waiting : C → Option QueueWait
  returns : List (GenericQueue Item × QueueReturn Item)

def QueueReturn.accepted : QueueReturn Item → Option Item
  | .enqueued item rc => if rc = 0 then item else none
  | _ => none

def QueueReturn.dequeued : QueueReturn Item → Option Item
  | .enqueued .. => none
  | .blocking item | .timed item _ => item

/-- What the return says about the queue that the call found. -/
def QueueReturn.Conforms (q : GenericQueue Item) : QueueReturn Item → Prop
  | .enqueued item rc => rc = 0 ↔ item.isSome ∧ q.count < q.capacity
  | .blocking item => item = none → q.count = 0 ∧ q.shuttingDown = true
  | .timed item timedOut =>
    item = none → q.count = 0 ∧ (timedOut = true ↔ q.shuttingDown = false)

namespace QueueRun

def start (q : GenericQueue Item) : QueueRun C Item := ⟨q, fun _ => none, []⟩

def accepted (s : QueueRun C Item) : List Item := s.returns.filterMap fun entry => entry.2.accepted

def dequeued (s : QueueRun C Item) : List Item := s.returns.filterMap fun entry => entry.2.dequeued

variable [DecidableEq C]

/-- The consumer's call returns, or waits on. -/
def settle (s : QueueRun C Item) (consumer : C) (wait : QueueWait) :
    Option (GenericQueue Item × QueueReturn Item) → QueueRun C Item
  | none => { s with waiting := Function.update s.waiting consumer (some wait) }
  | some (queue, result) =>
    ⟨queue, Function.update s.waiting consumer none, s.returns ++ [(s.queue, result)]⟩

def blockingTurn (s : QueueRun C Item) (consumer : C) : QueueRun C Item :=
  s.settle consumer .blocking
    ((dequeueBlocking s.queue).map fun (queue, item) => (queue, .blocking item))

def timedTurn (s : QueueRun C Item) (consumer : C) (waitRc : Bool) : QueueRun C Item :=
  s.settle consumer .timed
    ((dequeueTimed s.queue waitRc).map fun (queue, item, timedOut) => (queue, .timed item timedOut))

def poll (s : QueueRun C Item) (consumer : C) : QueueRun C Item :=
  let (queue, item, timedOut) := takeTimed s.queue
  s.settle consumer .timed (some (queue, .timed item timedOut))

/-- A consumer is in one call at a time. -/
def step (s : QueueRun C Item) : QueueEvent C Item → QueueRun C Item
  | .enqueue item =>
    let (queue, rc) := genericQueueEnqueue s.queue item
    { s with queue, returns := s.returns ++ [(s.queue, .enqueued item rc)] }
  | .dequeueBlocking consumer =>
    if s.waiting consumer = none then s.blockingTurn consumer else s
  | .dequeueTimed consumer timeoutMs =>
    if s.waiting consumer = none then
      if timeoutMs ≤ 0 then s.poll consumer else s.timedTurn consumer false
    else s
  | .wake consumer timedOut =>
    match s.waiting consumer with
    | none => s
    | some .blocking => s.blockingTurn consumer
    | some .timed => s.timedTurn consumer timedOut
  | .shutdown => { s with queue := genericQueueShutdown s.queue }

/-- The queue holds what was accepted and not yet dequeued, and every return conforms. -/
structure Ordered (s : QueueRun C Item) (held : List Item) : Prop where
  conserved : s.accepted = s.dequeued ++ held
  holding : s.queue.Holding held
  conforms : ∀ entry ∈ s.returns, entry.2.Conforms entry.1

omit [DecidableEq C] in
theorem start_ordered {q : GenericQueue Item} (holding : q.Holding []) :
    (start q : QueueRun C Item).Ordered [] := by
  refine ⟨rfl, holding, fun entry member => ?_⟩
  cases member

theorem Ordered.wait {s : QueueRun C Item} {held : List Item} (ordered : s.Ordered held)
    (consumer : C) (wait : QueueWait) : (s.settle consumer wait none).Ordered held :=
  ⟨ordered.conserved, ordered.holding, ordered.conforms⟩

/-- A dequeue that returns gives the first of the items held. -/
theorem Ordered.took {s : QueueRun C Item} {held : List Item} (ordered : s.Ordered held)
    (consumer : C) (wait : QueueWait) {result : QueueReturn Item}
    (noneAccepted : result.accepted = none) (taken : result.dequeued = (takeLocked s.queue).2)
    (conforms : result.Conforms s.queue) :
    (s.settle consumer wait (some ((takeLocked s.queue).1, result))).Ordered held.tail := by
  have took := ordered.holding.take
  constructor
  · have before := ordered.conserved
    simp only [accepted, dequeued] at before
    simp only [settle, accepted, dequeued, List.filterMap_append, before, List.append_assoc]
    congr 1
    cases held <;> simp [noneAccepted, taken, took.1]
  · exact took.2
  · intro entry member
    rcases List.mem_append.mp member with old | new
    · exact ordered.conforms entry old
    · rw [List.mem_singleton.mp new]
      exact conforms

theorem Ordered.blockingTurn {s : QueueRun C Item} {held : List Item} (ordered : s.Ordered held)
    (consumer : C) : ∃ after, (s.blockingTurn consumer).Ordered after := by
  unfold QueueRun.blockingTurn dequeueBlocking
  split
  · exact ⟨held, ordered.wait consumer .blocking⟩
  · rename_i ready
    refine ⟨held.tail, ordered.took consumer .blocking rfl rfl fun nothing => ?_⟩
    have empty := ordered.holding.empty_of_take nothing
    refine ⟨empty, ?_⟩
    by_contra running
    exact ready ⟨empty, running⟩

/-- A timed dequeue that returns tells a timeout from a shutdown. -/
theorem Ordered.tookTimed {s : QueueRun C Item} {held : List Item} (ordered : s.Ordered held)
    (consumer : C) : (s.poll consumer).Ordered held.tail := by
  apply ordered.took consumer .timed rfl rfl
  intro nothing
  refine ⟨ordered.holding.empty_of_take nothing, ?_⟩
  simp [nothing]

theorem Ordered.timedTurn {s : QueueRun C Item} {held : List Item} (ordered : s.Ordered held)
    (consumer : C) (waitRc : Bool) : ∃ after, (s.timedTurn consumer waitRc).Ordered after := by
  unfold QueueRun.timedTurn dequeueTimed
  split
  · exact ⟨held, ordered.wait consumer .timed⟩
  · exact ⟨held.tail, ordered.tookTimed consumer⟩

theorem Ordered.enqueue {s : QueueRun C Item} {held : List Item} (ordered : s.Ordered held)
    (item : Option Item) : ∃ after, (s.step (.enqueue item)).Ordered after := by
  obtain ⟨conforms, holding⟩ := ordered.holding.enqueue item
  refine ⟨_, ?_, holding, ?_⟩
  · have before := ordered.conserved
    simp only [accepted, dequeued] at before
    simp only [step, accepted, dequeued, List.filterMap_append, before, List.append_assoc]
    congr 1
    by_cases success : (genericQueueEnqueue s.queue item).2 = 0 <;>
      cases item <;> simp [QueueReturn.accepted, QueueReturn.dequeued, success]
  · intro entry member
    rcases List.mem_append.mp member with old | new
    · exact ordered.conforms entry old
    · rw [List.mem_singleton.mp new]
      exact conforms

theorem Ordered.step {s : QueueRun C Item} {held : List Item} (ordered : s.Ordered held)
    (event : QueueEvent C Item) : ∃ after, (s.step event).Ordered after := by
  cases event with
  | enqueue item => exact ordered.enqueue item
  | dequeueBlocking consumer =>
    simp only [QueueRun.step]
    split
    · exact ordered.blockingTurn consumer
    · exact ⟨held, ordered⟩
  | dequeueTimed consumer timeoutMs =>
    simp only [QueueRun.step]
    split
    · split
      · exact ⟨held.tail, ordered.tookTimed consumer⟩
      · exact ordered.timedTurn consumer false
    · exact ⟨held, ordered⟩
  | wake consumer timedOut =>
    simp only [QueueRun.step]
    split
    · exact ⟨held, ordered⟩
    · exact ordered.blockingTurn consumer
    · exact ordered.timedTurn consumer timedOut
  | shutdown => exact ⟨held, ordered.conserved, ordered.holding.shutdown, ordered.conforms⟩

theorem Ordered.run {s : QueueRun C Item} {held : List Item} (ordered : s.Ordered held)
    (events : List (QueueEvent C Item)) : ∃ after, (events.foldl QueueRun.step s).Ordered after := by
  induction events generalizing s held with
  | nil => exact ⟨held, ordered⟩
  | cons event events ih =>
    obtain ⟨after, next⟩ := ordered.step event
    exact ih next

omit [DecidableEq C] in
theorem takeLocked_capacity (q : GenericQueue Item) : (takeLocked q).1.capacity = q.capacity := by
  unfold takeLocked
  split <;> rfl

theorem settle_capacity (s : QueueRun C Item) (consumer : C) (wait : QueueWait)
    (result : Option (GenericQueue Item × QueueReturn Item))
    (same : ∀ turn ∈ result, turn.1.capacity = s.queue.capacity) :
    (s.settle consumer wait result).queue.capacity = s.queue.capacity := by
  cases result with
  | none => rfl
  | some turn => exact same turn rfl

theorem turns_capacity (s : QueueRun C Item) (consumer : C) (waitRc : Bool) :
    (s.blockingTurn consumer).queue.capacity = s.queue.capacity ∧
      (s.timedTurn consumer waitRc).queue.capacity = s.queue.capacity ∧
      (s.poll consumer).queue.capacity = s.queue.capacity := by
  refine ⟨s.settle_capacity _ _ _ ?_, s.settle_capacity _ _ _ ?_, takeLocked_capacity s.queue⟩
  all_goals
    intro turn returned
    obtain ⟨taken, round, rfl⟩ := Option.map_eq_some_iff.mp returned
    simp only [dequeueBlocking, dequeueTimed, takeTimed, Option.ite_none_left_eq_some,
      Option.some_inj] at round
    rw [← round.2]
    exact takeLocked_capacity s.queue

theorem step_capacity (s : QueueRun C Item) (event : QueueEvent C Item) :
    (s.step event).queue.capacity = s.queue.capacity := by
  cases event with
  | enqueue item =>
    cases item with
    | none => rfl
    | some item =>
      simp only [QueueRun.step, genericQueueEnqueue]
      split <;> rfl
  | dequeueBlocking consumer =>
    simp only [QueueRun.step]
    split
    · exact (s.turns_capacity consumer false).1
    · rfl
  | dequeueTimed consumer timeoutMs =>
    simp only [QueueRun.step]
    split
    · split
      · exact (s.turns_capacity consumer false).2.2
      · exact (s.turns_capacity consumer false).2.1
    · rfl
  | wake consumer timedOut =>
    simp only [QueueRun.step]
    split
    · rfl
    · exact (s.turns_capacity consumer timedOut).1
    · exact (s.turns_capacity consumer timedOut).2.1
  | shutdown => rfl

theorem run_capacity (s : QueueRun C Item) (events : List (QueueEvent C Item)) :
    (events.foldl step s).queue.capacity = s.queue.capacity := by
  induction events generalizing s with
  | nil => rfl
  | cons event events ih => rw [List.foldl_cons, ih, step_capacity]

/-- In every interleaving of producers, consumers, wake-ups and shutdowns. -/
theorem queue_keeps_order (depth : Int) (ready : Bool) (q : GenericQueue Item)
    (created : genericQueueCreate depth ready = some q) (events : List (QueueEvent C Item)) :
    let s := events.foldl step (start q)
    s.dequeued <+: s.accepted ∧
      (∃ held, s.accepted = s.dequeued ++ held ∧ s.queue.Holding held) ∧
      s.queue.capacity = depth ∧ 0 ≤ s.queue.count ∧ s.queue.count ≤ s.queue.capacity ∧
      s.queue.tail = (s.queue.head + s.queue.count) % s.queue.capacity ∧
      ∀ entry ∈ s.returns, entry.2.Conforms entry.1 := by
  intro s
  obtain ⟨holding, capacity, -⟩ := genericQueueCreate_holding created
  obtain ⟨held, ordered⟩ := (start_ordered (C := C) holding).run events
  have bounds := ordered.holding.bounds
  have size : s.queue.capacity = depth := (run_capacity (start q) events).trans capacity
  exact ⟨⟨held, ordered.conserved.symm⟩, ⟨held, ordered.conserved, ordered.holding⟩, size,
    bounds.1, bounds.2, ordered.holding.tail, ordered.conforms⟩

def oneCell : GenericQueue Nat := ⟨[none], 1, 0, 0, 0, false⟩

/-- Two consumers wait; the timed one is served, and the shutdown ends the other's wait. -/
def twoConsumers : List (QueueEvent Bool Nat) :=
  [.dequeueBlocking false, .dequeueTimed true 50, .enqueue (some 7), .enqueue (some 8),
    .wake true true, .wake false false, .shutdown, .wake false false]

theorem queue_keeps_order_twoConsumers :
    (twoConsumers.foldl step (start oneCell)).dequeued <+:
      (twoConsumers.foldl step (start oneCell)).accepted :=
  (queue_keeps_order 1 true oneCell rfl twoConsumers).1

/-- An enqueue is accepted after the shutdown as before it. -/
theorem shut_queue_accepts :
    (([.shutdown, .enqueue (some 7)] : List (QueueEvent Bool Nat)).foldl step
      (start oneCell)).accepted = [7] ∧
    ∀ entry ∈ (([.shutdown, .enqueue (some 7)] : List (QueueEvent Bool Nat)).foldl step
      (start oneCell)).returns, entry.1.shuttingDown = true := by
  decide

end QueueRun

end OciWrapper.Infra
