import OciWrapper.Infra.GenericQueue
import Mathlib.Data.List.Nodup

namespace OciWrapper.Infra

open OciWrapper.Concurrent

variable {P R : Type}

structure SingleQueue (R : Type) where
  items : List (Option R)
  capacity : Int
  count : Int
  head : Int
  tail : Int

structure QueueManager (R : Type) where
  queues : List (SingleQueue R)
  queueCount : Int
  enqueueCursor : Int
  shuttingDown : Bool

def singleQueueIsFull (q : SingleQueue R) : Bool := q.count ≥ q.capacity

def singleQueueIsEmpty (q : SingleQueue R) : Bool := q.count = 0

def singleQueuePush (q : SingleQueue R) (req : R) : SingleQueue R × Int :=
  if singleQueueIsFull q then (q, -1)
  else
    ({ q with
        items := q.items.set q.tail.toNat (some req)
        tail := (q.tail + 1) % q.capacity
        count := q.count + 1 }, 0)

def singleQueuePop (q : SingleQueue R) : SingleQueue R × Option R :=
  if singleQueueIsEmpty q then (q, none)
  else
    ({ q with
        items := q.items.set q.head.toNat none
        head := (q.head + 1) % q.capacity
        count := q.count - 1 },
      q.items.getD q.head.toNat none)

/-- `ready` says that the allocations and the initialisations succeed. -/
def queueManagerCreate (queueCount queueDepth : Int) (ready : Bool) : Option (QueueManager R) :=
  if queueCount ≤ 0 ∨ queueDepth ≤ 0 then none
  else if ready then
    some ⟨List.replicate queueCount.toNat
      ⟨List.replicate queueDepth.toNat none, queueDepth, 0, 0, 0⟩, queueCount, 0, false⟩
  else none

def QueueManager.set (qm : QueueManager R) (idx : Nat) (q : SingleQueue R) : QueueManager R :=
  { qm with queues := qm.queues.set idx q }

/-- The queue that turn `i` of the scan comes to. -/
def QueueManager.turn (qm : QueueManager R) (start : Int) (i : Nat) : Nat :=
  ((start + i) % qm.queueCount).toNat

/-- What a turn of the scan does: the queue is the excluded one, it is full, or it
    takes the request. -/
inductive ScanTurn (R : Type) where
  | skipped
  | full
  | pushed (after : QueueManager R) (rc : Int)

def scanTurn (qm : QueueManager R) (req : R) (exclude start : Int) (i : Nat) : ScanTurn R :=
  if (qm.turn start i : Int) = exclude then .skipped
  else
    match qm.queues[qm.turn start i]? with
    | none => .skipped
    | some q =>
      if singleQueueIsFull q then .full
      else .pushed (qm.set (qm.turn start i) (singleQueuePush q req).1) (singleQueuePush q req).2

/-- The last `turns` turns of the loop, from `i` on. -/
def scanQueues (qm : QueueManager R) (req : R) (exclude start : Int) :
    Nat → Nat → QueueManager R × Int
  | 0, _ => (qm, -1)
  | turns + 1, i =>
    match scanTurn qm req exclude start i with
    | .pushed after rc => (after, rc)
    | .skipped | .full => scanQueues qm req exclude start turns (i + 1)

def QueueManager.advanceCursor (qm : QueueManager R) (seen : Int) : QueueManager R :=
  { qm with enqueueCursor := (seen + 1) % qm.queueCount }

def queueManagerEnqueueExcluding (qm : QueueManager R) (req : R) (exclude : Int) :
    QueueManager R × Int :=
  scanQueues (qm.advanceCursor qm.enqueueCursor) req exclude qm.enqueueCursor
    qm.queueCount.toNat 0

def queueManagerEnqueue (qm : QueueManager R) (req : R) : QueueManager R × Int :=
  queueManagerEnqueueExcluding qm req (-1)

def queueManagerEnqueueTo (qm : QueueManager R) (req : R) (queueIndex : Int) :
    QueueManager R × Int :=
  if queueIndex < 0 ∨ queueIndex ≥ qm.queueCount then (qm, -1)
  else
    match qm.queues[queueIndex.toNat]? with
    | none => (qm, -1)
    | some q =>
      if singleQueueIsFull q then (qm, -1)
      else (qm.set queueIndex.toNat (singleQueuePush q req).1, (singleQueuePush q req).2)

/-- One turn of `queue_manager_dequeue_blocking` under the queue's lock: it waits, or returns. -/
def queueManagerDequeueBlocking (qm : QueueManager R) (idx : Nat) :
    Option (QueueManager R × Option R) :=
  match qm.queues[idx]? with
  | none => none
  | some q =>
    if singleQueueIsEmpty q ∧ ¬ qm.shuttingDown then none
    else some (qm.set idx (singleQueuePop q).1, (singleQueuePop q).2)

/-- The flag is set under the lock of every queue in turn. -/
def queueManagerShutdown (qm : QueueManager R) : QueueManager R := { qm with shuttingDown := true }

namespace SingleQueue

/-- The ring of `generic_queue.c`. -/
def generic (q : SingleQueue R) : GenericQueue R :=
  ⟨q.items, q.capacity, q.count, q.head, q.tail, false⟩

/-- What the queue holds, the first to be dequeued in front. -/
def contents (q : SingleQueue R) : List R :=
  (List.range q.count.toNat).filterMap fun i =>
    q.items.getD ((q.head.toNat + i) % q.items.length) none

/-- The ring is sound, whatever it holds. -/
def Sound (q : SingleQueue R) : Prop := q.generic.Holding q.contents

variable {q : SingleQueue R} {held : List R}

theorem filterMap_range_getElem? (xs : List R) :
    (List.range xs.length).filterMap (fun i => xs[i]?) = xs := by
  induction xs with
  | nil => rfl
  | cons x xs ih =>
    rw [List.length_cons, List.range_succ_eq_map, List.filterMap_cons, List.filterMap_map]
    simpa using ih

theorem contents_of_holding (holding : q.generic.Holding held) : q.contents = held := by
  have count : q.count.toNat = held.length := by
    have counted : q.count = held.length := holding.count
    omega
  have cells : ∀ i ∈ List.range held.length,
      q.items.getD ((q.head.toNat + i) % q.items.length) none = held[i]? := by
    intro i inside
    have bound : i < (held.map Option.some).length := by simpa using inside
    have cell := holding.cells i bound
    simp only [generic, List.getElem?_map] at cell
    rw [List.getD_eq_getElem?_getD, cell]
    cases held[i]? <;> rfl
  rw [contents, count, List.filterMap_congr cells]
  exact filterMap_range_getElem? held

theorem sound_of_holding (holding : q.generic.Holding held) : q.Sound := by
  rw [Sound, contents_of_holding holding]
  exact holding

theorem Sound.full_iff (sound : q.Sound) :
    singleQueueIsFull q = true ↔ q.capacity ≤ q.contents.length := by
  have count : q.count = q.contents.length := sound.count
  simp [singleQueueIsFull, count]

theorem Sound.push (sound : q.Sound) (room : singleQueueIsFull q = false) (req : R) :
    (singleQueuePush q req).2 = 0 ∧ (singleQueuePush q req).1.Sound ∧
      (singleQueuePush q req).1.contents = q.contents ++ [req] := by
  have less : ¬ q.count ≥ q.capacity := by simpa [singleQueueIsFull] using room
  have rc : (genericQueueEnqueue q.generic (some req)).2 = 0 := by
    simp [genericQueueEnqueue, generic, less]
  have pushed := (GenericQueue.Holding.enqueue sound (some req)).2
  rw [rc, if_pos rfl] at pushed
  have same : (genericQueueEnqueue q.generic (some req)).1 = (singleQueuePush q req).1.generic := by
    simp [genericQueueEnqueue, singleQueuePush, generic, room, less]
  rw [same] at pushed
  refine ⟨by simp [singleQueuePush, room], sound_of_holding pushed, contents_of_holding pushed⟩

theorem Sound.empty_iff (sound : q.Sound) : singleQueueIsEmpty q = true ↔ q.contents = [] := by
  have count : q.count = q.contents.length := sound.count
  simp [singleQueueIsEmpty, count]

/-- A pop takes the first request, and fails only in an empty queue. -/
theorem Sound.pop (sound : q.Sound) :
    (singleQueuePop q).2 = q.contents.head? ∧ (singleQueuePop q).1.Sound ∧
      (singleQueuePop q).1.contents = q.contents.tail := by
  cases held : q.contents with
  | nil =>
    have empty := sound.empty_iff.mpr held
    simp [singleQueuePop, empty, sound, held]
  | cons first rest =>
    have filled : singleQueueIsEmpty q = false := by
      rw [Bool.eq_false_iff, ne_eq, sound.empty_iff, held]
      simp
    have holding : q.generic.Holding (first :: rest) := held ▸ sound
    obtain ⟨taken, after⟩ := holding.pop
    have same : (popLocked q.generic).1 = (singleQueuePop q).1.generic := by
      simp [popLocked, singleQueuePop, generic, filled]
    rw [same] at after
    refine ⟨?_, sound_of_holding after, contents_of_holding after⟩
    rw [List.head?_cons, ← taken]
    simp [popLocked, singleQueuePop, generic, filled]

end SingleQueue

namespace QueueManager

variable {qm : QueueManager R}

/-- What the queue at `idx` holds. -/
def contentsOf (qm : QueueManager R) (idx : Nat) : List R :=
  match qm.queues[idx]? with
  | some q => q.contents
  | none => []

structure Sound (qm : QueueManager R) : Prop where
  count : qm.queueCount = qm.queues.length
  some : 0 < qm.queues.length
  cursor : 0 ≤ qm.enqueueCursor ∧ qm.enqueueCursor < qm.queueCount
  queues : ∀ q ∈ qm.queues, q.Sound

theorem create_sound {queueCount queueDepth : Int} {ready : Bool}
    (created : queueManagerCreate queueCount queueDepth ready = some qm) :
    qm.Sound ∧ (∀ idx, qm.contentsOf idx = []) ∧ qm.shuttingDown = false := by
  unfold queueManagerCreate at created
  split at created
  · cases created
  · next positive =>
    split at created
    · cases created
      have empty : ∀ q ∈ List.replicate queueCount.toNat
          (⟨List.replicate queueDepth.toNat none, queueDepth, 0, 0, 0⟩ : SingleQueue R),
          q.generic.Holding [] := by
        intro q member
        obtain ⟨-, rfl⟩ := List.mem_replicate.mp member
        have generic := @genericQueueCreate_holding R queueDepth true _ (if_neg (by omega))
        exact generic.1
      refine ⟨⟨?_, ?_, ?_, fun q member => SingleQueue.sound_of_holding (empty q member)⟩, ?_, rfl⟩
      · simp only [List.length_replicate]
        omega
      · simp only [List.length_replicate]
        omega
      · simp only
        omega
      · intro idx
        unfold contentsOf
        split
        · next q found =>
          exact SingleQueue.contents_of_holding (empty q (List.mem_of_getElem? found))
        · rfl
    · cases created

theorem Sound.set (sound : qm.Sound) (idx : Nat) {q : SingleQueue R} (new : q.Sound) :
    (qm.set idx q).Sound := by
  refine ⟨?_, ?_, sound.cursor, fun other member => ?_⟩
  · simpa [QueueManager.set] using sound.count
  · simpa [QueueManager.set] using sound.some
  · rcases List.mem_or_eq_of_mem_set member with old | rfl
    · exact sound.queues other old
    · exact new

theorem Sound.advanceCursor (sound : qm.Sound) (seen : Int) : (qm.advanceCursor seen).Sound := by
  have some := sound.some
  have count := sound.count
  refine ⟨sound.count, sound.some, ?_, sound.queues⟩
  exact ⟨Int.emod_nonneg _ (by omega), Int.emod_lt_of_pos _ (by omega)⟩

theorem contentsOf_set {idx : Nat} {before : SingleQueue R} (found : qm.queues[idx]? = some before)
    (q : SingleQueue R) (other : Nat) :
    (qm.set idx q).contentsOf other = if idx = other then q.contents else qm.contentsOf other := by
  obtain ⟨bound, -⟩ := List.getElem?_eq_some_iff.mp found
  unfold contentsOf QueueManager.set
  by_cases same : idx = other
  · subst same
    simp [bound]
  · simp [List.getElem?_set_ne same, same]

theorem contentsOf_found {idx : Nat} {q : SingleQueue R} (found : qm.queues[idx]? = some q) :
    qm.contentsOf idx = q.contents := by
  simp [contentsOf, found]

theorem Sound.turn_lt (sound : qm.Sound) (start : Int) (i : Nat) :
    qm.turn start i < qm.queues.length := by
  have some := sound.some
  have count := sound.count
  have low := Int.emod_nonneg (start + i) (b := qm.queueCount) (by omega)
  have high := Int.emod_lt_of_pos (start + i) (b := qm.queueCount) (by omega)
  unfold turn
  omega

/-- The turns of one scan reach every queue. -/
theorem Sound.turn_surjective (sound : qm.Sound) (start : Int) {idx : Nat}
    (inside : idx < qm.queues.length) :
    ∃ i, i < qm.queueCount.toNat ∧ qm.turn start i = idx := by
  have count := sound.count
  have low := Int.emod_nonneg ((idx : Int) - start) (b := qm.queueCount) (by omega)
  have high := Int.emod_lt_of_pos ((idx : Int) - start) (b := qm.queueCount) (by omega)
  refine ⟨(((idx : Int) - start) % qm.queueCount).toNat, by omega, ?_⟩
  have back : (start + ((idx : Int) - start) % qm.queueCount) % qm.queueCount = idx := by
    rw [Int.add_emod_emod, add_sub_cancel]
    exact Int.emod_eq_of_lt (by omega) (by omega)
  rw [turn, Int.toNat_of_nonneg low, back, Int.toNat_natCast]

/-- A turn of the scan passes the excluded queue or a full one by, or puts the request
    behind what the queue holds. -/
theorem Sound.scanTurn_cases (sound : qm.Sound) (req : R) (exclude start : Int) (i : Nat) :
    (qm.turn start i : Int) = exclude ∧ scanTurn qm req exclude start i = .skipped ∨
      ∃ q, qm.queues[qm.turn start i]? = Option.some q ∧ (qm.turn start i : Int) ≠ exclude ∧
        (singleQueueIsFull q = true ∧ scanTurn qm req exclude start i = .full ∨
          singleQueueIsFull q = false ∧ scanTurn qm req exclude start i =
            .pushed (qm.set (qm.turn start i) (singleQueuePush q req).1) 0) := by
  unfold scanTurn
  split
  · next same => exact Or.inl ⟨same, rfl⟩
  · next other =>
    right
    obtain ⟨q, found⟩ : ∃ q, qm.queues[qm.turn start i]? = Option.some q :=
      ⟨_, List.getElem?_eq_getElem (sound.turn_lt start i)⟩
    refine ⟨q, found, other, ?_⟩
    rw [found]
    have queue := sound.queues q (List.mem_of_getElem? found)
    cases room : singleQueueIsFull q with
    | true => exact Or.inl ⟨rfl, by simp [room]⟩
    | false => exact Or.inr ⟨rfl, by simp [room, (queue.push room req).1]⟩

/-- A scan takes the request exactly if one of its turns comes to another queue with room. -/
theorem Sound.scanQueues_accepts (sound : qm.Sound) (req : R) (exclude start : Int)
    (turns i : Nat) :
    (scanQueues qm req exclude start turns i).2 = 0 ↔
      ∃ j, i ≤ j ∧ j < i + turns ∧ (qm.turn start j : Int) ≠ exclude ∧
        ∃ q, qm.queues[qm.turn start j]? = Option.some q ∧ singleQueueIsFull q = false := by
  induction turns generalizing i with
  | zero =>
    refine iff_of_false (by simp [scanQueues]) ?_
    rintro ⟨j, low, high, -⟩
    omega
  | succ turns ih =>
    have later : (∀ q, qm.queues[qm.turn start i]? = Option.some q →
        (qm.turn start i : Int) = exclude ∨ singleQueueIsFull q = true) →
        ((scanQueues qm req exclude start turns (i + 1)).2 = 0 ↔
          ∃ j, i ≤ j ∧ j < i + (turns + 1) ∧ (qm.turn start j : Int) ≠ exclude ∧
            ∃ q, qm.queues[qm.turn start j]? = Option.some q ∧ singleQueueIsFull q = false) := by
      intro passed
      rw [ih]
      constructor
      · rintro ⟨j, low, high, found⟩
        exact ⟨j, by omega, by omega, found⟩
      · rintro ⟨j, low, high, other, q, found, room⟩
        have further : j ≠ i := by
          rintro rfl
          rcases passed q found with same | full
          · exact other same
          · rw [room] at full
            contradiction
        exact ⟨j, by omega, by omega, other, q, found, room⟩
    rcases sound.scanTurn_cases req exclude start i with
      ⟨same, skipped⟩ | ⟨q, found, other, ⟨full, turned⟩ | ⟨room, turned⟩⟩
    · simp only [scanQueues, skipped]
      exact later fun _ _ => Or.inl same
    · simp only [scanQueues, turned]
      refine later fun passed at_turn => Or.inr ?_
      rw [found] at at_turn
      cases at_turn
      exact full
    · simp only [scanQueues, turned, true_iff]
      exact ⟨i, le_refl i, by omega, other, q, found, room⟩

/-- A whole call accepts a request exactly if a queue other than the excluded one has room. -/
theorem Sound.enqueueExcluding_accepts (sound : qm.Sound) (req : R) (exclude : Int) :
    (queueManagerEnqueueExcluding qm req exclude).2 = 0 ↔
      ∃ (idx : Nat) (q : SingleQueue R), qm.queues[idx]? = Option.some q ∧ (idx : Int) ≠ exclude ∧
        q.count < q.capacity := by
  have advanced := sound.advanceCursor qm.enqueueCursor
  rw [queueManagerEnqueueExcluding, advanced.scanQueues_accepts]
  constructor
  · rintro ⟨j, -, -, other, q, found, room⟩
    exact ⟨_, q, found, other, by simpa [singleQueueIsFull] using room⟩
  · rintro ⟨idx, q, found, other, room⟩
    obtain ⟨bound, -⟩ := List.getElem?_eq_some_iff.mp found
    obtain ⟨j, inside, rfl⟩ := advanced.turn_surjective qm.enqueueCursor bound
    refine ⟨j, Nat.zero_le j, ?_, other, q, found, by simpa [singleQueueIsFull] using room⟩
    rw [Nat.zero_add]
    exact inside

end QueueManager

structure Accepted (R : Type) where
  queue : Nat
  req : R
  exclude : Int

/-- A refused request, with the queues that the call found full. -/
structure Rejected where
  exclude : Int
  full : List Nat

/-- Where a producer stands in `queue_manager_enqueue_excluding`: the cursor is read
    for the start, read again, written, and the queues are tried one by one. -/
inductive Enqueuing (R : Type) where
  | idle
  | started (req : R) (exclude start : Int)
  | advancing (req : R) (exclude start seen : Int)
  | scanning (req : R) (exclude start : Int) (i : Nat) (full : List Nat)

structure QueuesRun (P R : Type) where
  manager : QueueManager R
  producers : P → Enqueuing R
  accepted : List (Accepted R)
  dequeued : List (Nat × R)
  rejected : List Rejected

/-- The steps of the producers and of the workers, each under at most one queue's lock. -/
inductive QueuesEvent (P R : Type) where
  | enqueueExcluding (producer : P) (req : R) (exclude : Int)
  | proceed (producer : P)
  | enqueueTo (req : R) (queueIndex : Int)
  | dequeue (idx : Nat)
  | shutdown

namespace QueuesRun

def start (qm : QueueManager R) : QueuesRun P R := ⟨qm, fun _ => .idle, [], [], []⟩

def acceptedIn (s : QueuesRun P R) (idx : Nat) : List R :=
  (s.accepted.filter (·.queue = idx)).map (·.req)

def dequeuedFrom (s : QueuesRun P R) (idx : Nat) : List R :=
  (s.dequeued.filter (·.1 = idx)).map (·.2)

variable [DecidableEq P]

def move (s : QueuesRun P R) (producer : P) (next : Enqueuing R) : QueuesRun P R :=
  { s with producers := Function.update s.producers producer next }

/-- A call returned `rc` with the queues as `after` has them. -/
def accept (s : QueuesRun P R) (after : QueueManager R) (entry : Accepted R) (rc : Int) :
    QueuesRun P R :=
  { s with manager := after, accepted := s.accepted ++ if rc = 0 then [entry] else [] }

def scan (s : QueuesRun P R) (producer : P) (req : R) (exclude start : Int) (i : Nat)
    (full : List Nat) : QueuesRun P R :=
  if i < s.manager.queueCount.toNat then
    match scanTurn s.manager req exclude start i with
    | .skipped => s.move producer (.scanning req exclude start (i + 1) full)
    | .full =>
      s.move producer (.scanning req exclude start (i + 1) (s.manager.turn start i :: full))
    | .pushed after rc =>
      (s.accept after ⟨s.manager.turn start i, req, exclude⟩ rc).move producer .idle
  else { s.move producer .idle with rejected := s.rejected ++ [⟨exclude, full⟩] }

def proceed (s : QueuesRun P R) (producer : P) : QueuesRun P R :=
  match s.producers producer with
  | .idle => s
  | .started req exclude start =>
    s.move producer (.advancing req exclude start s.manager.enqueueCursor)
  | .advancing req exclude start seen =>
    { s.move producer (.scanning req exclude start 0 []) with
        manager := s.manager.advanceCursor seen }
  | .scanning req exclude start i full => s.scan producer req exclude start i full

def enqueueExcluding (s : QueuesRun P R) (producer : P) (req : R) (exclude : Int) :
    QueuesRun P R :=
  match s.producers producer with
  | .idle => s.move producer (.started req exclude s.manager.enqueueCursor)
  | _ => s

def dequeue (s : QueuesRun P R) (idx : Nat) : QueuesRun P R :=
  match queueManagerDequeueBlocking s.manager idx with
  | none => s
  | some (after, req) =>
    { s with manager := after, dequeued := s.dequeued ++ (req.map (idx, ·)).toList }

def step (s : QueuesRun P R) : QueuesEvent P R → QueuesRun P R
  | .enqueueExcluding producer req exclude => s.enqueueExcluding producer req exclude
  | .proceed producer => s.proceed producer
  | .enqueueTo req queueIndex =>
    let (after, rc) := queueManagerEnqueueTo s.manager req queueIndex
    s.accept after ⟨queueIndex.toNat, req, -1⟩ rc
  | .dequeue idx => s.dequeue idx
  | .shutdown => { s with manager := queueManagerShutdown s.manager }

/-- A scan has passed only the excluded queue and queues that it found full. -/
def Passed (qm : QueueManager R) : Enqueuing R → Prop
  | .scanning _ exclude start i full =>
    ∀ j, j < i → (qm.turn start j : Int) = exclude ∨ qm.turn start j ∈ full
  | _ => True

/-- Every queue holds what was accepted in it and not dequeued yet, in order. -/
structure Kept (s : QueuesRun P R) : Prop where
  sound : s.manager.Sound
  conserved : ∀ idx, s.acceptedIn idx = s.dequeuedFrom idx ++ s.manager.contentsOf idx
  placed : ∀ entry ∈ s.accepted,
    entry.queue < s.manager.queues.length ∧ (entry.queue : Int) ≠ entry.exclude
  passed : ∀ producer, Passed s.manager (s.producers producer)
  refused : ∀ entry ∈ s.rejected, ∀ idx : Nat, idx < s.manager.queues.length →
    (idx : Int) ≠ entry.exclude → idx ∈ entry.full

variable {s : QueuesRun P R}

omit [DecidableEq P] in
theorem start_kept {qm : QueueManager R} (sound : qm.Sound) (empty : ∀ idx, qm.contentsOf idx = []) :
    (start qm : QueuesRun P R).Kept := by
  refine ⟨sound, fun idx => ?_, fun entry member => ?_, fun _ => trivial, fun entry member => ?_⟩
  · simp [acceptedIn, dequeuedFrom, start, empty]
  · cases member
  · cases member

theorem Passed.same {qm after : QueueManager R} (same : after.queueCount = qm.queueCount)
    {phase : Enqueuing R} (passed : Passed qm phase) : Passed after phase := by
  cases phase with
  | scanning req exclude start i full =>
    intro j before
    have turn : after.turn start j = qm.turn start j := by
      rw [QueueManager.turn, QueueManager.turn, same]
    rw [turn]
    exact passed j before
  | _ => trivial

theorem Kept.move (kept : s.Kept) (producer : P) {next : Enqueuing R}
    (passed : Passed s.manager next) : (s.move producer next).Kept := by
  refine ⟨kept.sound, kept.conserved, kept.placed, fun other => ?_, kept.refused⟩
  by_cases same : other = producer
  · subst same
    simpa [QueuesRun.move] using passed
  · simpa [QueuesRun.move, Function.update_of_ne same] using kept.passed other

omit [DecidableEq P] in
/-- A request is put behind what its queue holds. -/
theorem Kept.accept (kept : s.Kept) {idx : Nat} {q : SingleQueue R} (req : R) {exclude : Int}
    (found : s.manager.queues[idx]? = some q) (room : singleQueueIsFull q = false)
    (other : (idx : Int) ≠ exclude) :
    (s.accept (s.manager.set idx (singleQueuePush q req).1) ⟨idx, req, exclude⟩ 0).Kept := by
  obtain ⟨bound, -⟩ := List.getElem?_eq_some_iff.mp found
  have pushed := (kept.sound.queues q (List.mem_of_getElem? found)).push room req
  have length : (s.manager.set idx (singleQueuePush q req).1).queues.length =
      s.manager.queues.length := List.length_set
  refine ⟨kept.sound.set idx pushed.2.1, fun at_idx => ?_, fun entry member => ?_,
    fun producer => (kept.passed producer).same rfl, fun entry member at_idx inside => ?_⟩
  · have before := kept.conserved at_idx
    rw [acceptedIn, dequeuedFrom] at before
    simp only [acceptedIn, dequeuedFrom, QueuesRun.accept, if_true, List.filter_append,
      List.map_append, before, QueueManager.contentsOf_set found]
    by_cases same : idx = at_idx
    · subst same
      simp [pushed.2.2, QueueManager.contentsOf_found found]
    · simp [same]
  · simp only [QueuesRun.accept, if_true, List.mem_append, List.mem_singleton] at member
    rw [QueuesRun.accept, length]
    rcases member with old | rfl
    · exact kept.placed entry old
    · exact ⟨bound, other⟩
  · rw [QueuesRun.accept, length] at inside
    exact kept.refused entry member at_idx inside

theorem Kept.scan (kept : s.Kept) (producer : P) (req : R) (exclude start : Int) (i : Nat)
    (full : List Nat) (passed : Passed s.manager (.scanning req exclude start i full)) :
    (s.scan producer req exclude start i full).Kept := by
  unfold QueuesRun.scan
  split
  · rcases kept.sound.scanTurn_cases req exclude start i with
      ⟨same, skipped⟩ | ⟨q, found, other, ⟨full, turned⟩ | ⟨room, turned⟩⟩
    · simp only [skipped]
      refine kept.move producer fun j before => ?_
      by_cases now : j = i
      · rw [now]
        exact Or.inl same
      · exact passed j (by omega)
    · simp only [turned]
      refine kept.move producer fun j before => ?_
      by_cases now : j = i
      · rw [now]
        exact Or.inr (List.mem_cons_self ..)
      · exact (passed j (by omega)).imp_right (List.mem_cons_of_mem _)
    · simp only [turned]
      exact (kept.accept req found room other).move producer trivial
  · next finished =>
    have idle : (s.move producer .idle).Kept := kept.move producer trivial
    refine ⟨idle.sound, idle.conserved, idle.placed, idle.passed, fun entry member => ?_⟩
    rcases List.mem_append.mp member with old | new
    · exact kept.refused entry old
    · obtain rfl := List.mem_singleton.mp new
      intro idx inside other
      obtain ⟨j, before, rfl⟩ := kept.sound.turn_surjective start inside
      exact (passed j (by omega)).resolve_left other

theorem Kept.proceed (kept : s.Kept) (producer : P) : (s.proceed producer).Kept := by
  have passed := kept.passed producer
  unfold QueuesRun.proceed
  split
  · exact kept
  · exact kept.move producer trivial
  · next req exclude start seen _ =>
    have scans : (s.move producer (.scanning req exclude start 0 [])).Kept :=
      kept.move producer fun j before => absurd before (Nat.not_lt_zero j)
    exact ⟨scans.sound.advanceCursor seen, scans.conserved, scans.placed,
      fun other => (scans.passed other).same rfl, scans.refused⟩
  · next req exclude start i full phase =>
    rw [phase] at passed
    exact kept.scan producer req exclude start i full passed

omit [DecidableEq P] in
theorem Kept.enqueueTo (kept : s.Kept) (req : R) (queueIndex : Int) :
    (s.accept (queueManagerEnqueueTo s.manager req queueIndex).1 ⟨queueIndex.toNat, req, -1⟩
      (queueManagerEnqueueTo s.manager req queueIndex).2).Kept := by
  have refused : (s.accept s.manager ⟨queueIndex.toNat, req, -1⟩ (-1)).Kept := by
    simpa [QueuesRun.accept] using kept
  unfold queueManagerEnqueueTo
  split
  · exact refused
  · split
    · exact refused
    · next q found =>
      cases room : singleQueueIsFull q with
      | true => exact refused
      | false =>
        have pushed := (kept.sound.queues q (List.mem_of_getElem? found)).push room req
        simp only [Bool.false_eq_true, if_false, pushed.1]
        exact kept.accept req found room (by omega)

omit [DecidableEq P] in
/-- A dequeue that returns gives the first request of its queue, and NULL only after a
    shutdown when the queue is empty. -/
theorem Kept.dequeueBlocking (kept : s.Kept) {idx : Nat} {after : QueueManager R} {req : Option R}
    (returned : queueManagerDequeueBlocking s.manager idx = some (after, req)) :
    req = (s.manager.contentsOf idx).head? ∧ after.Sound ∧
      (after.queueCount = s.manager.queueCount ∧
        after.queues.length = s.manager.queues.length) ∧
      (∀ other, after.contentsOf other =
        if idx = other then (s.manager.contentsOf idx).tail else s.manager.contentsOf other) ∧
      (req = none → s.manager.shuttingDown = true) := by
  unfold queueManagerDequeueBlocking at returned
  split at returned
  · cases returned
  · next q found =>
    split at returned
    · cases returned
    · next ready =>
      cases returned
      have sound := kept.sound.queues q (List.mem_of_getElem? found)
      obtain ⟨first, rest, contents⟩ := sound.pop
      refine ⟨?_, kept.sound.set idx rest, ⟨rfl, List.length_set⟩, fun other => ?_, fun empty => ?_⟩
      · rw [first, QueueManager.contentsOf_found found]
      · rw [QueueManager.contentsOf_set found, contents, QueueManager.contentsOf_found found]
      · rw [first, List.head?_eq_none_iff, ← sound.empty_iff] at empty
        simpa [empty] using ready

omit [DecidableEq P] in
theorem Kept.dequeue (kept : s.Kept) (idx : Nat) : (s.dequeue idx).Kept := by
  unfold QueuesRun.dequeue
  split
  · exact kept
  · next after req returned =>
    obtain ⟨first, sound, ⟨queueCount, length⟩, contents, -⟩ := kept.dequeueBlocking returned
    refine ⟨sound, fun other => ?_, fun entry member => ?_,
      fun producer => (kept.passed producer).same queueCount, fun entry member other inside => ?_⟩
    · have before := kept.conserved other
      simp only [acceptedIn, dequeuedFrom, List.filter_append, List.map_append] at before ⊢
      rw [before, contents, List.append_assoc]
      congr 1
      by_cases same : idx = other
      · subst same
        cases held : s.manager.contentsOf idx with
        | nil => simp [first, held]
        | cons next rest => simp [first, held]
      · cases req <;> simp [same]
    · rw [length]
      exact kept.placed entry member
    · rw [length] at inside
      exact kept.refused entry member other inside

theorem Kept.step (kept : s.Kept) (event : QueuesEvent P R) : (s.step event).Kept := by
  cases event with
  | enqueueExcluding producer req exclude =>
    simp only [QueuesRun.step, QueuesRun.enqueueExcluding]
    split
    · exact kept.move producer trivial
    · exact kept
  | proceed producer => exact kept.proceed producer
  | enqueueTo req queueIndex => exact kept.enqueueTo req queueIndex
  | dequeue idx => exact kept.dequeue idx
  | shutdown =>
    exact ⟨⟨kept.sound.count, kept.sound.some, kept.sound.cursor, kept.sound.queues⟩,
      kept.conserved, kept.placed, kept.passed, kept.refused⟩

theorem Kept.run (kept : s.Kept) (events : List (QueuesEvent P R)) :
    (events.foldl QueuesRun.step s).Kept := by
  induction events generalizing s with
  | nil => exact kept
  | cons event events ih => exact ih (kept.step event)

/-- What holds in every state of the queues: a request once accepted is in its queue
    or has been dequeued from it, once, and in order. -/
structure KeepsRequests (s : QueuesRun P R) : Prop where
  conserved : ∀ idx, s.acceptedIn idx = s.dequeuedFrom idx ++ s.manager.contentsOf idx
  inOneQueue : (s.accepted.map (·.req)).Nodup → ∀ entry ∈ s.accepted,
    entry.req ∈ s.dequeuedFrom entry.queue ++ s.manager.contentsOf entry.queue ∧
      (s.dequeuedFrom entry.queue ++ s.manager.contentsOf entry.queue).Nodup ∧
      ∀ idx, idx ≠ entry.queue →
        entry.req ∉ s.dequeuedFrom idx ++ s.manager.contentsOf idx
  excluded : ∀ entry ∈ s.accepted,
    entry.queue < s.manager.queues.length ∧ (entry.queue : Int) ≠ entry.exclude
  refused : ∀ entry ∈ s.rejected, ∀ idx : Nat, idx < s.manager.queues.length →
    (idx : Int) ≠ entry.exclude → idx ∈ entry.full
  accepts : ∀ req exclude, (queueManagerEnqueueExcluding s.manager req exclude).2 = 0 ↔
    ∃ (idx : Nat) (q : SingleQueue R), s.manager.queues[idx]? = some q ∧ (idx : Int) ≠ exclude ∧
      q.count < q.capacity
  dequeues : ∀ idx after req, queueManagerDequeueBlocking s.manager idx = some (after, some req) →
    s.manager.contentsOf idx = req :: after.contentsOf idx
  awake : ∀ idx, idx < s.manager.queues.length →
    s.manager.shuttingDown = true ∨ s.manager.contentsOf idx ≠ [] →
      (queueManagerDequeueBlocking s.manager idx).isSome = true
  drained : ∀ idx after, queueManagerDequeueBlocking s.manager idx = some (after, none) →
    s.manager.shuttingDown = true ∧ s.acceptedIn idx = s.dequeuedFrom idx

omit [DecidableEq P] in
theorem mem_acceptedIn {idx : Nat} {req : R} :
    req ∈ s.acceptedIn idx ↔ ∃ entry ∈ s.accepted, entry.queue = idx ∧ entry.req = req := by
  simp [acceptedIn, and_assoc]

omit [DecidableEq P] in
theorem Kept.inOneQueue (kept : s.Kept) (distinct : (s.accepted.map (·.req)).Nodup)
    {entry : Accepted R} (member : entry ∈ s.accepted) :
    entry.req ∈ s.dequeuedFrom entry.queue ++ s.manager.contentsOf entry.queue ∧
      (s.dequeuedFrom entry.queue ++ s.manager.contentsOf entry.queue).Nodup ∧
      ∀ idx, idx ≠ entry.queue →
        entry.req ∉ s.dequeuedFrom idx ++ s.manager.contentsOf idx := by
  rw [← kept.conserved]
  refine ⟨mem_acceptedIn.mpr ⟨entry, member, rfl, rfl⟩, ?_, fun idx different other => ?_⟩
  · exact List.Nodup.sublist (List.filter_sublist.map _) distinct
  · rw [← kept.conserved, mem_acceptedIn] at other
    obtain ⟨twin, among, rfl, same⟩ := other
    exact different (congrArg Accepted.queue (List.inj_on_of_nodup_map distinct among member same))

omit [DecidableEq P] in
theorem Kept.awake (kept : s.Kept) {idx : Nat} (inside : idx < s.manager.queues.length)
    (ready : s.manager.shuttingDown = true ∨ s.manager.contentsOf idx ≠ []) :
    (queueManagerDequeueBlocking s.manager idx).isSome = true := by
  obtain ⟨q, found⟩ : ∃ q, s.manager.queues[idx]? = some q :=
    ⟨_, List.getElem?_eq_getElem inside⟩
  have sound := kept.sound.queues q (List.mem_of_getElem? found)
  rw [QueueManager.contentsOf_found found, ne_eq, ← sound.empty_iff] at ready
  simp only [queueManagerDequeueBlocking, found]
  rw [if_neg (by grind)]
  rfl

omit [DecidableEq P] in
theorem Kept.keepsRequests (kept : s.Kept) : s.KeepsRequests := by
  refine ⟨kept.conserved, fun distinct entry member => kept.inOneQueue distinct member,
    kept.placed, kept.refused, kept.sound.enqueueExcluding_accepts, fun idx after req returned => ?_,
    fun idx inside ready => kept.awake inside ready, fun idx after returned => ?_⟩
  · obtain ⟨first, -, -, contents, -⟩ := kept.dequeueBlocking returned
    rw [contents, if_pos rfl]
    exact (List.cons_head?_tail first.symm).symm
  · obtain ⟨first, -, -, -, stopping⟩ := kept.dequeueBlocking returned
    refine ⟨stopping rfl, ?_⟩
    rw [kept.conserved, List.head?_eq_none_iff.mp first.symm, List.append_nil]

/-- A call that nothing interrupts does what `queue_manager_enqueue_excluding` does. -/
theorem scan_alone (producer : P) (req : R) (exclude start : Int) (turns : Nat) :
    ∀ (s : QueuesRun P R) (i : Nat) (full : List Nat),
      i + turns = s.manager.queueCount.toNat →
      s.producers producer = .scanning req exclude start i full →
      ∃ steps, ((List.replicate steps (.proceed producer)).foldl QueuesRun.step s).manager =
          (scanQueues s.manager req exclude start turns i).1 ∧
        ((List.replicate steps (.proceed producer)).foldl QueuesRun.step s).producers producer =
          .idle := by
  induction turns with
  | zero =>
    intro s i full last phase
    refine ⟨1, ?_⟩
    simp [QueuesRun.step, QueuesRun.proceed, phase, QueuesRun.scan, scanQueues, QueuesRun.move,
      show ¬ i < s.manager.queueCount.toNat by omega]
  | succ turns ih =>
    intro s i full left phase
    have inside : i < s.manager.queueCount.toNat := by omega
    cases turned : scanTurn s.manager req exclude start i with
    | skipped =>
      obtain ⟨steps, done⟩ := ih (s.move producer (.scanning req exclude start (i + 1) full))
        (i + 1) full (by simp only [QueuesRun.move]; omega) (by simp [QueuesRun.move])
      refine ⟨steps + 1, ?_⟩
      simpa [List.replicate_succ, QueuesRun.step, QueuesRun.proceed, phase, QueuesRun.scan, inside,
        turned, scanQueues, QueuesRun.move] using done
    | full =>
      obtain ⟨steps, done⟩ := ih
        (s.move producer (.scanning req exclude start (i + 1) (s.manager.turn start i :: full)))
        (i + 1) (s.manager.turn start i :: full) (by simp only [QueuesRun.move]; omega)
        (by simp [QueuesRun.move])
      refine ⟨steps + 1, ?_⟩
      simpa [List.replicate_succ, QueuesRun.step, QueuesRun.proceed, phase, QueuesRun.scan, inside,
        turned, scanQueues, QueuesRun.move] using done
    | pushed after rc =>
      refine ⟨1, ?_⟩
      simp [QueuesRun.step, QueuesRun.proceed, phase, QueuesRun.scan, inside, turned, scanQueues,
        QueuesRun.move, QueuesRun.accept]

theorem enqueue_alone (s : QueuesRun P R) {producer : P} (idle : s.producers producer = .idle)
    (req : R) (exclude : Int) :
    ∃ steps, ((List.replicate steps (.proceed producer)).foldl QueuesRun.step
        (s.step (.enqueueExcluding producer req exclude))).manager =
      (queueManagerEnqueueExcluding s.manager req exclude).1 := by
  let scanning : QueuesRun P R :=
    { s.move producer (.scanning req exclude s.manager.enqueueCursor 0 []) with
        manager := s.manager.advanceCursor s.manager.enqueueCursor }
  obtain ⟨steps, done, -⟩ := scan_alone producer req exclude s.manager.enqueueCursor
    s.manager.queueCount.toNat scanning 0 [] (Nat.zero_add _) (by simp [scanning, QueuesRun.move])
  refine ⟨steps + 2, ?_⟩
  rw [queueManagerEnqueueExcluding, ← done]
  simp [List.replicate_succ, QueuesRun.step, QueuesRun.enqueueExcluding, idle, QueuesRun.proceed,
    QueuesRun.move, scanning]

/-- In every interleaving of producers, workers and shutdowns. -/
theorem requests_are_kept (queueCount queueDepth : Int) (ready : Bool) (qm : QueueManager R)
    (created : queueManagerCreate queueCount queueDepth ready = some qm)
    (events : List (QueuesEvent P R)) :
    (events.foldl step (start qm)).KeepsRequests := by
  obtain ⟨sound, empty, -⟩ := QueueManager.create_sound created
  exact ((start_kept (P := P) sound empty).run events).keepsRequests

def twoQueues : QueueManager Nat :=
  ⟨[⟨[none], 1, 0, 0, 0⟩, ⟨[none], 1, 0, 0, 0⟩], 2, 0, false⟩

/-- Two producers exclude the first queue; the second of them finds the other one full. -/
def twoProducers : List (QueuesEvent Bool Nat) :=
  [.enqueueExcluding false 7 0, .enqueueExcluding true 8 0, .proceed false, .proceed true,
    .proceed false, .proceed true, .proceed false, .proceed true, .proceed false, .proceed true,
    .proceed true, .shutdown, .dequeue 1, .dequeue 1]

theorem requests_are_kept_twoProducers :
    (twoProducers.foldl step (start twoQueues)).KeepsRequests :=
  requests_are_kept 2 1 true twoQueues rfl twoProducers

end QueuesRun

end OciWrapper.Infra
