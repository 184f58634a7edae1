import OciWrapper.Infra.GenericQueue

namespace OciWrapper.Infra

open scoped List

variable {P M : Type}

def metricsQueueDepth : Int := 2000

/-- A record that comes to a destination, with what its queue was like then. -/
structure Offer (M : Type) where
  record : M
  copied : Bool
  count : Int
  shut : Bool
  accepted : Bool

/-- A destination's queue, the records offered to it, and those that its thread took. -/
structure Destination (M : Type) where
  queue : GenericQueue M
  offers : List (Offer M)
  taken : List M

namespace Destination

def accepted (d : Destination M) : List M := (d.offers.filter (·.accepted)).map (·.record)

/-- What was accepted before the shutdown. -/
def early (d : Destination M) : List M :=
  (d.offers.filter fun o => o.accepted && !o.shut).map (·.record)

/-- One destination's part of `metrics_finalise_and_enqueue`; a copy that failed is NULL. -/
def offer (d : Destination M) (m : M) (copied : Bool) : Destination M :=
  let (queue, rc) := genericQueueEnqueue d.queue (if copied then some m else none)
  { d with
    queue
    offers := d.offers ++ [⟨m, copied, d.queue.count, d.queue.shuttingDown, rc = 0⟩] }

def took (d : Destination M) (queue : GenericQueue M) (item : Option M) : Destination M :=
  { d with queue, taken := d.taken ++ item.toList }

def shutdown (d : Destination M) : Destination M := { d with queue := genericQueueShutdown d.queue }

/-- What was taken, and then what the queue holds, is what was accepted. A record is dropped only
when its copy failed or the queue was full. -/
structure Sound (d : Destination M) (held : List M) : Prop where
  holding : d.queue.Holding held
  depth : d.queue.capacity = metricsQueueDepth
  conserved : d.accepted = d.taken ++ held
  conforms : ∀ o ∈ d.offers, o.accepted = true ↔ o.copied = true ∧ o.count < metricsQueueDepth
  front : d.early <+: d.accepted
  running : d.queue.shuttingDown = false → d.early = d.accepted

end Destination

structure Timespec where
  sec : Int
  nsec : Int

def elapsedMs (start now : Timespec) : Int :=
  (now.sec - start.sec) * 1000 + (now.nsec - start.nsec).tdiv 1000000

structure DbWriterArgs where
  perWrite : Int
  maxDelayMs : Int

def dbWriterArgs (metricsPerWrite metricsMaxInsertDelayMs : Int) : DbWriterArgs where
  perWrite := if metricsPerWrite > 0 then metricsPerWrite else 100
  maxDelayMs := if metricsMaxInsertDelayMs > 0 then metricsMaxInsertDelayMs else 5000

/-- Why the inner loop of `db_writer_thread_main` ends. -/
inductive FlushCause where
  | full
  | deadline (elapsed : Int)
  | timedOut
  | shutdown
  deriving DecidableEq

/-- What the driver does with a batch: whether the insert could be built, whether the row at each
place goes in, and whether the commit and the rollback succeed. -/
structure FlushOutcome where
  prepared : Bool
  insertOk : Nat → Bool
  commitOk : Bool
  rollbackOk : Bool

structure Flush (M : Type) where
  batch : List M
  cause : FlushCause
  outcome : FlushOutcome

/-- The rows of the loop of `metrics_db_bulk_insert` that go in, from the `i`-th on. -/
def insertRows (insertOk : Nat → Bool) : Nat → List M → List M
  | _, [] => []
  | i, m :: batch =>
    if insertOk i then m :: insertRows insertOk (i + 1) batch else insertRows insertOk (i + 1) batch

namespace Flush

def inserted (f : Flush M) : List M :=
  if f.outcome.prepared then insertRows f.outcome.insertOk 0 f.batch else []

def committed (f : Flush M) : Bool := f.outcome.prepared && f.outcome.commitOk

/-- The transaction of the batch is done with. -/
def settled (f : Flush M) : Bool :=
  !f.outcome.prepared || f.outcome.commitOk || f.outcome.rollbackOk

end Flush

/-- The rows of `OCI_METRICS`, and those of the writer's open transaction. -/
structure MetricsTable (M : Type) where
  committed : List M
  uncommitted : List M

def metricsDbBulkInsert (table : MetricsTable M) (f : Flush M) : MetricsTable M :=
  if f.batch.length = 0 then table
  else if f.outcome.prepared then
    let rows := table.uncommitted ++ f.inserted
    if f.outcome.commitOk then ⟨table.committed ++ rows, []⟩
    else if f.outcome.rollbackOk then ⟨table.committed, []⟩
    else ⟨table.committed, rows⟩
  else table

/-- The file writer; `absent` is a thread that was not started. -/
inductive FileThread where
  | absent
  | running
  | stopped
  deriving DecidableEq

/-- Where `db_writer_thread_main` stands; `absent` is a thread that did not start, or that got
no session or no memory. -/
inductive DbThread (M : Type) where
  | absent
  | waiting
  | collecting (batch : List M) (batchStart : Timespec)
  | timedWait (batch : List M) (batchStart : Timespec)
  | flushing (batch : List M) (cause : FlushCause)
  | stopped

/-- The writer with the producers that have offered a record to the file queue and not yet to the
database's. -/
structure MetricsWriter (P M : Type) where
  file : Option (Destination M)
  db : Option (Destination M)
  finalising : P → Option M
  fileThread : FileThread
  dbThread : DbThread M
  fileRows : List M
  flushes : List (Flush M)
  table : MetricsTable M

/-- What the start of a destination meets. -/
structure StartOutcome where
  queueReady : Bool
  argsReady : Bool
  threadCreated : Bool

/-- The queue of a destination, and whether its thread runs. -/
def startDestination (enabled : Bool) (start : StartOutcome) : Option (Destination M) × Bool :=
  if enabled then
    match genericQueueCreate metricsQueueDepth start.queueReady with
    | none => (none, false)
    | some q =>
      if start.argsReady then
        if start.threadCreated then (some ⟨q, [], []⟩, true) else (none, false)
      else (some ⟨q, [], []⟩, false)
  else (none, false)

def metricsWriterStart (fileEnabled dbEnabled : Bool) (file db : StartOutcome)
    (sessionReady : Bool) : MetricsWriter P M :=
  let (fileQueue, fileStarted) := startDestination fileEnabled file
  let (dbQueue, dbStarted) := startDestination dbEnabled db
  { file := fileQueue
    db := dbQueue
    finalising := fun _ => none
    fileThread := if fileStarted then .running else .absent
    dbThread := if dbStarted && sessionReady then .waiting else .absent
    fileRows := []
    flushes := []
    table := ⟨[], []⟩ }

inductive MetricsEvent (P M : Type) where
  | finaliseAndEnqueue (producer : P) (m : M) (copied : Bool)
  | offerDb (producer : P) (copied : Bool)
  | fileTurn
  | dbTurn (now : Timespec) (waitRc : Bool) (outcome : FlushOutcome)
  | shutdownFile
  | shutdownDb

namespace MetricsWriter

/-- One turn of `file_writer_thread_main`. -/
def fileTurn (w : MetricsWriter P M) : MetricsWriter P M :=
  match w.fileThread, w.file with
  | .running, some d =>
    match dequeueBlocking d.queue with
    | none => w
    | some (queue, some m) =>
      { w with file := some (d.took queue (some m)), fileRows := w.fileRows ++ [m] }
    | some (queue, none) => { w with file := some (d.took queue none), fileThread := .stopped }
  | _, _ => w

/-- One turn of `db_writer_thread_main`: of its outer loop, of its inner one, of the wait in it, or
the flush. -/
def dbTurn (w : MetricsWriter P M) (args : DbWriterArgs) (now : Timespec) (waitRc : Bool)
    (outcome : FlushOutcome) : MetricsWriter P M :=
  match w.db with
  | none => w
  | some d =>
    match w.dbThread with
    | .absent | .stopped => w
    | .waiting =>
      match dequeueBlocking d.queue with
      | none => w
      | some (queue, none) => { w with db := some (d.took queue none), dbThread := .stopped }
      | some (queue, some first) =>
        { w with db := some (d.took queue (some first)), dbThread := .collecting [first] now }
    | .collecting batch batchStart =>
      if batch.length < args.perWrite then
        let elapsed := elapsedMs batchStart now
        if args.maxDelayMs - elapsed ≤ 0 then
          { w with dbThread := .flushing batch (.deadline elapsed) }
        else { w with dbThread := .timedWait batch batchStart }
      else { w with dbThread := .flushing batch .full }
    | .timedWait batch batchStart =>
      match dequeueTimed d.queue waitRc with
      | none => w
      | some (queue, some item, _) =>
        { w with
          db := some (d.took queue (some item))
          dbThread := .collecting (batch ++ [item]) batchStart }
      | some (queue, none, timedOut) =>
        { w with
          db := some (d.took queue none)
          dbThread := .flushing batch (if timedOut then .timedOut else .shutdown) }
    | .flushing batch cause =>
      let f : Flush M := ⟨batch, cause, outcome⟩
      { w with
        table := metricsDbBulkInsert w.table f
        flushes := w.flushes ++ [f]
        dbThread := if cause = .shutdown then .stopped else .waiting }

/-- `finalise` is `metrics_finalise`. -/
def step [DecidableEq P] (args : DbWriterArgs) (finalise : M → M) (w : MetricsWriter P M) :
    MetricsEvent P M → MetricsWriter P M
  | .finaliseAndEnqueue producer m copied =>
    if w.finalising producer = none then
      { w with
        file := w.file.map (·.offer (finalise m) copied)
        finalising := Function.update w.finalising producer (some (finalise m)) }
    else w
  | .offerDb producer copied =>
    match w.finalising producer with
    | none => w
    | some m =>
      { w with
        db := w.db.map (·.offer m copied)
        finalising := Function.update w.finalising producer none }
  | .fileTurn => w.fileTurn
  | .dbTurn now waitRc outcome => w.dbTurn args now waitRc outcome
  | .shutdownFile => { w with file := w.file.map Destination.shutdown }
  | .shutdownDb => { w with db := w.db.map Destination.shutdown }

end MetricsWriter

theorem enqueue_frame (q : GenericQueue M) (item : Option M) :
    (genericQueueEnqueue q item).1.capacity = q.capacity ∧
      (genericQueueEnqueue q item).1.shuttingDown = q.shuttingDown := by
  cases item with
  | none => exact ⟨rfl, rfl⟩
  | some item =>
    simp only [genericQueueEnqueue]
    split <;> exact ⟨rfl, rfl⟩

theorem takeLocked_frame (q : GenericQueue M) :
    (takeLocked q).1.capacity = q.capacity ∧
      (takeLocked q).1.shuttingDown = q.shuttingDown := by
  unfold takeLocked
  split <;> exact ⟨rfl, rfl⟩

namespace Destination

variable {d : Destination M} {held : List M}

theorem sound_start {q : GenericQueue M} {ready : Bool}
    (created : genericQueueCreate metricsQueueDepth ready = some q) :
    (⟨q, [], []⟩ : Destination M).Sound [] := by
  obtain ⟨holding, depth, -⟩ := genericQueueCreate_holding created
  exact ⟨holding, depth, rfl, nofun, List.prefix_refl _, fun _ => rfl⟩

theorem accepted_offer (d : Destination M) (m : M) (copied : Bool) :
    (d.offer m copied).accepted = d.accepted ++
      if (genericQueueEnqueue d.queue (if copied then some m else none)).2 = 0 then [m] else [] := by
  simp only [accepted, offer, List.filter_append, List.map_append]
  generalize genericQueueEnqueue d.queue (if copied then some m else none) = outcome
  by_cases success : outcome.2 = 0 <;> simp [success]

theorem early_offer (d : Destination M) (m : M) (copied : Bool) :
    (d.offer m copied).early = d.early ++
      if (genericQueueEnqueue d.queue (if copied then some m else none)).2 = 0 ∧
        d.queue.shuttingDown = false then [m] else [] := by
  simp only [early, offer, List.filter_append, List.map_append]
  generalize genericQueueEnqueue d.queue (if copied then some m else none) = outcome
  by_cases success : outcome.2 = 0 <;> cases d.queue.shuttingDown <;> simp [success]

theorem Sound.offer (sound : d.Sound held) (m : M) (copied : Bool) :
    ∃ after, (d.offer m copied).Sound after := by
  obtain ⟨conforms, holding⟩ := sound.holding.enqueue (if copied then some m else none)
  obtain ⟨capacity, shut⟩ := enqueue_frame d.queue (if copied then some m else none)
  have item : (if (genericQueueEnqueue d.queue (if copied then some m else none)).2 = 0
      then (if copied then some m else none).toList else []) =
      if (genericQueueEnqueue d.queue (if copied then some m else none)).2 = 0
        then [m] else [] := by
    cases copied with
    | false => rfl
    | true => rfl
  refine ⟨_, holding, capacity.trans sound.depth, ?_, ?_, ?_, ?_⟩
  · rw [accepted_offer, sound.conserved, item, List.append_assoc]
    rfl
  · intro o member
    rcases List.mem_append.mp member with old | new
    · exact sound.conforms o old
    · rw [List.mem_singleton.mp new]
      rw [sound.depth] at conforms
      have told : decide ((genericQueueEnqueue d.queue
          (if copied then some m else none)).2 = 0) = true ↔
          copied = true ∧ d.queue.count < metricsQueueDepth := by
        rw [decide_eq_true_iff, conforms]
        cases copied <;> simp
      exact told
  · rw [accepted_offer, early_offer]
    by_cases running : d.queue.shuttingDown = false
    · simp only [running, and_true, sound.running running]
      exact List.prefix_refl _
    · rw [if_neg fun both => running both.2, List.append_nil]
      exact sound.front.trans (List.prefix_append _ _)
  · intro running
    have before : d.queue.shuttingDown = false := shut.symm.trans running
    rw [accepted_offer, early_offer, sound.running before]
    simp only [before, and_true]

/-- A thread whose dequeue gives nothing has taken all that was accepted. -/
theorem Sound.took (sound : d.Sound held) {queue : GenericQueue M} {item : Option M}
    (turn : takeLocked d.queue = (queue, item)) :
    (∃ after, (d.took queue item).Sound after) ∧ (item = none → d.early <+: d.taken) := by
  obtain ⟨first, rest⟩ := sound.holding.take
  obtain ⟨capacity, shut⟩ := takeLocked_frame d.queue
  rw [turn] at first rest capacity shut
  have split : d.taken ++ item.toList ++ held.tail = d.taken ++ held := by
    have item_first : item = held.head? := first
    rw [List.append_assoc, item_first]
    cases held <;> rfl
  refine ⟨⟨held.tail, rest, capacity.trans sound.depth, ?_, sound.conforms, sound.front, ?_⟩, ?_⟩
  · exact sound.conserved.trans split.symm
  · intro running
    exact sound.running (shut.symm.trans running)
  · rintro rfl
    have nothing : held = [] := List.head?_eq_none_iff.mp first.symm
    have all : d.accepted = d.taken := by rw [sound.conserved, nothing, List.append_nil]
    exact all ▸ sound.front

theorem Sound.shutdown (sound : d.Sound held) : d.shutdown.Sound held :=
  ⟨sound.holding.shutdown, sound.depth, sound.conserved, sound.conforms, sound.front, nofun⟩

end Destination

theorem insertRows_sublist (insertOk : Nat → Bool) (batch : List M) (i : Nat) :
    insertRows insertOk i batch <+ batch := by
  induction batch generalizing i with
  | nil => exact List.Sublist.refl _
  | cons m batch ih =>
    rw [insertRows]
    split
    · exact (ih (i + 1)).cons_cons m
    · exact (ih (i + 1)).cons m

theorem Flush.inserted_sublist (f : Flush M) : f.inserted <+ f.batch := by
  unfold Flush.inserted
  split
  · exact insertRows_sublist _ _ _
  · exact List.nil_sublist _

/-- A batch that is flushed has a record, and no more than the configuration allows; it is short
only at its deadline or at the shutdown. -/
def Flush.Proper (args : DbWriterArgs) (f : Flush M) : Prop :=
  0 < f.batch.length ∧
    match f.cause with
    | .full => (f.batch.length : Int) = args.perWrite
    | .deadline elapsed => f.batch.length < args.perWrite ∧ args.maxDelayMs ≤ elapsed
    | .timedOut | .shutdown => f.batch.length < args.perWrite

/-- The rows that flushes leave in the table and in the open transaction. -/
structure MetricsTable.Follows (table : MetricsTable M) (flushes : List (Flush M)) : Prop where
  ordered : table.committed ++ table.uncommitted <+ flushes.flatMap (·.inserted)
  kept : (flushes.filter (·.committed)).flatMap (·.inserted) <+ table.committed
  exact : (∀ f ∈ flushes, f.settled = true) →
    table = ⟨(flushes.filter (·.committed)).flatMap (·.inserted), []⟩

theorem MetricsTable.Follows.flush {table : MetricsTable M} {flushes : List (Flush M)}
    (follows : table.Follows flushes) {f : Flush M} (filled : 0 < f.batch.length) :
    (metricsDbBulkInsert table f).Follows (flushes ++ [f]) := by
  have rows : (flushes ++ [f]).flatMap (·.inserted) =
      flushes.flatMap (·.inserted) ++ f.inserted := by simp
  have both : table.committed ++ (table.uncommitted ++ f.inserted) <+
      (flushes ++ [f]).flatMap (·.inserted) := by
    rw [rows, ← List.append_assoc]
    exact follows.ordered.append (List.Sublist.refl _)
  have alone : table.committed <+ (flushes ++ [f]).flatMap (·.inserted) :=
    (List.sublist_append_left _ _).trans both
  have before : (∀ g ∈ flushes ++ [f], g.settled = true) →
      table = ⟨(flushes.filter (·.committed)).flatMap (·.inserted), []⟩ := fun settled =>
    follows.exact fun g member => settled g (List.mem_append_left _ member)
  have last : (∀ g ∈ flushes ++ [f], g.settled = true) → f.settled = true := fun settled =>
    settled f (by simp)
  have nonempty : f.batch.length ≠ 0 := Nat.ne_of_gt filled
  cases prepared : f.outcome.prepared with
  | false =>
    have left : metricsDbBulkInsert table f = table := by
      simp [metricsDbBulkInsert, prepared]
    rw [left]
    have none : f.inserted = [] := by simp [Flush.inserted, prepared]
    have uncommitted : f.committed = false := by simp [Flush.committed, prepared]
    have same : (flushes ++ [f]).filter (·.committed) = flushes.filter (·.committed) := by
      simp [uncommitted]
    refine ⟨?_, ?_, fun settled => ?_⟩
    · rw [rows, none, List.append_nil]
      exact follows.ordered
    · rw [same]
      exact follows.kept
    · rw [same]
      exact before settled
  | true =>
    cases commit : f.outcome.commitOk with
    | true =>
      have left : metricsDbBulkInsert table f =
          ⟨table.committed ++ (table.uncommitted ++ f.inserted), []⟩ := by
        simp [metricsDbBulkInsert, nonempty, prepared, commit]
      rw [left]
      have done : f.committed = true := by simp [Flush.committed, prepared, commit]
      have filtered : ((flushes ++ [f]).filter (·.committed)).flatMap (·.inserted) =
          (flushes.filter (·.committed)).flatMap (·.inserted) ++ f.inserted := by simp [done]
      refine ⟨?_, ?_, fun settled => ?_⟩
      · simpa using both
      · rw [filtered]
        exact follows.kept.append (List.sublist_append_right _ _)
      · rw [filtered, before settled]
        simp
    | false =>
      have undone : f.committed = false := by simp [Flush.committed, commit]
      have same : (flushes ++ [f]).filter (·.committed) = flushes.filter (·.committed) := by
        simp [undone]
      cases rollback : f.outcome.rollbackOk with
      | true =>
        have left : metricsDbBulkInsert table f = ⟨table.committed, []⟩ := by
          simp [metricsDbBulkInsert, nonempty, prepared, commit, rollback]
        rw [left]
        refine ⟨?_, ?_, fun settled => ?_⟩
        · simpa using alone
        · rw [same]
          exact follows.kept
        · rw [same, before settled]
      | false =>
        have left : metricsDbBulkInsert table f =
            ⟨table.committed, table.uncommitted ++ f.inserted⟩ := by
          simp [metricsDbBulkInsert, nonempty, prepared, commit, rollback]
        rw [left]
        refine ⟨both, ?_, fun settled => ?_⟩
        · rw [same]
          exact follows.kept
        · have ended := last settled
          simp [Flush.settled, prepared, commit, rollback] at ended

namespace DbThread

def batch : DbThread M → List M
  | .collecting batch _ | .timedWait batch _ | .flushing batch _ => batch
  | _ => []

/-- The thread has seen the queue empty after the shutdown. -/
def ending : DbThread M → Bool
  | .flushing _ cause => cause = .shutdown
  | .stopped => true
  | _ => false

def Proper (args : DbWriterArgs) : DbThread M → Prop
  | .collecting batch _ => 0 < batch.length ∧ batch.length ≤ args.perWrite
  | .timedWait batch _ => 0 < batch.length ∧ batch.length < args.perWrite
  | .flushing batch cause => ∀ outcome, Flush.Proper args ⟨batch, cause, outcome⟩
  | _ => True

end DbThread

/-- What a destination's thread has taken; a thread that is done has taken all that was accepted
before the shutdown. -/
structure Destination.Serves (d : Destination M) (taken : List M) (done : Bool) : Prop where
  sound : ∃ held, d.Sound held
  taken : d.taken = taken
  done : done = true → d.queue.shuttingDown = true ∧ d.early <+: d.taken

theorem Destination.Serves.offer {d : Destination M} {taken : List M} {done : Bool}
    (serves : d.Serves taken done) (m : M) (copied : Bool) :
    (d.offer m copied).Serves taken done := by
  obtain ⟨held, sound⟩ := serves.sound
  obtain ⟨-, shut⟩ := enqueue_frame d.queue (if copied then some m else none)
  refine ⟨sound.offer m copied, serves.taken, fun ended => ?_⟩
  obtain ⟨shutting, front⟩ := serves.done ended
  refine ⟨shut.trans shutting, ?_⟩
  rw [early_offer, if_neg fun both => Bool.noConfusion (both.2.symm.trans shutting),
    List.append_nil]
  exact front

theorem Destination.Serves.shutdown {d : Destination M} {taken : List M} {done : Bool}
    (serves : d.Serves taken done) : d.shutdown.Serves taken done := by
  obtain ⟨held, sound⟩ := serves.sound
  exact ⟨⟨held, sound.shutdown⟩, serves.taken, fun ended => ⟨rfl, (serves.done ended).2⟩⟩

/-- The dequeue of a thread that is not done. -/
theorem Destination.Serves.took {d : Destination M} {taken : List M}
    (serves : d.Serves taken false) {queue : GenericQueue M} {item : Option M}
    (turn : takeLocked d.queue = (queue, item)) :
    (d.took queue item).Serves (taken ++ item.toList) false ∧
      (item = none → d.queue.shuttingDown = true → (d.took queue item).Serves taken true) := by
  obtain ⟨held, sound⟩ := serves.sound
  obtain ⟨after, front⟩ := sound.took turn
  have grown : (d.took queue item).taken = taken ++ item.toList :=
    congrArg (· ++ item.toList) serves.taken
  obtain ⟨-, shut⟩ := takeLocked_frame d.queue
  rw [turn] at shut
  refine ⟨⟨after, grown, nofun⟩, ?_⟩
  rintro rfl shutting
  rw [Option.toList_none, List.append_nil] at grown
  have all := front rfl
  rw [serves.taken] at all
  exact ⟨after, grown, fun _ => ⟨shut.trans shutting, grown ▸ all⟩⟩

theorem dequeueBlocking_cases {q queue : GenericQueue M} {item : Option M} {held : List M}
    (holding : q.Holding held) (turn : dequeueBlocking q = some (queue, item)) :
    takeLocked q = (queue, item) ∧ (item = none → q.shuttingDown = true) := by
  unfold dequeueBlocking at turn
  split at turn
  · cases turn
  · rename_i ready
    have took := Option.some.inj turn
    refine ⟨took, ?_⟩
    rintro rfl
    have empty := holding.empty_of_take (congrArg Prod.snd took)
    by_contra running
    exact ready ⟨empty, running⟩

theorem dequeueTimed_cases {q queue : GenericQueue M} {item : Option M} {waitRc timedOut : Bool}
    (turn : dequeueTimed q waitRc = some (queue, item, timedOut)) :
    takeLocked q = (queue, item) ∧ (item = none → timedOut = !q.shuttingDown) := by
  unfold dequeueTimed at turn
  split at turn
  · cases turn
  · have took := Option.some.inj turn
    simp only [takeTimed, Prod.mk.injEq] at took
    obtain ⟨left, rfl, rfl⟩ := took
    exact ⟨Prod.ext left rfl, fun nothing => by simp [nothing]⟩

namespace MetricsWriter

/-- What holds of the two writers in every state of a run. -/
structure Kept (args : DbWriterArgs) (w : MetricsWriter P M) : Prop where
  file : ∀ d, w.file = some d → d.Serves w.fileRows (w.fileThread = .stopped)
  db : ∀ d, w.db = some d →
    d.Serves ((w.flushes.map (·.batch)).flatten ++ w.dbThread.batch) w.dbThread.ending
  thread : w.dbThread.Proper args
  flushed : ∀ f ∈ w.flushes, f.Proper args
  table : w.table.Follows w.flushes

variable {args : DbWriterArgs} {w : MetricsWriter P M}

theorem Kept.fileTurn (kept : w.Kept args) : w.fileTurn.Kept args := by
  unfold MetricsWriter.fileTurn
  split
  · rename_i d running found
    have serves := kept.file d found
    rw [running] at serves
    obtain ⟨held, sound⟩ := serves.sound
    split
    · exact kept
    · rename_i queue m turn
      obtain ⟨took, -⟩ := dequeueBlocking_cases sound.holding turn
      refine ⟨?_, kept.db, kept.thread, kept.flushed, kept.table⟩
      rintro _ ⟨⟩
      simpa [running] using (serves.took took).1
    · rename_i queue turn
      obtain ⟨took, shut⟩ := dequeueBlocking_cases sound.holding turn
      refine ⟨?_, kept.db, kept.thread, kept.flushed, kept.table⟩
      rintro _ ⟨⟩
      exact (serves.took took).2 rfl (shut rfl)
  · exact kept

theorem Kept.dbTurn (kept : w.Kept args) (some_fit : 0 < args.perWrite) (now : Timespec)
    (waitRc : Bool) (outcome : FlushOutcome) : (w.dbTurn args now waitRc outcome).Kept args := by
  unfold MetricsWriter.dbTurn
  split
  · exact kept
  rename_i d found
  have serves := kept.db d found
  have proper := kept.thread
  obtain ⟨held, sound⟩ := serves.sound
  split
  · exact kept
  · exact kept
  · rename_i waiting
    rw [waiting] at serves
    split
    · exact kept
    · rename_i queue turn
      obtain ⟨took, shut⟩ := dequeueBlocking_cases sound.holding turn
      refine ⟨kept.file, ?_, trivial, kept.flushed, kept.table⟩
      rintro _ ⟨⟩
      exact (serves.took took).2 rfl (shut rfl)
    · rename_i queue first turn
      obtain ⟨took, -⟩ := dequeueBlocking_cases sound.holding turn
      refine ⟨kept.file, ?_, ?_, kept.flushed, kept.table⟩
      · rintro _ ⟨⟩
        simpa [DbThread.batch, DbThread.ending] using (serves.took took).1
      · exact ⟨Nat.one_pos, some_fit⟩
  · rename_i batch batchStart collecting
    rw [collecting] at serves proper
    split
    · rename_i short
      dsimp only
      split
      · rename_i none_left
        have late : args.maxDelayMs ≤ elapsedMs batchStart now := by omega
        exact ⟨kept.file, fun e same => (Option.some.inj (found.symm.trans same)) ▸ serves,
          fun _ => ⟨proper.1, short, late⟩, kept.flushed, kept.table⟩
      · exact ⟨kept.file, fun e same => (Option.some.inj (found.symm.trans same)) ▸ serves,
          ⟨proper.1, short⟩, kept.flushed, kept.table⟩
    · rename_i full
      have all : (batch.length : Int) = args.perWrite := by
        have most := proper.2
        omega
      exact ⟨kept.file, fun e same => (Option.some.inj (found.symm.trans same)) ▸ serves,
        fun _ => ⟨proper.1, all⟩, kept.flushed, kept.table⟩
  · rename_i batch batchStart waiting
    rw [waiting] at serves proper
    split
    · exact kept
    · rename_i queue item timedOut turn
      obtain ⟨took, -⟩ := dequeueTimed_cases turn
      refine ⟨kept.file, ?_, ?_, kept.flushed, kept.table⟩
      · rintro _ ⟨⟩
        simpa [DbThread.batch, DbThread.ending] using (serves.took took).1
      · have room := proper.2
        simp only [DbThread.Proper, List.length_append, List.length_singleton]
        omega
    · rename_i queue timedOut turn
      obtain ⟨took, told⟩ := dequeueTimed_cases turn
      refine ⟨kept.file, ?_, ?_, kept.flushed, kept.table⟩
      · rintro _ ⟨⟩
        cases shutting : d.queue.shuttingDown with
        | true =>
          rw [told rfl, shutting]
          exact (serves.took took).2 rfl shutting
        | false =>
          rw [told rfl, shutting]
          simpa [DbThread.batch, DbThread.ending] using (serves.took took).1
      · intro _
        cases timedOut <;> exact proper
  · rename_i batch cause flushing
    rw [flushing] at serves proper
    have filled : 0 < batch.length := (proper outcome).1
    have gathered : ((w.flushes ++ [(⟨batch, cause, outcome⟩ : Flush M)]).map (·.batch)).flatten =
        (w.flushes.map (·.batch)).flatten ++ batch := by simp
    refine ⟨kept.file, ?_, ?_, ?_, kept.table.flush filled⟩
    · intro e same
      have same : d = e := Option.some.inj (found.symm.trans same)
      subst same
      by_cases last : cause = .shutdown
      · simpa [last, gathered, DbThread.batch, DbThread.ending] using serves
      · simpa [last, gathered, DbThread.batch, DbThread.ending] using serves
    · dsimp only
      split <;> trivial
    · intro f member
      rcases List.mem_append.mp member with old | new
      · exact kept.flushed f old
      · rw [List.mem_singleton.mp new]
        exact proper outcome

variable [DecidableEq P]

theorem Kept.step (kept : w.Kept args) (some_fit : 0 < args.perWrite) (finalise : M → M)
    (event : MetricsEvent P M) : (w.step args finalise event).Kept args := by
  cases event with
  | finaliseAndEnqueue producer m copied =>
    simp only [MetricsWriter.step]
    split
    · refine ⟨?_, kept.db, kept.thread, kept.flushed, kept.table⟩
      intro e same
      obtain ⟨d, found, rfl⟩ := Option.map_eq_some_iff.mp same
      exact (kept.file d found).offer (finalise m) copied
    · exact kept
  | offerDb producer copied =>
    simp only [MetricsWriter.step]
    split
    · exact kept
    · rename_i m pending
      refine ⟨kept.file, ?_, kept.thread, kept.flushed, kept.table⟩
      intro e same
      obtain ⟨d, found, rfl⟩ := Option.map_eq_some_iff.mp same
      exact (kept.db d found).offer m copied
  | fileTurn => exact kept.fileTurn
  | dbTurn now waitRc outcome => exact kept.dbTurn some_fit now waitRc outcome
  | shutdownFile =>
    refine ⟨?_, kept.db, kept.thread, kept.flushed, kept.table⟩
    intro e same
    obtain ⟨d, found, rfl⟩ := Option.map_eq_some_iff.mp same
    exact (kept.file d found).shutdown
  | shutdownDb =>
    refine ⟨kept.file, ?_, kept.thread, kept.flushed, kept.table⟩
    intro e same
    obtain ⟨d, found, rfl⟩ := Option.map_eq_some_iff.mp same
    exact (kept.db d found).shutdown

theorem Kept.run (kept : w.Kept args) (some_fit : 0 < args.perWrite) (finalise : M → M)
    (events : List (MetricsEvent P M)) : (events.foldl (MetricsWriter.step args finalise) w).Kept args := by
  induction events generalizing w with
  | nil => exact kept
  | cons event events ih => exact ih (kept.step some_fit finalise event)

omit [DecidableEq P] in
theorem startDestination_serves {enabled : Bool} {start : StartOutcome} {d : Destination M}
    (started : (startDestination enabled start).1 = some d) : d.Serves [] false := by
  unfold startDestination at started
  split at started
  · split at started
    · cases started
    · rename_i q created
      have sound : ∃ held, (⟨q, [], []⟩ : Destination M).Sound held :=
        ⟨[], Destination.sound_start created⟩
      split at started
      · split at started
        · cases started
          exact ⟨sound, rfl, nofun⟩
        · cases started
      · cases started
        exact ⟨sound, rfl, nofun⟩
  · cases started

omit [DecidableEq P] in
theorem start_kept (args : DbWriterArgs) (fileEnabled dbEnabled : Bool) (file db : StartOutcome)
    (sessionReady : Bool) :
    (metricsWriterStart fileEnabled dbEnabled file db sessionReady :
      MetricsWriter P M).Kept args := by
  refine ⟨fun d found => ?_, fun d found => ?_, ?_, nofun, ?_⟩
  · have serves := startDestination_serves found
    simp only [metricsWriterStart]
    split <;> exact serves
  · have serves := startDestination_serves found
    simp only [metricsWriterStart]
    split <;> exact serves
  · simp only [metricsWriterStart]
    split <;> trivial
  · exact ⟨List.Sublist.refl _, List.Sublist.refl _, fun _ => rfl⟩

omit [DecidableEq P] in
/-- The rows of the table were accepted, in this order and each once. -/
theorem Kept.table_sublist (kept : w.Kept args) {d : Destination M} (found : w.db = some d) :
    w.table.committed <+ d.accepted := by
  have serves := kept.db d found
  obtain ⟨held, sound⟩ := serves.sound
  have batches : ∀ flushes : List (Flush M),
      flushes.flatMap (·.inserted) <+ (flushes.map (·.batch)).flatten := by
    intro flushes
    induction flushes with
    | nil => exact List.Sublist.refl _
    | cons f flushes ih => exact f.inserted_sublist.append ih
  calc w.table.committed
      <+ w.table.committed ++ w.table.uncommitted := List.sublist_append_left _ _
    _ <+ w.flushes.flatMap (·.inserted) := kept.table.ordered
    _ <+ (w.flushes.map (·.batch)).flatten := batches w.flushes
    _ <+ d.taken := by
      rw [serves.taken]
      exact List.sublist_append_left _ _
    _ <+ d.accepted := by
      rw [sound.conserved]
      exact List.sublist_append_left _ _

/-- In every interleaving of producers, writer threads and shutdowns. -/
theorem metrics_are_kept (fileEnabled dbEnabled : Bool) (file db : StartOutcome)
    (sessionReady : Bool) (metricsPerWrite metricsMaxInsertDelayMs : Int) (finalise : M → M)
    (events : List (MetricsEvent P M)) :
    let args := dbWriterArgs metricsPerWrite metricsMaxInsertDelayMs
    let w := events.foldl (step args finalise)
      (metricsWriterStart fileEnabled dbEnabled file db sessionReady)
    w.Kept args ∧ ∀ d, w.db = some d → w.table.committed <+ d.accepted := by
  intro args w
  have some_fit : 0 < args.perWrite := by
    simp only [args, dbWriterArgs]
    split <;> omega
  have kept : w.Kept args := (start_kept args _ _ _ _ _).run some_fit finalise events
  exact ⟨kept, fun d found => kept.table_sublist found⟩

end MetricsWriter

end OciWrapper.Infra
