import OciWrapper.Infra.QueueManager
import OciWrapper.Wire.TextSniffs

namespace OciWrapper.Infra

open OciWrapper.Text OciWrapper.Wire

variable {H Resp : Type}

/-- A request with its completion, which lives in the call of the handler that waits for it; NULL
for a request that nobody waits for. `serial` tells the allocations apart. -/
structure HttpRequest (H : Type) where
  serial : Nat
  payload : CString
  completionCtx : Option H

/-- What `http_worker_pool_dispatch` sends to the writer's queue. -/
def HttpRequest.forWriter (req : HttpRequest H) : Bool :=
  req.completionCtx.isSome && httpRequestIsWrite req.payload

/-- A worker thread; `absent` is one that was not created, or that got no session. -/
inductive HttpWorker (H : Type) where
  | absent
  | waiting
  | processing (req : HttpRequest H)
  | stopped

def HttpWorker.current : HttpWorker H → List (HttpRequest H)
  | .processing req => [req]
  | _ => []

/-- Where a handler's thread stands: before `enqueue_mutex`, with it, or in the wait for its
completion. -/
inductive HttpHandler (H : Type) where
  | idle
  | entering (req : HttpRequest H)
  | enqueueing (req : HttpRequest H)
  | waiting (req : HttpRequest H)

/-- The request that is not in a queue yet. -/
def HttpHandler.unsent : HttpHandler H → Option (HttpRequest H)
  | .entering req | .enqueueing req => some req
  | _ => none

structure HttpAnswer (H Resp : Type) where
  worker : Nat
  req : HttpRequest H
  resp : Resp

structure HttpReturn (H Resp : Type) where
  handler : H
  req : HttpRequest H
  resp : Resp

/-- The pool. The holder of the mutex is the only producer of the queues. -/
structure HttpWorkerPool (H Resp : Type) where
  queues : QueuesRun Unit (HttpRequest H)
  mutex : Option H
  handlers : H → HttpHandler H
  completions : H → Option Resp
  workers : List (HttpWorker H)
  serials : Nat
  processed : List (HttpAnswer H Resp)
  returned : List (HttpReturn H Resp)
  refused : List (HttpRequest H)
  atStop : Option (Nat → List (HttpRequest H))

/-- `ready` says that the allocations succeed, and `started` which worker threads run and have a
session. -/
def httpWorkerPoolStart (queueCount queueDepth : Int) (ready : Bool) (started : Nat → Bool) :
    Option (HttpWorkerPool H Resp) :=
  let queueCount := if queueCount > 0 then queueCount else 5
  let queueDepth := if queueDepth > 0 then queueDepth else 50
  (queueManagerCreate queueCount queueDepth ready).map fun qm =>
    { queues := QueuesRun.start qm
      mutex := none
      handlers := fun _ => .idle
      completions := fun _ => none
      workers := (List.range queueCount.toNat).map fun i => if started i then .waiting else .absent
      serials := 0
      processed := []
      returned := []
      refused := []
      atStop := none }

inductive PoolEvent (H Resp : Type) where
  | dispatch (handler : H) (payload : CString) (async : Bool)
  | lock (handler : H)
  | enqueueTurn (handler : H)
  | workerTurn (idx : Nat) (resp : Resp)
  | wake (handler : H)
  | stop

/-- What an enqueue does next to the request it has been given, with the exclusion. -/
def Enqueuing.task {R : Type} : Enqueuing R → Option (R × Int)
  | .idle => none
  | .started req exclude _ | .advancing req exclude _ _ | .scanning req exclude _ _ _ =>
    some (req, exclude)

namespace HttpWorkerPool

variable [DecidableEq H]

/-- The enqueue of the handler's request has returned: 0 when a queue has taken the request. -/
def finish (s : HttpWorkerPool H Resp) (handler : H) (req : HttpRequest H)
    (after : QueuesRun Unit (HttpRequest H)) : HttpWorkerPool H Resp :=
  let accepted : Bool := s.queues.accepted.length < after.accepted.length
  { s with
    queues := after
    mutex := none
    handlers := Function.update s.handlers handler
      (if accepted && req.completionCtx.isSome then .waiting req else .idle)
    refused := s.refused ++ if accepted then [] else [req] }

def enqueueTurn (s : HttpWorkerPool H Resp) (handler : H) : HttpWorkerPool H Resp :=
  match s.handlers handler with
  | .enqueueing req =>
    if req.forWriter then s.finish handler req (s.queues.step (.enqueueTo req 0))
    else
      match s.queues.producers () with
      | .idle => { s with queues := s.queues.step (.enqueueExcluding () req 0) }
      | _ =>
        let after := s.queues.step (.proceed ())
        match after.producers () with
        | .idle => s.finish handler req after
        | _ => { s with queues := after }
  | _ => s

/-- What a worker puts into the completion of the request that it is done with. -/
def completed (s : HttpWorkerPool H Resp) (req : HttpRequest H) (resp : Resp) : H → Option Resp :=
  match req.completionCtx with
  | some handler => Function.update s.completions handler (some resp)
  | none => s.completions

/-- One turn of `http_worker_thread_main`; `resp` is what `process_xml_file` makes. -/
def workerTurn (s : HttpWorkerPool H Resp) (idx : Nat) (resp : Resp) : HttpWorkerPool H Resp :=
  match s.workers[idx]? with
  | some .waiting =>
    match queueManagerDequeueBlocking s.queues.manager idx with
    | none => s
    | some (_, none) =>
      { s with queues := s.queues.step (.dequeue idx), workers := s.workers.set idx .stopped }
    | some (_, some req) =>
      { s with
        queues := s.queues.step (.dequeue idx)
        workers := s.workers.set idx (.processing req) }
  | some (.processing req) =>
    { s with
      workers := s.workers.set idx .waiting
      processed := s.processed ++ [⟨idx, req, resp⟩]
      completions := s.completed req resp }
  | _ => s

def step (s : HttpWorkerPool H Resp) : PoolEvent H Resp → HttpWorkerPool H Resp
  | .dispatch handler payload async =>
    match s.handlers handler with
    | .idle =>
      let req : HttpRequest H := ⟨s.serials, payload, if async then none else some handler⟩
      { s with
        serials := s.serials + 1
        completions :=
          if async then s.completions else Function.update s.completions handler none
        handlers := Function.update s.handlers handler (.entering req) }
    | _ => s
  | .lock handler =>
    match s.handlers handler, s.mutex with
    | .entering req, none =>
      { s with
        mutex := some handler
        handlers := Function.update s.handlers handler (.enqueueing req) }
    | _, _ => s
  | .enqueueTurn handler => s.enqueueTurn handler
  | .workerTurn idx resp => s.workerTurn idx resp
  | .wake handler =>
    match s.handlers handler, s.completions handler with
    | .waiting req, some resp =>
      { s with
        returned := s.returned ++ [⟨handler, req, resp⟩]
        handlers := Function.update s.handlers handler .idle }
    | _, _ => s
  | .stop =>
    { s with
      queues := s.queues.step .shutdown
      atStop := some (s.atStop.getD s.queues.acceptedIn) }

def processedBy (s : HttpWorkerPool H Resp) (idx : Nat) : List (HttpRequest H) :=
  (s.processed.filter (·.worker = idx)).map (·.req)

def atWorker (s : HttpWorkerPool H Resp) (idx : Nat) : List (HttpRequest H) :=
  ((s.workers[idx]?).map (·.current)).getD []

def sent (s : HttpWorkerPool H Resp) : List (HttpRequest H) := s.queues.accepted.map (·.req)

def answered (s : HttpWorkerPool H Resp) : List (HttpRequest H) := s.processed.map (·.req)

end HttpWorkerPool

section Enqueues

variable {P R : Type} [DecidableEq P]

/-- What a call does to the queues besides the request that it may put into one. -/
structure QueuesRun.Steady (s after : QueuesRun P R) : Prop where
  dequeued : after.dequeued = s.dequeued
  shuttingDown : after.manager.shuttingDown = s.manager.shuttingDown

omit [DecidableEq P] in
theorem QueuesRun.Steady.dequeuedFrom {s after : QueuesRun P R} (steady : s.Steady after)
    (idx : Nat) : after.dequeuedFrom idx = s.dequeuedFrom idx :=
  congrArg (fun dequeued => (dequeued.filter (·.1 = idx)).map (·.2)) steady.dequeued

omit [DecidableEq P] in
theorem Enqueuing.task_eq_none {e : Enqueuing R} : e.task = none ↔ e = .idle := by
  cases e <;> simp [Enqueuing.task]

/-- A scan goes on, or ends with its request in a queue or refused. -/
theorem QueuesRun.proceed_cases (s : QueuesRun P R) {producer : P} {req : R} {exclude : Int}
    (task : (s.producers producer).task = some (req, exclude)) :
    s.Steady (s.proceed producer) ∧
      (((s.proceed producer).accepted = s.accepted ∧
          ((s.proceed producer).producers producer).task = some (req, exclude)) ∨
        (s.proceed producer).producers producer = .idle ∧
          ((s.proceed producer).accepted = s.accepted ∨
            ∃ idx, (s.proceed producer).accepted = s.accepted ++ [⟨idx, req, exclude⟩])) := by
  unfold QueuesRun.proceed
  split
  · rename_i idle
    rw [idle] at task
    cases task
  · rename_i phase
    rw [phase] at task
    cases task
    simp [QueuesRun.move, Enqueuing.task, Steady.mk]
  · rename_i phase
    rw [phase] at task
    cases task
    simp [QueuesRun.move, Enqueuing.task, Steady.mk, QueueManager.advanceCursor]
  · rename_i start i full phase
    rw [phase] at task
    cases task
    unfold QueuesRun.scan
    split
    · split
      · simp [QueuesRun.move, Enqueuing.task, Steady.mk]
      · simp [QueuesRun.move, Enqueuing.task, Steady.mk]
      · rename_i after rc turned
        have pushed : after.shuttingDown = s.manager.shuttingDown ∧ rc = 0 := by
          unfold scanTurn at turned
          split at turned
          · cases turned
          · split at turned
            · cases turned
            · rename_i q found
              split at turned
              · cases turned
              · rename_i room
                cases turned
                simp [QueueManager.set, singleQueuePush, room]
        obtain ⟨shut, rfl⟩ := pushed
        refine ⟨⟨rfl, shut⟩, Or.inr ⟨by simp [QueuesRun.move], Or.inr ⟨_, rfl⟩⟩⟩
    · exact ⟨⟨rfl, rfl⟩, Or.inr ⟨by simp [QueuesRun.move], Or.inl rfl⟩⟩

theorem QueuesRun.enqueueTo_cases (s : QueuesRun P R) (req : R) (queueIndex : Int) :
    s.Steady (s.step (.enqueueTo req queueIndex)) ∧
      (s.step (.enqueueTo req queueIndex)).producers = s.producers ∧
      ((s.step (.enqueueTo req queueIndex)).accepted = s.accepted ∨
        (s.step (.enqueueTo req queueIndex)).accepted =
          s.accepted ++ [⟨queueIndex.toNat, req, -1⟩]) := by
  have shut : (queueManagerEnqueueTo s.manager req queueIndex).1.shuttingDown =
      s.manager.shuttingDown := by
    unfold queueManagerEnqueueTo
    split
    · rfl
    · split
      · rfl
      · split <;> rfl
  refine ⟨⟨rfl, shut⟩, rfl, ?_⟩
  by_cases success : (queueManagerEnqueueTo s.manager req queueIndex).2 = 0
  · exact Or.inr (congrArg (s.accepted ++ ·) (if_pos success))
  · exact Or.inl ((congrArg (s.accepted ++ ·) (if_neg success)).trans (List.append_nil _))

theorem QueuesRun.dequeue_cases (s : QueuesRun P R) {idx : Nat} {after : QueueManager R}
    {req : Option R} (turn : queueManagerDequeueBlocking s.manager idx = some (after, req)) :
    (s.step (.dequeue idx)).accepted = s.accepted ∧
      (s.step (.dequeue idx)).producers = s.producers ∧
      (s.step (.dequeue idx)).manager.shuttingDown = s.manager.shuttingDown ∧
      ∀ other, (s.step (.dequeue idx)).dequeuedFrom other =
        s.dequeuedFrom other ++ if other = idx then req.toList else [] := by
  have shut : after.shuttingDown = s.manager.shuttingDown := by
    unfold queueManagerDequeueBlocking at turn
    split at turn
    · cases turn
    · split at turn
      · cases turn
      · cases turn
        rfl
  have next : s.step (.dequeue idx) =
      { s with manager := after, dequeued := s.dequeued ++ (req.map (idx, ·)).toList } := by
    simp only [QueuesRun.step, QueuesRun.dequeue, turn]
  rw [next]
  refine ⟨rfl, rfl, shut, fun other => ?_⟩
  simp only [QueuesRun.dequeuedFrom, List.filter_append, List.map_append]
  congr 1
  cases req with
  | none => simp
  | some req =>
    by_cases same : other = idx
    · simp [same]
    · simp [same, Ne.symm same]

end Enqueues

namespace HttpWorkerPool

/-- A request that its handler has not put into a queue yet. -/
structure Unsent (s : HttpWorkerPool H Resp) (handler : H) (req : HttpRequest H) : Prop where
  fresh : req.serial < s.serials
  new : ∀ other ∈ s.sent, other.serial ≠ req.serial
  own : ∀ owner, req.completionCtx = some owner → owner = handler ∧ s.completions handler = none

/-- The handler waits for its own request, which a worker has answered or which is still open. -/
structure Waits (s : HttpWorkerPool H Resp) (handler : H) (req : HttpRequest H) : Prop where
  sent : req ∈ s.sent
  own : req.completionCtx = some handler
  done : ∀ resp, s.completions handler = some resp → ∃ idx, ⟨idx, req, resp⟩ ∈ s.processed
  pending : s.completions handler = none → req ∉ s.answered
  first : ∀ r ∈ s.returned, r.req.serial ≠ req.serial

/-- What holds in every state of the pool. -/
structure Serving (s : HttpWorkerPool H Resp) : Prop where
  kept : s.queues.Kept
  served : ∀ idx, s.queues.dequeuedFrom idx = s.processedBy idx ++ s.atWorker idx
  answered : s.answered.Nodup
  distinct : (s.sent.map (·.serial)).Nodup
  fresh : ∀ req ∈ s.sent, req.serial < s.serials
  routed : ∀ entry ∈ s.queues.accepted, entry.req.forWriter = true ↔ entry.queue = 0
  unsent : ∀ handler req, (s.handlers handler).unsent = some req → s.Unsent handler req
  refused : ∀ req ∈ s.refused, req.serial < s.serials ∧
    (∀ other ∈ s.sent, other.serial ≠ req.serial) ∧
    ∀ handler twin, (s.handlers handler).unsent = some twin → twin.serial ≠ req.serial
  apart : ∀ handler other req twin, (s.handlers handler).unsent = some req →
    (s.handlers other).unsent = some twin → req.serial = twin.serial → handler = other
  holder : ∀ handler req, s.handlers handler = .enqueueing req → s.mutex = some handler
  scanning : ∀ req exclude, (s.queues.producers ()).task = some (req, exclude) →
    exclude = 0 ∧ req.forWriter = false ∧ ∃ handler, s.handlers handler = .enqueueing req
  waiting : ∀ handler req, s.handlers handler = .waiting req → s.Waits handler req
  owned : ∀ req ∈ s.sent, ∀ handler, req.completionCtx = some handler → req ∉ s.answered →
    s.handlers handler = .waiting req ∧ s.completions handler = none
  returned : ∀ r ∈ s.returned, r.req.completionCtx = some r.handler ∧
    ∃ idx, ⟨idx, r.req, r.resp⟩ ∈ s.processed
  once : (s.returned.map (·.req.serial)).Nodup
  stopping : s.queues.manager.shuttingDown = s.atStop.isSome
  atStop : ∀ all, s.atStop = some all → ∀ idx, all idx <+: s.queues.acceptedIn idx
  stopped : ∀ idx, s.workers[idx]? = some .stopped → ∃ all, s.atStop = some all ∧
    all idx <+: s.processedBy idx

variable {s : HttpWorkerPool H Resp}

theorem mem_processedBy {idx : Nat} {req : HttpRequest H} :
    req ∈ s.processedBy idx ↔ ∃ resp, ⟨idx, req, resp⟩ ∈ s.processed := by
  simp only [processedBy, List.mem_map, List.mem_filter, decide_eq_true_eq]
  constructor
  · rintro ⟨⟨_, _, resp⟩, ⟨member, rfl⟩, rfl⟩
    exact ⟨resp, member⟩
  · rintro ⟨resp, member⟩
    exact ⟨_, ⟨member, rfl⟩, rfl⟩

theorem mem_answered {req : HttpRequest H} :
    req ∈ s.answered ↔ ∃ idx, req ∈ s.processedBy idx := by
  simp only [mem_processedBy, answered, List.mem_map]
  constructor
  · rintro ⟨⟨idx, _, resp⟩, member, rfl⟩
    exact ⟨idx, resp, member⟩
  · rintro ⟨idx, resp, member⟩
    exact ⟨_, member, rfl⟩

theorem Serving.acceptedIn_eq (serving : s.Serving) (idx : Nat) :
    s.queues.acceptedIn idx =
      s.processedBy idx ++ (s.atWorker idx ++ s.queues.manager.contentsOf idx) := by
  rw [serving.kept.conserved, serving.served, List.append_assoc]

theorem mem_sent_of_acceptedIn {idx : Nat} {req : HttpRequest H}
    (accepted : req ∈ s.queues.acceptedIn idx) : req ∈ s.sent := by
  obtain ⟨entry, member, -, rfl⟩ := QueuesRun.mem_acceptedIn.mp accepted
  exact List.mem_map_of_mem member

theorem Serving.answered_sent (serving : s.Serving) {req : HttpRequest H}
    (answered : req ∈ s.answered) : req ∈ s.sent := by
  obtain ⟨idx, processed⟩ := mem_answered.mp answered
  have accepted : req ∈ s.queues.acceptedIn idx := by
    rw [serving.acceptedIn_eq]
    exact List.mem_append_left _ processed
  exact mem_sent_of_acceptedIn accepted

/-- A request that a worker is at, or that is in a queue, has not been answered. -/
theorem Serving.unanswered (serving : s.Serving) {idx : Nat} {req : HttpRequest H}
    (present : req ∈ s.atWorker idx ++ s.queues.manager.contentsOf idx) : req ∉ s.answered := by
  have accepted : req ∈ s.queues.acceptedIn idx := by
    rw [serving.acceptedIn_eq]
    exact List.mem_append_right _ present
  obtain ⟨entry, member, rfl, rfl⟩ := QueuesRun.mem_acceptedIn.mp accepted
  have apart : (s.queues.accepted.map (·.req)).Nodup := List.Nodup.of_map _ serving.distinct
  obtain ⟨-, nodup, others⟩ := serving.kept.inOneQueue apart member
  intro answered
  obtain ⟨other, processed⟩ := mem_answered.mp answered
  by_cases same : other = entry.queue
  · subst same
    rw [← serving.kept.conserved, serving.acceptedIn_eq] at nodup
    exact List.disjoint_of_nodup_append nodup processed present
  · have absent := others other same
    rw [← serving.kept.conserved, serving.acceptedIn_eq] at absent
    exact absent (List.mem_append_left _ processed)

/-- The same requests are in the queues; a worker may have taken one, or have stopped. -/
theorem Serving.withQueues (serving : s.Serving) {after : QueuesRun Unit (HttpRequest H)}
    {workers : List (HttpWorker H)} (kept : after.Kept)
    (accepted : after.accepted = s.queues.accepted)
    (shuttingDown : after.manager.shuttingDown = s.queues.manager.shuttingDown)
    (served : ∀ idx, after.dequeuedFrom idx =
      s.processedBy idx ++ ((workers[idx]?).map (·.current)).getD [])
    (scanning : ∀ req exclude, (after.producers ()).task = some (req, exclude) →
      exclude = 0 ∧ req.forWriter = false ∧ ∃ handler, s.handlers handler = .enqueueing req)
    (stopped : ∀ idx : Nat, workers[idx]? = some .stopped → ∃ all, s.atStop = some all ∧
      all idx <+: s.processedBy idx) :
    ({ s with queues := after, workers := workers } : HttpWorkerPool H Resp).Serving := by
  have sent : ({ s with queues := after, workers := workers } : HttpWorkerPool H Resp).sent =
      s.sent := congrArg (List.map _) accepted
  have acceptedIn : after.acceptedIn = s.queues.acceptedIn := by
    funext idx
    exact congrArg (fun accepted => (accepted.filter (·.queue = idx)).map (·.req)) accepted
  refine { serving with
    kept := kept
    served := served
    distinct := ?distinct
    fresh := ?fresh
    routed := ?routed
    unsent := ?unsent
    refused := ?refused
    scanning := scanning
    waiting := ?waiting
    owned := ?owned
    stopping := shuttingDown.trans serving.stopping
    atStop := ?atStop
    stopped := stopped }
  case distinct =>
    rw [sent]
    exact serving.distinct
  case fresh =>
    rw [sent]
    exact serving.fresh
  case routed =>
    rw [accepted]
    exact serving.routed
  case unsent =>
    intro handler req unsent
    have before := serving.unsent handler req unsent
    exact ⟨before.fresh, sent ▸ before.new, before.own⟩
  case refused =>
    rw [sent]
    exact serving.refused
  case waiting =>
    intro handler req waiting
    have before := serving.waiting handler req waiting
    exact ⟨sent ▸ before.sent, before.own, before.done, before.pending, before.first⟩
  case owned =>
    rw [sent]
    exact serving.owned
  case atStop =>
    intro all stopped idx
    rw [acceptedIn]
    exact serving.atStop all stopped idx

theorem Serving.one_holder (serving : s.Serving) {handler other : H} {req twin : HttpRequest H}
    (enqueueing : s.handlers handler = .enqueueing req)
    (held : s.handlers other = .enqueueing twin) : other = handler :=
  Option.some.inj ((serving.holder other twin held).symm.trans
    (serving.holder handler req enqueueing))

/-- Only the holder of the mutex is in a scan. -/
theorem Serving.scans (serving : s.Serving) {handler : H} {req scanned : HttpRequest H}
    {exclude : Int} (enqueueing : s.handlers handler = .enqueueing req)
    (task : (s.queues.producers ()).task = some (scanned, exclude)) :
    scanned = req ∧ exclude = 0 ∧ req.forWriter = false := by
  obtain ⟨rfl, reads, other, held⟩ := serving.scanning scanned exclude task
  obtain rfl := serving.one_holder enqueueing held
  obtain rfl := HttpHandler.enqueueing.inj (held.symm.trans enqueueing)
  exact ⟨rfl, rfl, reads⟩

variable [DecidableEq H]

section Handlers

variable {handlers : H → HttpHandler H} {handler other : H} {next phase : HttpHandler H}
  {req : HttpRequest H}

theorem unsent_update (left : next.unsent = none)
    (unsent : (Function.update handlers handler next other).unsent = some req) :
    other ≠ handler ∧ (handlers other).unsent = some req := by
  by_cases same : other = handler
  · rw [same, Function.update_self, left] at unsent
    cases unsent
  · rw [Function.update_of_ne same] at unsent
    exact ⟨same, unsent⟩

theorem entering_update {new : HttpRequest H}
    (unsent : (Function.update handlers handler (.entering new) other).unsent = some req) :
    other = handler ∧ req = new ∨ other ≠ handler ∧ (handlers other).unsent = some req := by
  by_cases same : other = handler
  · rw [same, Function.update_self] at unsent
    exact Or.inl ⟨same, (Option.some.inj unsent).symm⟩
  · rw [Function.update_of_ne same] at unsent
    exact Or.inr ⟨same, unsent⟩

/-- Where a handler is that was not the one that moved. -/
theorem phase_update (moved : next ≠ phase)
    (now : Function.update handlers handler next other = phase) :
    other ≠ handler ∧ handlers other = phase := by
  by_cases same : other = handler
  · rw [same, Function.update_self] at now
    exact absurd now moved
  · rw [Function.update_of_ne same] at now
    exact ⟨same, now⟩

theorem update_phase {before : HttpHandler H} (was : handlers handler = before)
    (stays : handlers other = phase) (moved : before ≠ phase) :
    Function.update handlers handler next other = phase := by
  have different : other ≠ handler := by
    rintro rfl
    exact moved (was.symm.trans stays)
  rw [Function.update_of_ne different, stays]

theorem Serving.apart_update (serving : s.Serving) (left : next.unsent = none) (first second : H)
    (one two : HttpRequest H)
    (unsentOne : (Function.update s.handlers handler next first).unsent = some one)
    (unsentTwo : (Function.update s.handlers handler next second).unsent = some two)
    (serials : one.serial = two.serial) : first = second :=
  serving.apart first second one two (unsent_update left unsentOne).2
    (unsent_update left unsentTwo).2 serials

theorem Serving.scanning_update (serving : s.Serving) {before : HttpHandler H}
    (was : s.handlers handler = before) (moved : ∀ req, before ≠ .enqueueing req)
    (twin : HttpRequest H) (exclude : Int)
    (task : (s.queues.producers ()).task = some (twin, exclude)) :
    exclude = 0 ∧ twin.forWriter = false ∧
      ∃ other, Function.update s.handlers handler next other = .enqueueing twin := by
  obtain ⟨zero, reads, other, held⟩ := serving.scanning twin exclude task
  exact ⟨zero, reads, other, update_phase was held (moved twin)⟩

end Handlers

theorem Serving.dispatch (serving : s.Serving) {handler : H} (idle : s.handlers handler = .idle)
    (payload : CString) (async : Bool) :
    (s.step (.dispatch handler payload async)).Serving := by
  simp only [step, idle]
  have others : ∀ other, other ≠ handler →
      (if async then s.completions else Function.update s.completions handler none) other =
        s.completions other := by
    intro other different
    cases async
    · exact Function.update_of_ne different _ _
    · rfl
  refine { serving with
    fresh := ?fresh
    unsent := ?unsent
    refused := ?refused
    apart := ?apart
    holder := ?holder
    scanning := serving.scanning_update idle (by simp)
    waiting := ?waiting
    owned := ?owned }
  case fresh =>
    intro req sent
    exact Nat.lt_succ_of_lt (serving.fresh req sent)
  case unsent =>
    intro other req unsent
    rcases entering_update unsent with ⟨rfl, rfl⟩ | ⟨different, unsent⟩
    · refine ⟨Nat.lt_succ_self _, fun twin sent => Nat.ne_of_lt (serving.fresh twin sent), ?_⟩
      intro owner own
      cases async with
      | false =>
        cases own
        exact ⟨rfl, Function.update_self ..⟩
      | true => cases own
    · have before := serving.unsent other req unsent
      refine ⟨Nat.lt_succ_of_lt before.fresh, before.new, fun owner own => ?_⟩
      exact ⟨(before.own owner own).1, (others other different).trans (before.own owner own).2⟩
  case refused =>
    intro req refused
    obtain ⟨old, absent, different⟩ := serving.refused req refused
    refine ⟨Nat.lt_succ_of_lt old, absent, fun other twin unsent => ?_⟩
    rcases entering_update unsent with ⟨-, rfl⟩ | ⟨-, unsent⟩
    · exact Nat.ne_of_gt old
    · exact different other twin unsent
  case apart =>
    intro first second req twin unsent unsentTwin serials
    rcases entering_update unsent with ⟨rfl, rfl⟩ | ⟨-, unsent⟩
    · rcases entering_update unsentTwin with ⟨rfl, -⟩ | ⟨-, unsentTwin⟩
      · rfl
      · exact absurd serials (Nat.ne_of_gt (serving.unsent second twin unsentTwin).fresh)
    · rcases entering_update unsentTwin with ⟨-, rfl⟩ | ⟨-, unsentTwin⟩
      · exact absurd serials (Nat.ne_of_lt (serving.unsent first req unsent).fresh)
      · exact serving.apart first second req twin unsent unsentTwin serials
  case holder =>
    intro other req enqueueing
    exact serving.holder other req (phase_update (by simp) enqueueing).2
  case waiting =>
    intro other req waiting
    obtain ⟨different, waiting⟩ := phase_update (by simp) waiting
    have before := serving.waiting other req waiting
    refine ⟨before.sent, before.own, fun resp done => ?_, fun none => ?_, before.first⟩
    · exact before.done resp ((others other different).symm.trans done)
    · exact before.pending ((others other different).symm.trans none)
  case owned =>
    intro req sent other own unanswered
    obtain ⟨waiting, none⟩ := serving.owned req sent other own unanswered
    have different : other ≠ handler := by
      rintro rfl
      cases idle.symm.trans waiting
    exact ⟨update_phase idle waiting (by simp), (others other different).trans none⟩

theorem Serving.lock (serving : s.Serving) {handler : H} {req : HttpRequest H}
    (entering : s.handlers handler = .entering req) (free : s.mutex = none) :
    (s.step (.lock handler)).Serving := by
  simp only [step, entering, free]
  have unsent : ∀ other, (Function.update s.handlers handler (.enqueueing req) other).unsent =
      (s.handlers other).unsent := by
    intro other
    by_cases same : other = handler
    · subst same
      rw [Function.update_self, entering]
      rfl
    · rw [Function.update_of_ne same]
  refine { serving with
    unsent := ?unsent
    refused := ?refused
    apart := ?apart
    holder := ?holder
    scanning := serving.scanning_update entering (by simp)
    waiting := ?waiting
    owned := ?owned }
  case unsent =>
    intro other req unsentReq
    have before := serving.unsent other req ((unsent other).symm.trans unsentReq)
    exact ⟨before.fresh, before.new, before.own⟩
  case refused =>
    intro req refused
    obtain ⟨old, absent, different⟩ := serving.refused req refused
    exact ⟨old, absent, fun other twin unsentTwin =>
      different other twin ((unsent other).symm.trans unsentTwin)⟩
  case apart =>
    intro first second req twin unsentReq unsentTwin serials
    exact serving.apart first second req twin ((unsent first).symm.trans unsentReq)
      ((unsent second).symm.trans unsentTwin) serials
  case holder =>
    intro other req enqueueing
    by_cases same : other = handler
    · rw [same]
    · simp only [Function.update_of_ne same] at enqueueing
      cases free.symm.trans (serving.holder other req enqueueing)
  case waiting =>
    intro other req waiting
    have before := serving.waiting other req (phase_update (by simp) waiting).2
    exact ⟨before.sent, before.own, before.done, before.pending, before.first⟩
  case owned =>
    intro req sent other own unanswered
    obtain ⟨waiting, none⟩ := serving.owned req sent other own unanswered
    exact ⟨update_phase entering waiting (by simp), none⟩

/-- The handler's enqueue was refused. -/
theorem Serving.release (serving : s.Serving) {handler : H} {req : HttpRequest H}
    (enqueueing : s.handlers handler = .enqueueing req)
    (alone : s.queues.producers () = .idle) :
    ({ s with
      mutex := none
      handlers := Function.update s.handlers handler .idle
      refused := s.refused ++ [req] } : HttpWorkerPool H Resp).Serving := by
  have gone : (s.handlers handler).unsent = some req := by
    rw [enqueueing]
    rfl
  have unsent := serving.unsent handler req gone
  refine { serving with
    unsent := ?unsent
    refused := ?refused
    apart := serving.apart_update rfl
    holder := ?holder
    scanning := ?scanning
    waiting := ?waiting
    owned := ?owned }
  case unsent =>
    intro other req unsent
    have before := serving.unsent other req (unsent_update rfl unsent).2
    exact ⟨before.fresh, before.new, before.own⟩
  case refused =>
    intro refusedReq member
    rcases List.mem_append.mp member with old | new
    · obtain ⟨before, absent, different⟩ := serving.refused refusedReq old
      exact ⟨before, absent, fun other twin unsentTwin =>
        different other twin (unsent_update rfl unsentTwin).2⟩
    · rw [List.mem_singleton.mp new]
      refine ⟨unsent.fresh, unsent.new, fun other twin unsentTwin serials => ?_⟩
      obtain ⟨different, unsentTwin⟩ := unsent_update rfl unsentTwin
      exact different (serving.apart other handler twin req unsentTwin gone serials)
  case holder =>
    intro other req held
    obtain ⟨different, held⟩ := phase_update (by simp) held
    exact absurd (serving.one_holder enqueueing held) different
  case scanning =>
    intro req exclude task
    dsimp only at task
    rw [alone] at task
    cases task
  case waiting =>
    intro other req waiting
    have before := serving.waiting other req (phase_update (by simp) waiting).2
    exact ⟨before.sent, before.own, before.done, before.pending, before.first⟩
  case owned =>
    intro req sent other own unanswered
    obtain ⟨waiting, none⟩ := serving.owned req sent other own unanswered
    exact ⟨update_phase enqueueing waiting (by simp), none⟩

/-- The handler's request went into a queue. -/
theorem Serving.accept (serving : s.Serving) {handler : H} {req : HttpRequest H}
    (enqueueing : s.handlers handler = .enqueueing req) {after : QueuesRun Unit (HttpRequest H)}
    (kept : after.Kept) (steady : s.queues.Steady after) (alone : after.producers () = .idle)
    {idx : Nat} {exclude : Int}
    (grown : after.accepted = s.queues.accepted ++ [⟨idx, req, exclude⟩])
    (routed : req.forWriter = true ↔ idx = 0) :
    ({ s with
      queues := after
      mutex := none
      handlers := Function.update s.handlers handler
        (if req.completionCtx.isSome then .waiting req else .idle) } :
      HttpWorkerPool H Resp).Serving := by
  have gone : (s.handlers handler).unsent = some req := by
    rw [enqueueing]
    rfl
  have unsent := serving.unsent handler req gone
  have absent : req ∉ s.sent := fun member => unsent.new req member rfl
  have grownSent : ({ s with
      queues := after
      mutex := none
      handlers := Function.update s.handlers handler
        (if req.completionCtx.isSome then .waiting req else .idle) } :
      HttpWorkerPool H Resp).sent = s.sent ++ [req] := by
    simp only [sent, grown, List.map_append, List.map_cons, List.map_nil]
  have left : (if req.completionCtx.isSome then .waiting req else .idle : HttpHandler H).unsent =
      none := by
    split <;> rfl
  refine { serving with
    kept := kept
    served := ?served
    distinct := ?distinct
    fresh := ?fresh
    routed := ?routed
    unsent := ?unsent
    refused := ?refused
    apart := serving.apart_update left
    holder := ?holder
    scanning := ?scanning
    waiting := ?waiting
    owned := ?owned
    stopping := steady.shuttingDown.trans serving.stopping
    atStop := ?atStop }
  case served =>
    intro idx
    exact (steady.dequeuedFrom idx).trans (serving.served idx)
  case distinct =>
    rw [grownSent, List.map_append]
    refine List.nodup_append.mpr ⟨serving.distinct, List.nodup_singleton _, ?_⟩
    rintro _ member _ last rfl
    obtain ⟨other, sent, serial⟩ := List.mem_map.mp member
    exact unsent.new other sent (serial.trans (List.mem_singleton.mp last))
  case fresh =>
    intro other member
    rw [grownSent] at member
    rcases List.mem_append.mp member with old | new
    · exact serving.fresh other old
    · rw [List.mem_singleton.mp new]
      exact unsent.fresh
  case routed =>
    intro entry member
    rw [grown] at member
    rcases List.mem_append.mp member with old | new
    · exact serving.routed entry old
    · rw [List.mem_singleton.mp new]
      exact routed
  case unsent =>
    intro other twin unsentTwin
    obtain ⟨different, unsentTwin⟩ := unsent_update left unsentTwin
    have before := serving.unsent other twin unsentTwin
    refine ⟨before.fresh, fun third member => ?_, before.own⟩
    rw [grownSent] at member
    rcases List.mem_append.mp member with old | new
    · exact before.new third old
    · rw [List.mem_singleton.mp new]
      intro serials
      exact different (serving.apart other handler twin req unsentTwin gone serials.symm)
  case refused =>
    intro refusedReq member
    obtain ⟨before, absent, different⟩ := serving.refused refusedReq member
    refine ⟨before, fun third sent => ?_, fun other twin unsentTwin =>
      different other twin (unsent_update left unsentTwin).2⟩
    rw [grownSent] at sent
    rcases List.mem_append.mp sent with old | new
    · exact absent third old
    · rw [List.mem_singleton.mp new]
      exact different handler req gone
  case holder =>
    intro other twin held
    have moved : (if req.completionCtx.isSome then .waiting req else .idle : HttpHandler H) ≠
        .enqueueing twin := by
      intro same
      rw [same] at left
      cases left
    obtain ⟨different, held⟩ := phase_update moved held
    exact absurd (serving.one_holder enqueueing held) different
  case scanning =>
    intro twin exclude task
    dsimp only at task
    rw [alone] at task
    cases task
  case waiting =>
    intro other twin waiting
    by_cases same : other = handler
    · subst same
      have last : req ∈ ({ s with
          queues := after
          mutex := none
          handlers := Function.update s.handlers other
            (if req.completionCtx.isSome then .waiting req else .idle) } :
          HttpWorkerPool H Resp).sent := by
        rw [grownSent]
        exact List.mem_append_right _ (List.mem_singleton_self _)
      simp only [Function.update_self] at waiting
      cases context : req.completionCtx with
      | none =>
        rw [context] at waiting
        cases waiting
      | some owner =>
        rw [context] at waiting
        cases waiting
        obtain ⟨rfl, none⟩ := unsent.own owner context
        refine ⟨last, context, fun resp done => ?_, fun _ answered => ?_, fun r member serial => ?_⟩
        · cases none.symm.trans done
        · exact absent (serving.answered_sent answered)
        · obtain ⟨-, worker, processed⟩ := serving.returned r member
          have answered : r.req ∈ s.answered := List.mem_map_of_mem (f := (·.req)) processed
          exact unsent.new r.req (serving.answered_sent answered) serial
    · simp only [Function.update_of_ne same] at waiting
      have before := serving.waiting other twin waiting
      refine ⟨?_, before.own, before.done, before.pending, before.first⟩
      rw [grownSent]
      exact List.mem_append_left _ before.sent
  case owned =>
    intro twin member other own unanswered
    rw [grownSent] at member
    rcases List.mem_append.mp member with old | new
    · obtain ⟨waiting, none⟩ := serving.owned twin old other own unanswered
      exact ⟨update_phase enqueueing waiting (by simp), none⟩
    · rw [List.mem_singleton.mp new] at own ⊢
      obtain ⟨rfl, none⟩ := unsent.own other own
      refine ⟨?_, none⟩
      dsimp only
      rw [Function.update_self, own]
      rfl
  case atStop =>
    intro all stopped at_idx
    refine (serving.atStop all stopped at_idx).trans ?_
    simp only [QueuesRun.acceptedIn, grown, List.filter_append, List.map_append]
    exact List.prefix_append _ _

theorem Serving.finish (serving : s.Serving) {handler : H} {req : HttpRequest H}
    (enqueueing : s.handlers handler = .enqueueing req) {after : QueuesRun Unit (HttpRequest H)}
    (kept : after.Kept) (steady : s.queues.Steady after) (alone : after.producers () = .idle)
    (outcome : after.accepted = s.queues.accepted ∨ ∃ idx exclude,
      after.accepted = s.queues.accepted ++ [⟨idx, req, exclude⟩] ∧
        (req.forWriter = true ↔ idx = 0)) :
    (s.finish handler req after).Serving := by
  rcases outcome with same | ⟨idx, exclude, grown, routed⟩
  · have queued : ({ s with queues := after, workers := s.workers } :
        HttpWorkerPool H Resp).Serving := by
      refine serving.withQueues kept same steady.shuttingDown
        (fun idx => (steady.dequeuedFrom idx).trans (serving.served idx)) ?_ serving.stopped
      intro req exclude task
      rw [alone] at task
      cases task
    have released := queued.release enqueueing alone
    simpa [HttpWorkerPool.finish, same] using released
  · have accepted := serving.accept enqueueing kept steady alone grown routed
    simpa [HttpWorkerPool.finish, grown] using accepted

theorem Serving.enqueueTurn (serving : s.Serving) (handler : H) :
    (s.enqueueTurn handler).Serving := by
  unfold HttpWorkerPool.enqueueTurn
  split
  · rename_i req enqueueing
    split
    · rename_i writes
      obtain ⟨steady, producers, outcome⟩ := s.queues.enqueueTo_cases req 0
      have alone : s.queues.producers () = .idle := by
        cases task : (s.queues.producers ()).task with
        | none => exact Enqueuing.task_eq_none.mp task
        | some scan =>
          obtain ⟨-, -, reads⟩ := serving.scans enqueueing task
          cases writes.symm.trans reads
      refine serving.finish enqueueing (serving.kept.step _) steady ?_ (outcome.imp_right ?_)
      · rw [producers]
        exact alone
      · intro grown
        exact ⟨_, _, grown, by simp [writes]⟩
    · rename_i reads
      have reads : req.forWriter = false := Bool.eq_false_iff.mpr reads
      split
      · rename_i idle
        have started : s.queues.step (.enqueueExcluding () req 0) =
            s.queues.move () (.started req 0 s.queues.manager.enqueueCursor) := by
          simp only [QueuesRun.step, QueuesRun.enqueueExcluding, idle]
        refine serving.withQueues (serving.kept.step _) ?_ ?_ ?_ ?_ serving.stopped
        · rw [started]
          rfl
        · rw [started]
          rfl
        · rw [started]
          exact serving.served
        · intro scanned exclude task
          rw [started] at task
          simp only [QueuesRun.move, Function.update_self, Enqueuing.task, Option.some.injEq,
            Prod.mk.injEq] at task
          obtain ⟨rfl, rfl⟩ := task
          exact ⟨rfl, reads, handler, enqueueing⟩
      · rename_i busy
        cases task : (s.queues.producers ()).task with
        | none => exact absurd (Enqueuing.task_eq_none.mp task) busy
        | some scan =>
          obtain ⟨scanned, exclude⟩ := scan
          obtain ⟨rfl, rfl, -⟩ := serving.scans enqueueing task
          obtain ⟨steady, outcome⟩ := s.queues.proceed_cases task
          have kept := serving.kept.step (.proceed ())
          dsimp only
          split
          · rename_i alone
            refine serving.finish enqueueing kept steady alone ?_
            rcases outcome with ⟨-, still⟩ | ⟨-, same | ⟨idx, grown⟩⟩
            · rw [show (s.queues.proceed ()).producers () = .idle from alone] at still
              cases still
            · exact Or.inl same
            · refine Or.inr ⟨idx, 0, grown, ?_⟩
              have placed := kept.placed ⟨idx, scanned, 0⟩
                (grown ▸ List.mem_append_right _ (List.mem_singleton_self _))
              have other : idx ≠ 0 := fun zero => placed.2 (by rw [zero]; rfl)
              simp [reads, other]
          · rename_i scanning
            rcases outcome with ⟨same, still⟩ | ⟨alone, -⟩
            · refine serving.withQueues kept same steady.shuttingDown
                (fun idx => (steady.dequeuedFrom idx).trans (serving.served idx)) ?_ serving.stopped
              intro req exclude task
              cases still.symm.trans task
              exact ⟨rfl, reads, handler, enqueueing⟩
            · exact absurd alone scanning
  · exact serving

end HttpWorkerPool

end OciWrapper.Infra
