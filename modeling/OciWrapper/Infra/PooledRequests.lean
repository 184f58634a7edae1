import OciWrapper.Infra.HttpWorkerPool

namespace OciWrapper.Infra

namespace HttpWorkerPool

variable {H Resp : Type} {s : HttpWorkerPool H Resp}

theorem start_serving {queueCount queueDepth : Int} {ready : Bool} {started : Nat → Bool}
    (created : httpWorkerPoolStart queueCount queueDepth ready started = some s) : s.Serving := by
  simp only [httpWorkerPoolStart, Option.map_eq_some_iff] at created
  obtain ⟨qm, created, rfl⟩ := created
  obtain ⟨sound, empty, running⟩ := QueueManager.create_sound created
  have fresh : ∀ (idx : Nat) (worker : HttpWorker H),
      ((List.range (if queueCount > 0 then queueCount else 5).toNat).map fun i =>
        if started i then HttpWorker.waiting else .absent)[idx]? = some worker →
      worker = .waiting ∨ worker = .absent := by
    intro idx worker found
    obtain ⟨i, -, rfl⟩ := List.mem_map.mp (List.mem_of_getElem? found)
    split
    · exact Or.inl rfl
    · exact Or.inr rfl
  constructor
  case kept => exact QueuesRun.start_kept sound empty
  case served =>
    intro idx
    symm
    simp only [processedBy, atWorker, List.filter_nil, List.map_nil, List.nil_append]
    cases found : ((List.range (if queueCount > 0 then queueCount else 5).toNat).map fun i =>
        if started i then HttpWorker.waiting else (.absent : HttpWorker H))[idx]? with
    | none => rfl
    | some worker => rcases fresh idx worker found with rfl | rfl <;> rfl
  case answered => exact List.nodup_nil
  case distinct => exact List.nodup_nil
  case fresh => simp [sent, QueuesRun.start]
  case routed => simp [QueuesRun.start]
  case unsent => simp [HttpHandler.unsent]
  case refused => simp
  case apart => simp [HttpHandler.unsent]
  case holder => simp
  case scanning => simp [QueuesRun.start, Enqueuing.task]
  case waiting => simp
  case owned => simp [sent, QueuesRun.start]
  case returned => simp
  case once => exact List.nodup_nil
  case stopping => exact running
  case atStop => simp
  case stopped =>
    intro idx ended
    rcases fresh idx _ ended with absent | absent <;> cases absent

/-- Where the requests of a pool are, and what its handlers were given. -/
structure Serves (s : HttpWorkerPool H Resp) : Prop where
  ordered : ∀ idx, s.queues.acceptedIn idx =
    s.processedBy idx ++ (s.atWorker idx ++ s.queues.manager.contentsOf idx)
  routed : ∀ entry ∈ s.queues.accepted, entry.req.forWriter = true ↔ entry.queue = 0
  answered : s.answered.Nodup
  waiting : ∀ handler req, s.handlers handler = .waiting req → req.completionCtx = some handler ∧
    match s.completions handler with
    | some resp => ∃ idx, ⟨idx, req, resp⟩ ∈ s.processed
    | none => ∃ idx, req ∈ s.atWorker idx ++ s.queues.manager.contentsOf idx ∧
      (s.atWorker idx ++ s.queues.manager.contentsOf idx).Nodup ∧
      ∀ other ≠ idx, req ∉ s.atWorker other ++ s.queues.manager.contentsOf other
  returned : ∀ r ∈ s.returned, r.req.completionCtx = some r.handler ∧
    ∃ idx, ⟨idx, r.req, r.resp⟩ ∈ s.processed
  once : (s.returned.map (·.req.serial)).Nodup
  refused : ∀ req ∈ s.refused, req ∉ s.sent
  stopped : ∀ idx, s.workers[idx]? = some .stopped → ∃ all, s.atStop = some all ∧
    all idx <+: s.processedBy idx

/-- A request that was accepted and not answered is at one worker or in one queue. -/
theorem Serving.unserved (serving : s.Serving) {req : HttpRequest H} (member : req ∈ s.sent)
    (unanswered : req ∉ s.answered) :
    ∃ idx, req ∈ s.atWorker idx ++ s.queues.manager.contentsOf idx ∧
      (s.atWorker idx ++ s.queues.manager.contentsOf idx).Nodup ∧
      ∀ other ≠ idx, req ∉ s.atWorker other ++ s.queues.manager.contentsOf other := by
  obtain ⟨entry, accepted, rfl⟩ := List.mem_map.mp member
  have apart : (s.queues.accepted.map (·.req)).Nodup := List.Nodup.of_map _ serving.distinct
  obtain ⟨present, nodup, others⟩ := serving.kept.inOneQueue apart accepted
  rw [← serving.kept.conserved, serving.acceptedIn_eq] at present nodup
  refine ⟨entry.queue, ?_, nodup.of_append_right, fun other different elsewhere => ?_⟩
  · refine (List.mem_append.mp present).resolve_left fun processed => ?_
    exact unanswered (mem_answered.mpr ⟨_, processed⟩)
  · have absent := others other different
    rw [← serving.kept.conserved, serving.acceptedIn_eq] at absent
    exact absent (List.mem_append_right _ elsewhere)

theorem Serving.serves (serving : s.Serving) : s.Serves := by
  refine ⟨serving.acceptedIn_eq, serving.routed, serving.answered, fun handler req waiting => ?_,
    serving.returned, serving.once, fun req refused sent => ?_, serving.stopped⟩
  · have waits := serving.waiting handler req waiting
    refine ⟨waits.own, ?_⟩
    split
    · rename_i resp done
      exact waits.done resp done
    · rename_i none
      exact serving.unserved waits.sent (waits.pending none)
  · exact (serving.refused req refused).2.1 req sent rfl

theorem atWorker_set (s : HttpWorkerPool H Resp) {idx : Nat} {before : HttpWorker H}
    (found : s.workers[idx]? = some before) (worker : HttpWorker H) (other : Nat) :
    (((s.workers.set idx worker)[other]?).map (·.current)).getD [] =
      if other = idx then worker.current else s.atWorker other := by
  obtain ⟨inside, -⟩ := List.getElem?_eq_some_iff.mp found
  by_cases same : other = idx
  · subst same
    simp [List.getElem?_set_self inside]
  · rw [List.getElem?_set_ne (Ne.symm same), if_neg same]
    rfl

theorem atWorker_found {idx : Nat} {worker : HttpWorker H}
    (found : s.workers[idx]? = some worker) : s.atWorker idx = worker.current := by
  simp [atWorker, found]

/-- A worker that finds its queue empty after the shutdown has processed all that the queue
accepted. -/
theorem Serving.workerStops (serving : s.Serving) {idx : Nat} {after : QueueManager (HttpRequest H)}
    (found : s.workers[idx]? = some .waiting)
    (turn : queueManagerDequeueBlocking s.queues.manager idx = some (after, none)) :
    ({ s with
      queues := s.queues.step (.dequeue idx)
      workers := s.workers.set idx .stopped } : HttpWorkerPool H Resp).Serving := by
  obtain ⟨accepted, producers, shut, dequeued⟩ := s.queues.dequeue_cases turn
  obtain ⟨first, -, -, -, shutting⟩ := serving.kept.dequeueBlocking turn
  refine serving.withQueues (serving.kept.step _) accepted shut (fun other => ?_) ?_ ?_
  · rw [dequeued, atWorker_set s found, serving.served]
    by_cases same : other = idx
    · subst same
      simp [atWorker_found found, HttpWorker.current]
    · simp [same]
  · rw [producers]
    exact serving.scanning
  · intro other ended
    by_cases same : other = idx
    · subst same
      have stopping := serving.stopping
      rw [shutting rfl] at stopping
      obtain ⟨all, stop⟩ := Option.isSome_iff_exists.mp stopping.symm
      refine ⟨all, stop, ?_⟩
      have before := serving.atStop all stop other
      have empty : s.queues.manager.contentsOf other = [] := List.head?_eq_none_iff.mp first.symm
      rw [serving.acceptedIn_eq, empty, atWorker_found found] at before
      simpa [HttpWorker.current] using before
    · rw [List.getElem?_set_ne (Ne.symm same)] at ended
      exact serving.stopped other ended

theorem Serving.workerTakes (serving : s.Serving) {idx : Nat} {after : QueueManager (HttpRequest H)}
    {req : HttpRequest H} (found : s.workers[idx]? = some .waiting)
    (turn : queueManagerDequeueBlocking s.queues.manager idx = some (after, some req)) :
    ({ s with
      queues := s.queues.step (.dequeue idx)
      workers := s.workers.set idx (.processing req) } : HttpWorkerPool H Resp).Serving := by
  obtain ⟨accepted, producers, shut, dequeued⟩ := s.queues.dequeue_cases turn
  obtain ⟨inside, -⟩ := List.getElem?_eq_some_iff.mp found
  refine serving.withQueues (serving.kept.step _) accepted shut (fun other => ?_) ?_ ?_
  · rw [dequeued, atWorker_set s found, serving.served]
    by_cases same : other = idx
    · subst same
      simp [atWorker_found found, HttpWorker.current]
    · simp [same]
  · rw [producers]
    exact serving.scanning
  · intro other ended
    by_cases same : other = idx
    · subst same
      rw [List.getElem?_set_self inside] at ended
      cases ended
    · rw [List.getElem?_set_ne (Ne.symm same)] at ended
      exact serving.stopped other ended

variable [DecidableEq H]

theorem completed_of_ne (s : HttpWorkerPool H Resp) {req : HttpRequest H} (resp : Resp)
    {handler : H} (other : req.completionCtx ≠ some handler) :
    s.completed req resp handler = s.completions handler := by
  cases context : req.completionCtx with
  | none => simp only [completed, context]
  | some owner =>
    have different : handler ≠ owner := by
      rintro rfl
      exact other context
    simp only [completed, context, Function.update_of_ne different]

theorem completed_of_eq (s : HttpWorkerPool H Resp) {req : HttpRequest H} (resp : Resp)
    {handler : H} (own : req.completionCtx = some handler) :
    s.completed req resp handler = some resp := by
  unfold completed
  rw [own]
  exact Function.update_self ..

theorem Serving.workerAnswers (serving : s.Serving) {idx : Nat} {req : HttpRequest H}
    (found : s.workers[idx]? = some (.processing req)) (resp : Resp) :
    ({ s with
      workers := s.workers.set idx .waiting
      processed := s.processed ++ [⟨idx, req, resp⟩]
      completions := s.completed req resp } : HttpWorkerPool H Resp).Serving := by
  obtain ⟨inside, -⟩ := List.getElem?_eq_some_iff.mp found
  have present : req ∈ s.atWorker idx ++ s.queues.manager.contentsOf idx := by
    rw [atWorker_found found]
    exact List.mem_append_left _ (List.mem_singleton_self _)
  have unanswered : req ∉ s.answered := serving.unanswered present
  have accepted : req ∈ s.queues.acceptedIn idx := by
    rw [serving.acceptedIn_eq]
    exact List.mem_append_right _ present
  have member : req ∈ s.sent := mem_sent_of_acceptedIn accepted
  have owner : ∀ handler, req.completionCtx = some handler →
      s.handlers handler = .waiting req ∧ s.completions handler = none := fun handler own =>
    serving.owned req member handler own unanswered
  have grown : ∀ other, ((s.processed ++ [(⟨idx, req, resp⟩ : HttpAnswer H Resp)]).filter
      (·.worker = other)).map (·.req) =
      s.processedBy other ++ if other = idx then [req] else [] := by
    intro other
    rw [List.filter_append, List.map_append]
    by_cases same : other = idx
    · subst same
      simp [processedBy]
    · simp [processedBy, same, Ne.symm same]
  have answered : ({ s with
      workers := s.workers.set idx .waiting
      processed := s.processed ++ [⟨idx, req, resp⟩]
      completions := s.completed req resp } : HttpWorkerPool H Resp).answered =
      s.answered ++ [req] := by
    simp [HttpWorkerPool.answered]
  refine { serving with
    served := ?served
    answered := ?answered
    unsent := ?unsent
    waiting := ?waiting
    owned := ?owned
    returned := ?returned
    stopped := ?stopped }
  case served =>
    intro other
    refine Eq.trans ?_ (congrArg₂ (· ++ ·) (grown other).symm
      (atWorker_set s found .waiting other).symm)
    rw [serving.served]
    by_cases same : other = idx
    · subst same
      simp [atWorker_found found, HttpWorker.current]
    · simp [same]
  case answered =>
    rw [answered]
    refine List.nodup_append.mpr ⟨serving.answered, List.nodup_singleton _, ?_⟩
    rintro _ before _ last rfl
    rw [List.mem_singleton.mp last] at before
    exact unanswered before
  case unsent =>
    intro other twin unsent
    have before := serving.unsent other twin unsent
    refine ⟨before.fresh, before.new, fun handler own => ?_⟩
    obtain ⟨rfl, none⟩ := before.own handler own
    refine ⟨rfl, (completed_of_ne s resp fun same => ?_).trans none⟩
    dsimp only at unsent
    rw [(owner handler same).1] at unsent
    cases unsent
  case waiting =>
    intro other twin waiting
    have before := serving.waiting other twin waiting
    refine ⟨before.sent, before.own, fun given done => ?_, fun none => ?_, before.first⟩
    · by_cases own : req.completionCtx = some other
      · cases HttpHandler.waiting.inj (waiting.symm.trans (owner other own).1)
        cases (completed_of_eq s resp own).symm.trans done
        exact ⟨idx, List.mem_append_right _ (List.mem_singleton_self _)⟩
      · obtain ⟨worker, processed⟩ :=
          before.done given ((completed_of_ne s resp own).symm.trans done)
        exact ⟨worker, List.mem_append_left _ processed⟩
    · have foreign : req.completionCtx ≠ some other := by
        intro own
        cases (completed_of_eq s resp own).symm.trans none
      have pending := before.pending ((completed_of_ne s resp foreign).symm.trans none)
      intro later
      rw [answered] at later
      rcases List.mem_append.mp later with old | new
      · exact pending old
      · rw [List.mem_singleton.mp new] at before
        exact foreign before.own
  case owned =>
    intro twin sent other own later
    rw [answered] at later
    obtain ⟨waiting, none⟩ := serving.owned twin sent other own fun old =>
      later (List.mem_append_left _ old)
    refine ⟨waiting, (completed_of_ne s resp fun same => ?_).trans none⟩
    have twins := HttpHandler.waiting.inj (waiting.symm.trans (owner other same).1)
    exact later (List.mem_append_right _ (List.mem_singleton.mpr twins))
  case returned =>
    intro r member
    obtain ⟨own, worker, processed⟩ := serving.returned r member
    exact ⟨own, worker, List.mem_append_left _ processed⟩
  case stopped =>
    intro other ended
    by_cases same : other = idx
    · subst same
      dsimp only at ended
      rw [List.getElem?_set_self inside] at ended
      cases ended
    · dsimp only at ended
      rw [List.getElem?_set_ne (Ne.symm same)] at ended
      obtain ⟨all, stop, front⟩ := serving.stopped other ended
      refine ⟨all, stop, ?_⟩
      have before : all other <+: s.processedBy other ++ if other = idx then [req] else [] :=
        front.trans (List.prefix_append _ _)
      rw [← grown other] at before
      exact before

theorem Serving.workerTurn (serving : s.Serving) (idx : Nat) (resp : Resp) :
    (s.workerTurn idx resp).Serving := by
  unfold HttpWorkerPool.workerTurn
  split
  · rename_i found
    split
    · exact serving
    · rename_i turn
      exact serving.workerStops found turn
    · rename_i turn
      exact serving.workerTakes found turn
  · rename_i req found
    exact serving.workerAnswers found resp
  · exact serving

theorem Serving.wake (serving : s.Serving) (handler : H) : (s.step (.wake handler)).Serving := by
  simp only [step]
  split
  · rename_i req resp waiting done
    have waits := serving.waiting handler req waiting
    refine { serving with
      unsent := ?unsent
      refused := ?refused
      apart := serving.apart_update rfl
      holder := ?holder
      scanning := serving.scanning_update waiting (by simp)
      waiting := ?waiting
      owned := ?owned
      returned := ?returned
      once := ?once }
    case unsent =>
      intro other twin unsent
      have before := serving.unsent other twin (unsent_update rfl unsent).2
      exact ⟨before.fresh, before.new, before.own⟩
    case refused =>
      intro req refused
      obtain ⟨old, absent, different⟩ := serving.refused req refused
      exact ⟨old, absent, fun other twin unsent =>
        different other twin (unsent_update rfl unsent).2⟩
    case holder =>
      intro other twin held
      exact serving.holder other twin (phase_update (by simp) held).2
    case waiting =>
      intro other twin waitingTwin
      obtain ⟨different, waitingTwin⟩ := phase_update (by simp) waitingTwin
      have before := serving.waiting other twin waitingTwin
      refine ⟨before.sent, before.own, before.done, before.pending, fun r member serial => ?_⟩
      rcases List.mem_append.mp member with old | new
      · exact before.first r old serial
      · rw [List.mem_singleton.mp new] at serial
        have twins := List.inj_on_of_nodup_map serving.distinct waits.sent before.sent serial
        rw [← twins] at before
        exact different (Option.some.inj (before.own.symm.trans waits.own))
    case owned =>
      intro twin sent other own unanswered
      obtain ⟨waitingTwin, none⟩ := serving.owned twin sent other own unanswered
      have different : other ≠ handler := by
        rintro rfl
        cases done.symm.trans none
      exact ⟨(Function.update_of_ne different _ _).trans waitingTwin, none⟩
    case returned =>
      intro r member
      rcases List.mem_append.mp member with old | new
      · exact serving.returned r old
      · rw [List.mem_singleton.mp new]
        exact ⟨waits.own, waits.done resp done⟩
    case once =>
      rw [List.map_append]
      refine List.nodup_append.mpr ⟨serving.once, List.nodup_singleton _, ?_⟩
      rintro _ member _ last rfl
      obtain ⟨r, before, serial⟩ := List.mem_map.mp member
      exact waits.first r before (serial.trans (List.mem_singleton.mp last))
  · exact serving

theorem Serving.stop (serving : s.Serving) : (s.step .stop).Serving := by
  have late : ∀ all, s.atStop = some all → s.atStop.getD s.queues.acceptedIn = all := by
    intro all stop
    rw [stop]
    rfl
  refine { serving with
    kept := serving.kept.step .shutdown
    unsent := ?unsent
    waiting := ?waiting
    stopping := rfl
    atStop := ?atStop
    stopped := ?stopped }
  case unsent =>
    intro handler req unsent
    have before := serving.unsent handler req unsent
    exact ⟨before.fresh, before.new, before.own⟩
  case waiting =>
    intro handler req waiting
    have before := serving.waiting handler req waiting
    exact ⟨before.sent, before.own, before.done, before.pending, before.first⟩
  case atStop =>
    rintro _ ⟨⟩ idx
    cases stop : s.atStop with
    | none => exact List.prefix_refl _
    | some all => exact serving.atStop all stop idx
  case stopped =>
    intro idx ended
    obtain ⟨all, stop, front⟩ := serving.stopped idx ended
    exact ⟨all, congrArg some (late all stop), front⟩

theorem Serving.step (serving : s.Serving) (event : PoolEvent H Resp) : (s.step event).Serving := by
  cases event with
  | dispatch handler payload async =>
    cases phase : s.handlers handler with
    | idle => exact serving.dispatch phase payload async
    | _ => simpa only [HttpWorkerPool.step, phase] using serving
  | lock handler =>
    cases phase : s.handlers handler with
    | entering req =>
      cases free : s.mutex with
      | none => exact serving.lock phase free
      | some other => simpa only [HttpWorkerPool.step, phase, free] using serving
    | _ => simpa only [HttpWorkerPool.step, phase] using serving
  | enqueueTurn handler => exact serving.enqueueTurn handler
  | workerTurn idx resp => exact serving.workerTurn idx resp
  | wake handler => exact serving.wake handler
  | stop => exact serving.stop

theorem Serving.run (serving : s.Serving) (events : List (PoolEvent H Resp)) :
    (events.foldl HttpWorkerPool.step s).Serving := by
  induction events generalizing s with
  | nil => exact serving
  | cons event events ih => exact ih (serving.step event)

/-- In every interleaving of the handlers, the workers and a stop. -/
theorem http_worker_pool_serves (queueCount queueDepth : Int) (ready : Bool) (started : Nat → Bool)
    (pool : HttpWorkerPool H Resp)
    (created : httpWorkerPoolStart queueCount queueDepth ready started = some pool)
    (events : List (PoolEvent H Resp)) :
    (events.foldl HttpWorkerPool.step pool).Serves :=
  ((start_serving created).run events).serves

def twoWorkers : HttpWorkerPool Bool Nat where
  queues := QueuesRun.start ⟨[⟨[none], 1, 0, 0, 0⟩, ⟨[none], 1, 0, 0, 0⟩], 2, 0, false⟩
  mutex := none
  handlers := fun _ => .idle
  completions := fun _ => none
  workers := [.waiting, .waiting]
  serials := 0
  processed := []
  returned := []
  refused := []
  atStop := none

/-- A read is answered, its handler is given the response, and the pool stops. -/
def answeredRead : List (PoolEvent Bool Nat) :=
  [.dispatch true [] false, .lock true, .enqueueTurn true, .enqueueTurn true, .enqueueTurn true,
    .enqueueTurn true, .enqueueTurn true, .workerTurn 1 0, .workerTurn 1 7, .wake true, .stop,
    .workerTurn 0 0, .workerTurn 1 0]

theorem http_worker_pool_serves_answeredRead :
    (answeredRead.foldl HttpWorkerPool.step twoWorkers).Serves :=
  http_worker_pool_serves 2 1 true (fun _ => true) twoWorkers rfl answeredRead

end HttpWorkerPool

end OciWrapper.Infra
