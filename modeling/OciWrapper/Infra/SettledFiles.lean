import OciWrapper.Infra.FileConsumer

namespace OciWrapper.Infra

open OciWrapper.Text OciWrapper.Concurrent OciWrapper.Store

namespace FileRun

variable {W Q : Type} [DecidableEq W] [DecidableEq Q]

/-- What the state says of one file. -/
@[ext] structure FileView (W Q : Type) where
  arrived : Prop
  original : Set Path
  response : Set Path
  consumer : Option ConsumerAct
  queued : Q → Nat
  worker : W → Option WorkerAct
  executions : List Bool
  refused : Prop

/-- What a thread with a file at hand does with this one. -/
def actOn {A : Type} (file : InputFile) (hand : Option (A × InputFile)) : Option A :=
  hand.bind fun (act, other) => if other = file then some act else none

def view (s : FileRun W Q) (file : InputFile) : FileView W Q where
  arrived := file ∈ s.arrived
  original := places s.fs (.original file)
  response := places s.fs (.response file)
  consumer := actOn file s.consumer
  queued queue := (s.queues queue).count file
  worker w := actOn file (s.worker w)
  executions := (s.executions.filter (·.file = file)).map (·.afterRefusal)
  refused := file ∈ s.refused

/-- The life of a file. `moved` says that the File Consumer has moved it to Processing. -/
inductive Stage (W Q : Type) where
  | absent
  | waiting
  | reading
  | rejecting (why : Rejection) (written : Bool)
  | rejected (why : Rejection) (written : Bool)
  | queued (queue : Q) (moved : Bool)
  | dequeued (worker : W) (moved : Bool)
  | executed (worker : W) (pass moved : Bool)
  | answered (worker : W) (pass isJson moved : Bool)
  | settled (pass isJson : Bool)

def FileView.at (path : Path) : FileView W Q where
  arrived := True
  original := {path}
  response := ∅
  consumer := none
  queued _ := 0
  worker _ := none
  executions := []
  refused := False

/-- A file that has been enqueued. -/
def FileView.accepted (file : InputFile) (moved : Bool) : FileView W Q :=
  if moved then .at (file.within .processing)
  else { (FileView.at (file.within .input) : FileView W Q) with consumer := some .enqueued }

def Stage.view (file : InputFile) : Stage W Q → FileView W Q
  | .absent => { (FileView.at (file.within .input) : FileView W Q) with arrived := False, original := ∅ }
  | .waiting => .at (file.within .input)
  | .reading => { (FileView.at (file.within .input) : FileView W Q) with consumer := some .reading }
  | .rejecting why written =>
    { (FileView.at (file.within .input) : FileView W Q) with
      response := if written then {file.responseIn .error (file.format = .json)} else ∅
      consumer := some .rejected
      refused := why = .queueFull }
  | .rejected why written =>
    { (FileView.at (file.within .error) : FileView W Q) with
      response := if written then {file.responseIn .error (file.format = .json)} else ∅
      refused := why = .queueFull }
  | .queued queue moved =>
    { (FileView.accepted file moved : FileView W Q) with queued := Function.update (fun _ => 0) queue 1 }
  | .dequeued worker moved =>
    { (FileView.accepted file moved : FileView W Q) with
      worker := Function.update (fun _ => none) worker (some .dequeued) }
  | .executed worker pass moved =>
    { (FileView.accepted file moved : FileView W Q) with
      worker := Function.update (fun _ => none) worker (some (.executed pass))
      executions := [false] }
  | .answered worker pass isJson moved =>
    { (FileView.accepted file moved : FileView W Q) with
      response := {file.responseIn (destDir pass) isJson}
      worker := Function.update (fun _ => none) worker (some (.answered pass))
      executions := [false] }
  | .settled pass isJson =>
    { (FileView.at (file.within (destDir pass)) : FileView W Q) with
      response := {file.responseIn (destDir pass) isJson}
      executions := [false] }

/-- Every file is in some stage of its life. -/
def Follows (s : FileRun W Q) : Prop :=
  ∃ stage : InputFile → Stage W Q, ∀ file, s.view file = (stage file).view file

/-- A step that takes one file to its next stage, and is not seen by the others. -/
theorem Follows.of_one {s s' : FileRun W Q} (follows : s.Follows) (file : InputFile)
    (others : ∀ other, other ≠ file → s'.view other = s.view other)
    (next : ∃ stage : Stage W Q, s'.view file = stage.view file) : s'.Follows := by
  obtain ⟨stage, same⟩ := follows
  obtain ⟨new, reached⟩ := next
  refine ⟨Function.update stage file new, fun other => ?_⟩
  by_cases it : other = file
  · subst it
    rw [Function.update_self, reached]
  · rw [Function.update_of_ne it, others other it, same other]

section Views

omit [DecidableEq W] [DecidableEq Q]

@[simp] theorem actOn_none {A : Type} (file : InputFile) :
    actOn file (none : Option (A × InputFile)) = none := rfl

@[simp] theorem actOn_self {A : Type} (file : InputFile) (act : A) :
    actOn file (some (act, file)) = some act := by simp [actOn]

theorem actOn_other {A : Type} {file other : InputFile} (differs : other ≠ file) (act : A) :
    actOn other (some (act, file)) = none := by simp [actOn, differs.symm]

end Views

theorem Stage.original_within (stage : Stage W Q) (file : InputFile) :
    ∀ path ∈ (stage.view file).original, ∃ dir, path = file.within dir := by
  cases stage with
  | absent => simp [Stage.view]
  | waiting | reading | rejecting | rejected | settled =>
    intro path member
    exact ⟨_, member⟩
  | queued _ moved | dequeued _ moved | executed _ _ moved | answered _ _ _ moved =>
    intro path member
    cases moved with
    | true => exact ⟨.processing, member⟩
    | false => exact ⟨.input, member⟩

theorem Stage.response_dir (stage : Stage W Q) (file : InputFile) :
    ∀ path ∈ (stage.view file).response, path.dir = .output ∨ path.dir = .error := by
  cases stage with
  | absent | waiting | reading => simp [Stage.view, FileView.at]
  | rejecting _ written | rejected _ written =>
    cases written <;> simp [Stage.view, InputFile.responseIn]
  | queued _ moved | dequeued _ moved | executed _ _ moved =>
    cases moved <;> simp [Stage.view, FileView.accepted, FileView.at]
  | answered _ pass _ _ | settled pass _ =>
    cases pass <;> simp [Stage.view, InputFile.responseIn, destDir]

/-- Input and Processing hold nothing but originals, each under its own name. -/
theorem Follows.free_within {s : FileRun W Q} (follows : s.Follows) {file : InputFile} {dir : Dir}
    (inside : dir = .input ∨ dir = .processing)
    (away : file.within dir ∉ (s.view file).original) : s.fs (file.within dir) = none := by
  obtain ⟨stage, same⟩ := follows
  cases there : s.fs (file.within dir) with
  | none => rfl
  | some content =>
    cases content with
    | original other =>
      have member : file.within dir ∈ (s.view other).original := there
      have named := member
      rw [same other] at named
      obtain ⟨at', equal⟩ := (stage other).original_within other _ named
      obtain ⟨-, format, name⟩ := Path.mk.inj equal
      have it : other = file := by
        cases other
        cases file
        simp_all
      exact absurd (it ▸ member) away
    | response other =>
      have member : file.within dir ∈ (s.view other).response := there
      rw [same other] at member
      have outside := (stage other).response_dir other _ member
      rcases inside with rfl | rfl <;> simp [InputFile.within] at outside

section Stages

variable {stage : Stage W Q} {file : InputFile}

theorem Stage.absent_of (fresh : ¬(stage.view file).arrived) : stage = .absent := by
  cases stage with
  | absent => rfl
  | waiting | reading | rejecting | rejected | settled => exact (fresh trivial).elim
  | queued _ moved | dequeued _ moved | executed _ _ moved | answered _ _ _ moved =>
    cases moved <;> exact (fresh trivial).elim

theorem Stage.waiting_of (input : file.within .input ∈ (stage.view file).original)
    (idle : (stage.view file).consumer = none) : stage = .waiting := by
  cases stage with
  | waiting => rfl
  | absent => cases input
  | reading | rejecting => cases idle
  | rejected => cases input
  | settled pass => cases pass <;> cases input
  | queued _ moved | dequeued _ moved | executed _ _ moved | answered _ _ _ moved =>
    cases moved with
    | true => cases input
    | false => cases idle

theorem Stage.reading_of (reading : (stage.view file).consumer = some .reading) :
    stage = .reading := by
  cases stage with
  | reading => rfl
  | absent | waiting | rejecting | rejected | settled => cases reading
  | queued _ moved | dequeued _ moved | executed _ _ moved | answered _ _ _ moved =>
    cases moved <;> cases reading

theorem Stage.rejecting_of (rejected : (stage.view file).consumer = some .rejected) :
    ∃ why written, stage = .rejecting why written := by
  cases stage with
  | rejecting why written => exact ⟨why, written, rfl⟩
  | absent | waiting | reading | rejected | settled => cases rejected
  | queued _ moved | dequeued _ moved | executed _ _ moved | answered _ _ _ moved =>
    cases moved <;> cases rejected

/-- The same stage after the File Consumer's rename. -/
def Stage.inProcessing : Stage W Q → Stage W Q
  | .queued queue _ => .queued queue true
  | .dequeued worker _ => .dequeued worker true
  | .executed worker pass _ => .executed worker pass true
  | .answered worker pass isJson _ => .answered worker pass isJson true
  | stage => stage

theorem Stage.inProcessing_view (enqueued : (stage.view file).consumer = some .enqueued) :
    (stage.view file).original = {file.within .input} ∧
      stage.inProcessing.view file =
        { stage.view file with original := {file.within .processing}, consumer := none } := by
  cases stage with
  | absent | waiting | reading | rejecting | rejected | settled => cases enqueued
  | queued _ moved | dequeued _ moved | executed _ _ moved | answered _ _ _ moved =>
    cases moved with
    | true => cases enqueued
    | false => exact ⟨rfl, rfl⟩

theorem Stage.queued_of {queue : Q} (queued : (stage.view file).queued queue ≠ 0) :
    ∃ moved, stage = .queued queue moved := by
  cases stage with
  | absent | waiting | reading | rejecting | rejected | settled => exact (queued rfl).elim
  | dequeued _ moved | executed _ _ moved | answered _ _ _ moved =>
    cases moved <;> exact (queued rfl).elim
  | queued other moved =>
    by_cases it : queue = other
    · exact ⟨moved, it ▸ rfl⟩
    · simp [Stage.view, it] at queued

theorem Stage.worker_of {worker : W} {act : WorkerAct}
    (working : (stage.view file).worker worker = some act) :
    (act = .dequeued ∧ ∃ moved, stage = .dequeued worker moved) ∨
    (∃ pass moved, act = .executed pass ∧ stage = .executed worker pass moved) ∨
    ∃ pass isJson moved, act = .answered pass ∧ stage = .answered worker pass isJson moved := by
  cases stage with
  | absent | waiting | reading | rejecting | rejected | settled => cases working
  | queued _ moved => cases moved <;> cases working
  | dequeued other moved | executed other pass moved | answered other pass isJson moved =>
    by_cases it : worker = other
    · subst it
      simp only [Stage.view, Function.update_self, Option.some.injEq] at working
      subst working
      simp
    · simp [Stage.view, it] at working

end Stages

theorem Follows.arrive {s : FileRun W Q} (follows : s.Follows) (file : InputFile) :
    (s.arrive file).Follows := by
  rw [FileRun.arrive]
  split
  · exact follows
  · rename_i fresh
    have absent : s.view file = Stage.absent.view file := by
      obtain ⟨stage, same⟩ := follows
      have unknown : ¬((stage file).view file).arrived := by rwa [← same file]
      rw [same, Stage.absent_of unknown]
    have free : s.fs (file.within .input) = none :=
      follows.free_within (Or.inl rfl) (by rw [absent]; exact Set.notMem_empty _)
    refine follows.of_one file (fun other differs => ?_) ⟨.waiting, ?_⟩
    · exact FileView.ext (by simp [FileRun.view, differs])
        (places_put_other free (by simpa using differs)) (places_put_other free (by simp))
        rfl rfl rfl rfl rfl
    · simp only [FileRun.view, Stage.view, FileView.at, FileView.mk.injEq] at absent ⊢
      obtain ⟨-, original, response, rest⟩ := absent
      rw [places_put, original, places_put_other free (by simp)]
      simp [response, rest]

theorem Follows.read {s : FileRun W Q} (follows : s.Follows) (file : InputFile) :
    (s.read file).Follows := by
  rw [FileRun.read]
  split
  · rename_i found
    obtain ⟨idle, there⟩ := found
    have waiting : s.view file = Stage.waiting.view file := by
      obtain ⟨stage, same⟩ := follows
      have input : file.within .input ∈ (s.view file).original := there
      have free : (s.view file).consumer = none := by rw [FileRun.view, idle, actOn_none]
      rw [same] at input free ⊢
      rw [Stage.waiting_of input free]
    refine follows.of_one file (fun other differs => ?_) ⟨.reading, ?_⟩
    · exact FileView.ext rfl rfl rfl (by simp [FileRun.view, idle, actOn_other differs])
        rfl rfl rfl rfl
    · simp only [FileRun.view, Stage.view, FileView.at, FileView.mk.injEq] at waiting ⊢
      simp [waiting]
  · exact follows

theorem Follows.enqueue {s : FileRun W Q} (follows : s.Follows) (queue : Q) :
    (s.enqueue queue).Follows := by
  rw [FileRun.enqueue]
  split
  · rename_i file hand
    have reading : s.view file = Stage.reading.view file := by
      obtain ⟨stage, same⟩ := follows
      have act : (s.view file).consumer = some .reading := by rw [FileRun.view, hand, actOn_self]
      rw [same] at act ⊢
      rw [Stage.reading_of act]
    refine follows.of_one file (fun other differs => ?_) ⟨.queued queue false, ?_⟩
    · refine FileView.ext rfl rfl rfl ?_ ?_ rfl rfl rfl
      · simp [FileRun.view, hand, actOn_other differs]
      · funext q
        by_cases it : q = queue
        · subst it
          simp [FileRun.view, differs.symm]
        · simp [FileRun.view, it]
    · simp only [FileRun.view, Stage.view, FileView.at, FileView.accepted, FileView.mk.injEq]
        at reading ⊢
      obtain ⟨arrived, original, response, -, queued, rest⟩ := reading
      refine ⟨arrived, original, response, actOn_self file _, ?_, rest⟩
      funext q
      have none_before := congrFun queued q
      by_cases it : q = queue
      · subst it
        simpa using none_before
      · simpa [it] using none_before
  · exact follows

theorem Follows.reject {s : FileRun W Q} (follows : s.Follows) (why : Rejection) (written : Bool)
    (keeps : s.KeepsFiles (.reject why written)) : (s.reject why written).Follows := by
  rw [FileRun.reject]
  split
  · rename_i file hand
    have reading : s.view file = Stage.reading.view file := by
      obtain ⟨stage, same⟩ := follows
      have act : (s.view file).consumer = some .reading := by rw [FileRun.view, hand, actOn_self]
      rw [same] at act ⊢
      rw [Stage.reading_of act]
    have free := keeps file hand
    refine follows.of_one file (fun other differs => ?_) ⟨.rejecting why written, ?_⟩
    · refine FileView.ext rfl ?_ ?_ ?_ rfl rfl rfl ?_
      · cases written with
        | true => exact places_put_other (free rfl) (by simp)
        | false => rfl
      · cases written with
        | true => exact places_put_other (free rfl) (by simpa using differs)
        | false => rfl
      · simp [FileRun.view, hand, actOn_other differs]
      · by_cases full : why = .queueFull <;> simp [FileRun.view, full, differs]
    · simp only [FileRun.view, Stage.view, FileView.at, FileView.mk.injEq] at reading ⊢
      obtain ⟨arrived, original, response, -, queued, worker, executions, refused⟩ := reading
      refine ⟨arrived, ?_, ?_, actOn_self file _, queued, worker, executions, ?_⟩
      · rw [← original]
        cases written with
        | true => exact places_put_other (free rfl) (by simp)
        | false => rfl
      · cases written with
        | true => simp [places_put, response]
        | false => exact response
      · by_cases full : why = .queueFull
        · simp [full]
        · simpa [full] using refused
  · exact follows

theorem places_tryRename {fs : Path → Option Content} {source target : Path} {content : Content}
    (there : places fs content = {source}) (free : fs target = none) :
    places (tryRename true fs source target) content = {target} ∧
      ∀ other, other ≠ content →
        places (tryRename true fs source target) other = places fs other := by
  have found : fs source = some content := by
    have member : source ∈ places fs content := there ▸ Set.mem_singleton source
    exact member
  have moved : tryRename true fs source target = rename fs source target := by
    simp [tryRename, found]
  rw [moved]
  exact ⟨places_rename there free, fun other differs => places_rename_other found free differs⟩

theorem Follows.moveToProcessing {s : FileRun W Q} (follows : s.Follows) (allowed : Bool)
    (keeps : s.KeepsFiles (.moveToProcessing allowed)) : (s.moveToProcessing allowed).Follows := by
  rw [FileRun.moveToProcessing]
  split
  · rename_i file hand
    obtain rfl := keeps file hand
    have act : (s.view file).consumer = some .enqueued := by rw [FileRun.view, hand, actOn_self]
    obtain ⟨stage, same⟩ := id follows
    have view := same file
    rw [view] at act
    obtain ⟨input, next⟩ := Stage.inProcessing_view act
    have there : places s.fs (.original file) = {file.within .input} := by
      rw [← input, ← view]
      rfl
    have free : s.fs (file.within .processing) = none :=
      follows.free_within (Or.inr rfl) (by rw [view, input]; simp [InputFile.within])
    obtain ⟨here, elsewhere⟩ := places_tryRename there free
    refine follows.of_one file (fun other differs => ?_) ⟨(stage file).inProcessing, ?_⟩
    · exact FileView.ext rfl (elsewhere _ (by simpa using differs)) (elsewhere _ (by simp))
        (by simp [FileRun.view, hand, actOn_other differs]) rfl rfl rfl rfl
    · rw [next, ← view]
      exact FileView.ext rfl here (elsewhere _ (by simp)) rfl rfl rfl rfl rfl
  · exact follows

theorem Follows.moveRejected {s : FileRun W Q} (follows : s.Follows) (allowed : Bool)
    (keeps : s.KeepsFiles (.moveRejected allowed)) : (s.moveRejected allowed).Follows := by
  rw [FileRun.moveRejected]
  split
  · rename_i file hand
    obtain ⟨rfl, free⟩ := keeps file hand
    obtain ⟨why, written, view⟩ : ∃ why written,
        s.view file = (Stage.rejecting why written).view file := by
      obtain ⟨stage, same⟩ := follows
      have act : (s.view file).consumer = some .rejected := by rw [FileRun.view, hand, actOn_self]
      rw [same] at act ⊢
      obtain ⟨why, written, rejecting⟩ := Stage.rejecting_of act
      exact ⟨why, written, rejecting ▸ rfl⟩
    have there : places s.fs (.original file) = {file.within .input} :=
      congrArg FileView.original view
    obtain ⟨here, elsewhere⟩ := places_tryRename there free
    refine follows.of_one file (fun other differs => ?_) ⟨.rejected why written, ?_⟩
    · exact FileView.ext rfl (elsewhere _ (by simpa using differs)) (elsewhere _ (by simp))
        (by simp [FileRun.view, hand, actOn_other differs]) rfl rfl rfl rfl
    · have next : (Stage.rejected why written).view file =
          { s.view file with original := {file.within .error}, consumer := none } := by
        rw [view]
        rfl
      rw [next]
      exact FileView.ext rfl here (elsewhere _ (by simp)) rfl rfl rfl rfl rfl
  · exact follows

/-- What a worker's step changes in the view of another file. -/
theorem actOn_update {worker : W} {file other : InputFile} (differs : other ≠ file)
    {hands : W → Option (WorkerAct × InputFile)} {next : Option (WorkerAct × InputFile)}
    (before : ∀ act held, hands worker = some (act, held) → held = file)
    (after : ∀ act held, next = some (act, held) → held = file) (w : W) :
    actOn other (Function.update hands worker next w) = actOn other (hands w) := by
  have unseen : ∀ hand : Option (WorkerAct × InputFile),
      (∀ act held, hand = some (act, held) → held = file) → actOn other hand = none := by
    intro hand only
    cases hand with
    | none => rfl
    | some hand =>
      obtain ⟨act, held⟩ := hand
      rw [only act held rfl, actOn_other differs]
  by_cases it : w = worker
  · subst it
    rw [Function.update_self, unseen _ after, unseen _ before]
  · rw [Function.update_of_ne it]

theorem Follows.dequeue {s : FileRun W Q} (follows : s.Follows) (worker : W) (queue : Q) :
    (s.dequeue worker queue).Follows := by
  rw [FileRun.dequeue]
  split
  · rename_i file rest hand waiting
    obtain ⟨moved, view⟩ : ∃ moved, s.view file = (Stage.queued queue moved).view file := by
      obtain ⟨stage, same⟩ := follows
      have some_queued : (s.view file).queued queue ≠ 0 := by simp [FileRun.view, waiting]
      rw [same] at some_queued ⊢
      obtain ⟨moved, queued⟩ := Stage.queued_of some_queued
      exact ⟨moved, queued ▸ rfl⟩
    refine follows.of_one file (fun other differs => ?_) ⟨.dequeued worker moved, ?_⟩
    · refine FileView.ext rfl rfl rfl rfl ?_ ?_ rfl rfl
      · funext q
        by_cases it : q = queue
        · subst it
          simp [FileRun.view, waiting, differs.symm]
        · simp [FileRun.view, it]
      · funext w
        show actOn other (Function.update s.worker worker (some (.dequeued, file)) w) = _
        exact actOn_update differs (by simp [hand]) (by simp) w
    · have next : (Stage.dequeued worker moved).view file = { s.view file with
          queued := fun _ : Q => 0
          worker := Function.update (fun _ : W => none) worker (some .dequeued) } := by
        rw [view]
        cases moved <;> rfl
      rw [next]
      refine FileView.ext rfl rfl rfl rfl ?_ ?_ rfl rfl
      · funext q
        have count := congrFun (congrArg FileView.queued view) q
        by_cases it : q = queue
        · subst it
          simpa [FileRun.view, Stage.view, waiting] using count
        · simpa [FileRun.view, Stage.view, it] using count
      · funext w
        have idle := congrFun (congrArg FileView.worker view) w
        by_cases it : w = worker
        · subst it
          simp [FileRun.view]
        · cases moved <;> simpa [FileRun.view, Stage.view, FileView.accepted, FileView.at, it] using idle
  · exact follows

theorem Follows.execute {s : FileRun W Q} (follows : s.Follows) (worker : W) (pass : Bool) :
    (s.execute worker pass).Follows := by
  rw [FileRun.execute]
  split
  · rename_i file hand
    obtain ⟨moved, view⟩ : ∃ moved, s.view file = (Stage.dequeued worker moved).view file := by
      obtain ⟨stage, same⟩ := follows
      have act : (s.view file).worker worker = some .dequeued := by
        simp only [FileRun.view, hand, actOn_self]
      rw [same] at act ⊢
      rcases Stage.worker_of act with ⟨-, moved, dequeued⟩ | ⟨_, _, wrong, -⟩ | ⟨_, _, _, wrong, -⟩
      · exact ⟨moved, dequeued ▸ rfl⟩
      · cases wrong
      · cases wrong
    refine follows.of_one file (fun other differs => ?_) ⟨.executed worker pass moved, ?_⟩
    · refine FileView.ext rfl rfl rfl rfl rfl ?_ ?_ rfl
      · funext w
        show actOn other (Function.update s.worker worker (some (.executed pass, file)) w) = _
        exact actOn_update differs (by simp [hand]) (by simp) w
      · simp [FileRun.view, differs.symm]
    · have next : (Stage.executed worker pass moved).view file = { s.view file with
          worker := Function.update (fun _ : W => none) worker (some (.executed pass))
          executions := [false] } := by
        rw [view]
        cases moved <;> rfl
      rw [next]
      refine FileView.ext rfl rfl rfl rfl rfl ?_ ?_ rfl
      · funext w
        have idle := congrFun (congrArg FileView.worker view) w
        by_cases it : w = worker
        · subst it
          simp [FileRun.view]
        · simpa [FileRun.view, Stage.view, it] using idle
      · have fresh : (s.executions.filter (·.file = file)).map (·.afterRefusal) = [] := by
          have first := congrArg FileView.executions view
          cases moved <;> exact first
        have unrefused : file ∉ s.refused := by
          have never := congrArg FileView.refused view
          cases moved <;> exact of_eq_false never
        simp only [FileRun.view, List.filter_append, List.map_append, fresh, List.nil_append]
        simp [unrefused]
  · exact follows

theorem Follows.respond {s : FileRun W Q} (follows : s.Follows) (worker : W) (isJson written : Bool)
    (keeps : s.KeepsFiles (.respond worker isJson written)) :
    (s.respond worker isJson written).Follows := by
  rw [FileRun.respond]
  split
  · rename_i pass file hand
    obtain ⟨rfl, free⟩ := keeps pass file hand
    obtain ⟨moved, view⟩ : ∃ moved, s.view file = (Stage.executed worker pass moved).view file := by
      obtain ⟨stage, same⟩ := follows
      have act : (s.view file).worker worker = some (.executed pass) := by
        simp only [FileRun.view, hand, actOn_self]
      rw [same] at act ⊢
      rcases Stage.worker_of act with ⟨wrong, -⟩ | ⟨_, moved, it, executed⟩ | ⟨_, _, _, wrong, -⟩
      · cases wrong
      · cases it
        exact ⟨moved, executed ▸ rfl⟩
      · cases wrong
    refine follows.of_one file (fun other differs => ?_) ⟨.answered worker pass isJson moved, ?_⟩
    · refine FileView.ext rfl (places_put_other free (by simp))
        (places_put_other free (by simpa using differs)) rfl rfl ?_ rfl rfl
      funext w
      show actOn other (Function.update s.worker worker (some (.answered pass, file)) w) = _
      exact actOn_update differs (by simp [hand]) (by simp) w
    · have next : (Stage.answered worker pass isJson moved).view file = { s.view file with
          response := {file.responseIn (destDir pass) isJson}
          worker := Function.update (fun _ : W => none) worker (some (.answered pass)) } := by
        rw [view]
        cases moved <;> rfl
      rw [next]
      refine FileView.ext rfl (places_put_other free (by simp)) ?_ rfl rfl ?_ rfl rfl
      · have unanswered : places s.fs (.response file) = ∅ := by
          have none_yet := congrArg FileView.response view
          cases moved <;> exact none_yet
        show places (put s.fs _ _) _ = _
        rw [places_put, unanswered, insert_empty_eq]
      · funext w
        have idle := congrFun (congrArg FileView.worker view) w
        by_cases it : w = worker
        · subst it
          simp [FileRun.view]
        · simpa [FileRun.view, Stage.view, it] using idle
  · exact follows

theorem Follows.moveOriginal {s : FileRun W Q} (follows : s.Follows) (worker : W) (allowed : Bool)
    (keeps : s.KeepsFiles (.moveOriginal worker allowed)) :
    (s.moveOriginal worker allowed).Follows := by
  rw [FileRun.moveOriginal]
  split
  · rename_i pass file hand
    obtain ⟨rfl, moved, free⟩ := keeps pass file hand
    obtain ⟨isJson, view⟩ : ∃ isJson,
        s.view file = (Stage.answered worker pass isJson true).view file := by
      obtain ⟨stage, same⟩ := follows
      have act : (s.view file).worker worker = some (.answered pass) := by
        simp only [FileRun.view, hand, actOn_self]
      have processing : file.within .processing ∈ (s.view file).original := moved
      rw [same] at act processing ⊢
      rcases Stage.worker_of act with ⟨wrong, -⟩ | ⟨_, _, wrong, -⟩ | ⟨_, isJson, moved, it, answered⟩
      · cases wrong
      · cases wrong
      · cases it
        rw [answered] at processing ⊢
        cases moved with
        | true => exact ⟨isJson, rfl⟩
        | false => cases processing
    have there : places s.fs (.original file) = {file.within .processing} :=
      congrArg FileView.original view
    obtain ⟨here, elsewhere⟩ := places_tryRename there free
    refine follows.of_one file (fun other differs => ?_) ⟨.settled pass isJson, ?_⟩
    · refine FileView.ext rfl (elsewhere _ (by simpa using differs)) (elsewhere _ (by simp))
        rfl rfl ?_ rfl rfl
      funext w
      show actOn other (Function.update s.worker worker none w) = _
      exact actOn_update differs (by simp [hand]) (by simp) w
    · have next : (Stage.settled pass isJson).view file = { s.view file with
          original := {file.within (destDir pass)}
          worker := fun _ : W => none } := by
        rw [view]
        rfl
      rw [next]
      refine FileView.ext rfl here (elsewhere _ (by simp)) rfl rfl ?_ rfl rfl
      funext w
      have idle := congrFun (congrArg FileView.worker view) w
      by_cases it : w = worker
      · subst it
        simp [FileRun.view]
      · simpa [FileRun.view, Stage.view, FileView.accepted, FileView.at, it] using idle
  · exact follows

theorem Follows.step {s : FileRun W Q} (follows : s.Follows) (event : FileEvent W Q)
    (keeps : s.KeepsFiles event) : (s.step event).Follows := by
  cases event with
  | arrive file => exact follows.arrive file
  | read file => exact follows.read file
  | enqueue queue => exact follows.enqueue queue
  | reject why written => exact follows.reject why written keeps
  | moveToProcessing allowed => exact follows.moveToProcessing allowed keeps
  | moveRejected allowed => exact follows.moveRejected allowed keeps
  | dequeue worker queue => exact follows.dequeue worker queue
  | execute worker pass => exact follows.execute worker pass
  | respond worker isJson written => exact follows.respond worker isJson written keeps
  | moveOriginal worker allowed => exact follows.moveOriginal worker allowed keeps

theorem start_follows : (start : FileRun W Q).Follows := by
  refine ⟨fun _ => .absent, fun file => ?_⟩
  exact FileView.ext (by simp [FileRun.view, start, Stage.view])
    (by ext; simp [FileRun.view, start, Stage.view, places])
    (by ext; simp [FileRun.view, start, Stage.view, FileView.at, places]) rfl rfl rfl rfl
    (by simp [FileRun.view, start, Stage.view, FileView.at])

theorem Stage.executions_short (stage : Stage W Q) (file : InputFile) :
    (stage.view file).executions = [] ∨ (stage.view file).executions = [false] := by
  cases stage with
  | absent | waiting | reading | rejecting | rejected => exact Or.inl rfl
  | settled => exact Or.inr rfl
  | queued _ moved | dequeued _ moved => cases moved <;> exact Or.inl rfl
  | executed _ _ moved | answered _ _ _ moved => cases moved <;> exact Or.inr rfl

/-- An executed file that no worker holds is settled. -/
theorem Stage.settled_of {stage : Stage W Q} {file : InputFile}
    (executed : (stage.view file).executions ≠ [])
    (idle : ∀ worker, (stage.view file).worker worker = none) :
    ∃ pass isJson, stage = .settled pass isJson := by
  cases stage with
  | settled pass isJson => exact ⟨pass, isJson, rfl⟩
  | absent | waiting | reading | rejecting | rejected => exact (executed rfl).elim
  | queued _ moved | dequeued _ moved => cases moved <;> exact (executed rfl).elim
  | executed worker | answered worker => simpa [Stage.view] using idle worker

theorem Follows.lawful {s : FileRun W Q} (follows : s.Follows) : s.Lawful := by
  obtain ⟨stage, same⟩ := follows
  have short : ∀ file, (s.view file).executions = [] ∨ (s.view file).executions = [false] :=
    fun file => by
      rw [same]
      exact (stage file).executions_short file
  have seen : ∀ execution ∈ s.executions,
      execution.afterRefusal ∈ (s.view execution.file).executions := fun execution member =>
    List.mem_map.mpr ⟨execution, List.mem_filter.mpr ⟨member, by simp⟩, rfl⟩
  constructor
  · rw [List.nodup_iff_count_le_one]
    intro file
    have count : (s.executions.map (·.file)).count file = (s.view file).executions.length := by
      simp only [FileRun.view, List.length_map]
      rw [List.count, List.countP_map, ← List.countP_eq_length_filter]
      rfl
    rw [count]
    rcases short file with none_yet | single
    · simp [none_yet]
    · simp [single]
  · intro execution member
    have listed := seen execution member
    rcases short execution.file with none_yet | single
    · rw [none_yet] at listed
      cases listed
    · rw [single] at listed
      exact List.mem_singleton.mp listed
  · rintro ⟨-, idle⟩ execution member
    have executed : (s.view execution.file).executions ≠ [] := List.ne_nil_of_mem (seen execution member)
    have unheld : ∀ worker, (s.view execution.file).worker worker = none := fun worker => by
      simp only [FileRun.view, idle worker, actOn_none]
    have view := same execution.file
    rw [view] at executed unheld
    obtain ⟨pass, isJson, settled⟩ := Stage.settled_of executed unheld
    rw [settled] at view
    exact ⟨pass, isJson, congrArg FileView.original view, congrArg FileView.response view⟩

/-- Where every rename and every response takes place, on a free path, and no worker comes to its move
before the File Consumer has made its own, every reached state is lawful. -/
theorem files_are_kept {events : List (FileEvent W Q)}
    (keeps : Meets step KeepsFiles start events) :
    ∀ reached, reached <+: events → (reached.foldl step (start : FileRun W Q)).Lawful := by
  rintro reached ⟨later, rfl⟩
  exact (Meets.invariant (fun _ event follows kept => follows.step event kept) start_follows
    (Meets.append_iff.mp keeps).1).lawful

def orders : InputFile := ⟨.xml, ['o']⟩

/-- The File Consumer is first at its rename. -/
def consumerFirst : List (FileEvent Unit Unit) :=
  [.arrive orders, .read orders, .enqueue (), .moveToProcessing true, .dequeue () (),
    .execute () true, .respond () false true, .moveOriginal () true]

theorem files_are_kept_consumerFirst :
    (consumerFirst.foldl step start).Quiet ∧ (consumerFirst.foldl step start).Lawful :=
  have respond : KeepsFiles ((consumerFirst.take 6).foldl step start) (.respond () false true) := by
    intro pass file hand
    cases hand
    exact ⟨rfl, rfl⟩
  have move : KeepsFiles ((consumerFirst.take 7).foldl step start) (.moveOriginal () true) := by
    intro pass file hand
    cases hand
    exact ⟨rfl, rfl, rfl⟩
  have keeps : Meets step KeepsFiles start consumerFirst :=
    ⟨trivial, trivial, trivial, fun _ _ => rfl, trivial, trivial, respond, move, trivial⟩
  ⟨⟨fun _ => rfl, fun _ => rfl⟩, files_are_kept keeps consumerFirst List.prefix_rfl⟩

/-- The worker is first: it finds nothing to move, and the original stays in Processing. -/
def workerFirst : List (FileEvent Unit Unit) :=
  [.arrive orders, .read orders, .enqueue (), .dequeue () (), .execute () true,
    .respond () false true, .moveOriginal () true, .moveToProcessing true]

/-- The file cannot be moved, and the next pass finds it again. -/
def foundAgain : List (FileEvent Unit Unit) :=
  [.arrive orders, .read orders, .enqueue (), .moveToProcessing false, .dequeue () (),
    .execute () true, .respond () false true, .moveOriginal () true, .read orders, .enqueue (),
    .moveToProcessing true, .dequeue () (), .execute () true]

theorem file_is_left_and_run_again :
    ((workerFirst.foldl step start).Quiet ∧
      (workerFirst.foldl step start).executions = [⟨orders, false⟩] ∧
      (workerFirst.foldl step start).fs (orders.within .processing) = some (.original orders) ∧
      ¬(workerFirst.foldl step start).Lawful) ∧
    ((foundAgain.foldl step start).executions = [⟨orders, false⟩, ⟨orders, false⟩] ∧
      ¬(foundAgain.foldl step start).Lawful) := by
  have left : (workerFirst.foldl step start).fs (orders.within .processing) =
    some (.original orders) := rfl
  have quiet : (workerFirst.foldl step start).Quiet := ⟨fun _ => rfl, fun _ => rfl⟩
  have once : (workerFirst.foldl step start).executions = [⟨orders, false⟩] := rfl
  have twice : (foundAgain.foldl step start).executions = [⟨orders, false⟩, ⟨orders, false⟩] := rfl
  refine ⟨⟨quiet, once, left, fun lawful => ?_⟩, twice, fun lawful => ?_⟩
  · obtain ⟨pass, isJson, original, -⟩ := lawful.settled quiet ⟨orders, false⟩ (by simp [once])
    have place : orders.within .processing ∈ places (workerFirst.foldl step start).fs
      (.original orders) := left
    rw [original] at place
    cases pass <;> cases place
  · have nodup := lawful.once
    rw [twice] at nodup
    simp at nodup

end FileRun

end OciWrapper.Infra
