import Mathlib.Data.List.Forall2
import Mathlib.Logic.Function.Basic

namespace OciWrapper.Concurrent

variable {A B : Type}

/-- A program that reads and sets one shared flag; what it does in between is its own. -/
inductive FlagProgram (A : Type)
  | done (a : A)
  | test (next : Bool → FlagProgram A)
  | set (value : Bool) (next : FlagProgram A)

namespace FlagProgram

def bind : FlagProgram A → (A → FlagProgram B) → FlagProgram B
  | .done a, f => f a
  | .test next, f => .test fun seen => (next seen).bind f
  | .set value next, f => .set value (next.bind f)

instance : Monad FlagProgram where
  pure := done
  bind := bind

def readFlag : FlagProgram Bool := .test .done

def setFlag (value : Bool) : FlagProgram Unit := .set value (.done ())

/-- The program can end with `a`, when each of its reads sees a value that `sees`
    allows for the value it set last. -/
inductive Ends (sees : Bool → Bool → Prop) : Bool → FlagProgram A → Bool → A → Prop
  | done {own : Bool} {a : A} : Ends sees own (.done a) own a
  | test {own seen after : Bool} {next : Bool → FlagProgram A} {a : A} (allowed : sees own seen)
    (rest : Ends sees own (next seen) after a) : Ends sees own (.test next) after a
  | set {own value after : Bool} {next : FlagProgram A} {a : A}
    (rest : Ends sees value next after a) : Ends sees own (.set value next) after a

variable {sees : Bool → Bool → Prop}

theorem Ends.of_pure {own after : Bool} {a b : A}
    (ends : Ends sees own (pure a : FlagProgram A) after b) : after = own ∧ b = a := by
  cases ends
  exact ⟨rfl, rfl⟩

theorem Ends.of_bind {p : FlagProgram A} {f : A → FlagProgram B} {own after : Bool} {b : B}
    (ends : Ends sees own (p >>= f) after b) :
    ∃ mid a, Ends sees own p mid a ∧ Ends sees mid (f a) after b := by
  change Ends sees own (p.bind f) after b at ends
  induction p generalizing own with
  | done a => exact ⟨own, a, .done, ends⟩
  | test next ih =>
    cases ends with
    | @test _ seen _ _ _ allowed rest =>
      obtain ⟨mid, a, first, second⟩ := ih seen rest
      exact ⟨mid, a, .test allowed first, second⟩
  | set value next ih =>
    cases ends with
    | set rest =>
      obtain ⟨mid, a, first, second⟩ := ih rest
      exact ⟨mid, a, .set first, second⟩

theorem Ends.of_readFlag {f : Bool → FlagProgram B} {own after : Bool} {b : B}
    (ends : Ends sees own (readFlag >>= f) after b) :
    ∃ seen, sees own seen ∧ Ends sees own (f seen) after b := by
  cases ends with
  | test allowed rest => exact ⟨_, allowed, rest⟩

theorem Ends.of_setFlag {f : Unit → FlagProgram B} {own value after : Bool} {b : B}
    (ends : Ends sees own (setFlag value >>= f) after b) : Ends sees value (f ()) after b := by
  cases ends with
  | set rest => exact rest

end FlagProgram

open FlagProgram

/-- One thread with its context, the results of its jobs so far, the job it is at
    and the jobs to come. -/
structure Worker (C J R : Type) where
  context : C
  results : List R
  running : Option (FlagProgram (C × R))
  waiting : List J

/-- The threads and the flag they share; `own` is the value each of them set last. -/
structure Workers (I C J R : Type) where
  flag : Bool
  own : I → Bool
  worker : I → Worker C J R

variable {I C J R : Type} [DecidableEq I]

def Workers.start (context : I → C) (jobs : I → List J) : Workers I C J R where
  flag := false
  own := fun _ => false
  worker := fun i => ⟨context i, [], none, jobs i⟩

/-- The next step of one thread: take a job, end it, or one access to the flag.
    Gives the flag, what the thread set last, and the thread. -/
def Worker.advance (program : C → J → FlagProgram (C × R)) (flag own : Bool) (w : Worker C J R) :
    Bool × Bool × Worker C J R :=
  match w.running, w.waiting with
  | none, [] => (flag, own, w)
  | none, job :: rest => (flag, own, ⟨w.context, w.results, some (program w.context job), rest⟩)
  | some (.done (context, result)), waiting =>
    (flag, own, ⟨context, w.results ++ [result], none, waiting⟩)
  | some (.test next), waiting => (flag, own, ⟨w.context, w.results, some (next flag), waiting⟩)
  | some (.set value next), waiting => (value, value, ⟨w.context, w.results, some next, waiting⟩)

def Workers.step (program : C → J → FlagProgram (C × R)) (s : Workers I C J R) (i : I) :
    Workers I C J R :=
  let (flag, own, w) := (s.worker i).advance program s.flag (s.own i)
  ⟨flag, Function.update s.own i own, Function.update s.worker i w⟩

def Workers.run (program : C → J → FlagProgram (C × R)) (s : Workers I C J R)
    (schedule : List I) : Workers I C J R :=
  schedule.foldl (Workers.step program) s

/-- The next step of the thread reads the flag. -/
def Worker.testsFlag (w : Worker C J R) : Bool :=
  match w.running with
  | some (.test _) => true
  | some (.set _ _) | some (.done _) | none => false

/-- If the step of this thread reads the flag, it sees an allowed value. -/
def Workers.Allowed (sees : Bool → Bool → Prop) (s : Workers I C J R) (i : I) : Prop :=
  (s.worker i).testsFlag = true → sees (s.own i) s.flag

/-- Every step of the run does. -/
def Workers.AllAllowed (program : C → J → FlagProgram (C × R)) (sees : Bool → Bool → Prop) :
    Workers I C J R → List I → Prop
  | _, [] => True
  | s, i :: schedule =>
    s.Allowed sees i ∧ AllAllowed program sees (s.step program i) schedule

instance Workers.decidableAllAllowed (program : C → J → FlagProgram (C × R))
    (sees : Bool → Bool → Prop) [DecidableRel sees] (s : Workers I C J R) :
    (schedule : List I) → Decidable (s.AllAllowed program sees schedule)
  | [] => inferInstanceAs (Decidable True)
  | i :: schedule =>
    have := decidableAllAllowed program sees (s.step program i) schedule
    inferInstanceAs (Decidable ((_ = true → _) ∧ _))

/-- A thread that works alone: the context it ends with and its results. -/
def runAlone (alone : C → J → C × R) (context : C) : List J → C × List R
  | [] => (context, [])
  | job :: jobs =>
    let (context, result) := alone context job
    let (context, results) := runAlone alone context jobs
    (context, result :: results)

theorem runAlone_append (alone : C → J → C × R) (context : C) (past jobs : List J) :
    runAlone alone context (past ++ jobs) =
      ((runAlone alone (runAlone alone context past).1 jobs).1,
        (runAlone alone context past).2 ++
          (runAlone alone (runAlone alone context past).1 jobs).2) := by
  induction past generalizing context with
  | nil => rfl
  | cons job past ih => simp only [List.cons_append, runAlone, ih]

/-- Every end of the program that allowed reads lead to agrees with the job done alone. -/
def Agrees (program : C → J → FlagProgram (C × R)) (sees : Bool → Bool → Prop)
    (alone : C → J → C × R) (related : R → R → Prop) : Prop :=
  ∀ context job after ended, Ends sees false (program context job) after ended →
    after = false ∧ ended.1 = (alone context job).1 ∧ related (alone context job).2 ended.2

/-- Where a thread that began with `context` and `jobs` is. -/
inductive Progress (program : C → J → FlagProgram (C × R)) (sees : Bool → Bool → Prop)
    (alone : C → J → C × R) (related : R → R → Prop) (context : C) (jobs : List J) :
    Bool → Worker C J R → Prop
  | between {past waiting results} (split : jobs = past ++ waiting)
    (agree : List.Forall₂ related (runAlone alone context past).2 results) :
    Progress program sees alone related context jobs false
      ⟨(runAlone alone context past).1, results, none, waiting⟩
  | within {own past job waiting results left} (split : jobs = past ++ job :: waiting)
    (agree : List.Forall₂ related (runAlone alone context past).2 results)
    (ends : ∀ after ended, Ends sees own left after ended →
      Ends sees false (program (runAlone alone context past).1 job) after ended) :
    Progress program sees alone related context jobs own
      ⟨(runAlone alone context past).1, results, some left, waiting⟩

variable {program : C → J → FlagProgram (C × R)} {sees : Bool → Bool → Prop}
  {alone : C → J → C × R} {related : R → R → Prop}

/-- A step keeps its own thread where it can be. -/
theorem advance_progress (agrees : Agrees program sees alone related) {context : C} {jobs : List J}
    {flag own : Bool} {w : Worker C J R}
    (progress : Progress program sees alone related context jobs own w)
    (allowed : w.testsFlag = true → sees own flag) :
    Progress program sees alone related context jobs (w.advance program flag own).2.1
      (w.advance program flag own).2.2 := by
  cases progress with
  | @between past waiting results split agree =>
    cases waiting with
    | nil => exact .between split agree
    | cons job rest => exact .within split agree fun _ _ ends => ends
  | @within _ past job waiting results left split agree ends =>
    cases left with
    | done ended =>
      obtain ⟨after, result⟩ := ended
      obtain ⟨idle, same, fine⟩ := agrees _ _ _ _ (ends own (after, result) .done)
      have worked := runAlone_append alone context past [job]
      have contexts : after = (runAlone alone context (past ++ [job])).1 := by
        rw [worked]
        exact same
      subst idle contexts
      refine .between (by simp [split]) ?_
      rw [worked]
      exact List.rel_append agree (.cons fine .nil)
    | test next => exact .within split agree fun _ _ rest => ends _ _ (.test (allowed rfl) rest)
    | set value next => exact .within split agree fun _ _ rest => ends _ _ (.set rest)

/-- A step keeps every thread where it can be. -/
theorem step_progress (agrees : Agrees program sees alone related) {context : I → C}
    {jobs : I → List J} {s : Workers I C J R}
    (progress : ∀ i, Progress program sees alone related (context i) (jobs i) (s.own i) (s.worker i))
    {i : I} (allowed : s.Allowed sees i) (k : I) :
    Progress program sees alone related (context k) (jobs k) ((s.step program i).own k)
      ((s.step program i).worker k) := by
  unfold Workers.step
  dsimp only
  by_cases other : k = i
  · subst other
    rw [Function.update_self, Function.update_self]
    exact advance_progress agrees (progress k) allowed
  · rw [Function.update_of_ne other, Function.update_of_ne other]
    exact progress k

/-- In a run with allowed reads each thread has the results it would have alone. -/
theorem run_agrees (agrees : Agrees program sees alone related) (context : I → C)
    (jobs : I → List J) {schedule : List I}
    (allowed : Workers.AllAllowed program sees (.start context jobs) schedule) (i : I) :
    let results := (((Workers.start context jobs).run program schedule).worker i).results
    List.Forall₂ related ((runAlone alone (context i) (jobs i)).2.take results.length) results := by
  have progress : ∀ (s : Workers I C J R) (schedule : List I),
      Workers.AllAllowed program sees s schedule →
      (∀ i, Progress program sees alone related (context i) (jobs i) (s.own i) (s.worker i)) →
      ∀ i, Progress program sees alone related (context i) (jobs i)
        ((s.run program schedule).own i) ((s.run program schedule).worker i) := by
    intro s schedule
    induction schedule generalizing s with
    | nil => exact fun _ here => here
    | cons next rest ih =>
      intro steps here
      exact ih _ steps.2 (step_progress agrees here steps.1)
  have fresh : ∀ i, Progress program sees alone related (context i) (jobs i) false
      ⟨context i, [], none, jobs i⟩ := fun i => .between (List.nil_append _).symm .nil
  have ended := progress _ schedule allowed fresh i
  have prefixes : ∀ (past left : List J) (results : List R), jobs i = past ++ left →
      List.Forall₂ related (runAlone alone (context i) past).2 results →
      List.Forall₂ related ((runAlone alone (context i) (jobs i)).2.take results.length) results := by
    intro past left results split agree
    rw [split, runAlone_append, ← agree.length_eq]
    simpa using agree
  dsimp only
  generalize ((Workers.start context jobs).run program schedule).worker i = w at ended
  generalize ((Workers.start context jobs).run program schedule).own i = own at ended
  cases ended with
  | between split agree => exact prefixes _ _ _ split agree
  | within split agree ends => exact prefixes _ _ _ split agree

end OciWrapper.Concurrent
