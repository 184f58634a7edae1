import OciWrapper.Concurrent.Runs
import OciWrapper.Infra.AuthManager
import Mathlib.Logic.Function.Basic

namespace OciWrapper.Infra

open OciWrapper.Text OciWrapper.Concurrent

variable {T : Type}

/-- Where a call for a LOCAL user stands: behind its `lookup_user`, or behind its
    credential check. `afterLock` says that the account had been locked when it started. -/
inductive LoginPhase where
  | idle
  | lookedUp (user : AuthUser) (afterLock : Bool)
  | checked (user : AuthUser) (afterLock verified : Bool)

structure LoginCall where
  afterLock : Bool
  result : AuthResult

/-- The row of `APP_USER` and the calls for it; `failures` counts the calls that have
    ended with a wrong credential since the last successful one. -/
structure Logins (T : Type) where
  row : AuthUser
  phase : T → LoginPhase
  everLocked : Bool
  failures : Nat
  calls : List LoginCall

/-- The update of `record_auth_failure`. -/
def failureUpdate (maxFailedAttempts : Int) (seen row : AuthUser) : AuthUser :=
  if maxFailedAttempts ≤ seen.failedAttempts + 1 then
    { row with failedAttempts := seen.failedAttempts + 1, locked := ['Y'] }
  else { row with failedAttempts := seen.failedAttempts + 1 }

/-- The update of `record_auth_success`. -/
def successUpdate (row : AuthUser) : AuthUser := { row with failedAttempts := 0 }

/-- `opened` says whether the session is created after a good credential, and `saved`
    whether the update of the row is committed. -/
inductive LoginEvent (T : Type) where
  | lookupUser (caller : T)
  | verifyPassword (caller : T) (verified : Bool)
  | finish (caller : T) (opened saved : Bool)

namespace Logins

variable [DecidableEq T]

def move (s : Logins T) (caller : T) (next : LoginPhase) : Logins T :=
  { s with phase := Function.update s.phase caller next }

def complete (s : Logins T) (caller : T) (call : LoginCall) : Logins T :=
  { s.move caller .idle with calls := s.calls ++ [call] }

def lookupUser (s : Logins T) (caller : T) : Logins T :=
  match s.phase caller with
  | .idle =>
    if s.row.enabled ≠ ['Y'] ∨ s.row.locked = ['Y'] then
      s.complete caller ⟨s.everLocked, .denied⟩
    else s.move caller (.lookedUp s.row s.everLocked)
  | _ => s

def verifyPassword (s : Logins T) (caller : T) (verified : Bool) : Logins T :=
  match s.phase caller with
  | .lookedUp user afterLock => s.move caller (.checked user afterLock verified)
  | _ => s

def save (s : Logins T) (row : AuthUser) (saved : Bool) : Logins T :=
  { s with
      row := if saved then row else s.row
      everLocked := s.everLocked || (saved && row.locked = ['Y']) }

def finish (maxFailedAttempts : Int) (s : Logins T) (caller : T) (opened saved : Bool) :
    Logins T :=
  match s.phase caller with
  | .checked user afterLock false =>
    { (s.save (failureUpdate maxFailedAttempts user s.row) saved).complete caller
        ⟨afterLock, .denied⟩ with failures := s.failures + 1 }
  | .checked _ afterLock true =>
    if opened then
      { (s.save (successUpdate s.row) saved).complete caller ⟨afterLock, .ok⟩ with failures := 0 }
    else s.complete caller ⟨afterLock, .dbFailure⟩
  | _ => s

def step (maxFailedAttempts : Int) (s : Logins T) : LoginEvent T → Logins T
  | .lookupUser caller => s.lookupUser caller
  | .verifyPassword caller verified => s.verifyPassword caller verified
  | .finish caller opened saved => s.finish maxFailedAttempts caller opened saved

/-- As a successful login leaves the row. -/
def start (row : AuthUser) : Logins T :=
  ⟨successUpdate row, fun _ => .idle, row.locked = ['Y'], 0, []⟩

/-- What the lockout promises. -/
structure Lawful (maxFailedAttempts : Int) (s : Logins T) : Prop where
  locked : 0 < s.failures → maxFailedAttempts ≤ s.failures → s.row.locked = ['Y']
  counted : s.row.failedAttempts = s.failures
  denied : ∀ call ∈ s.calls, call.afterLock = true → call.result ≠ .ok

/-- An update after a wrong credential is saved and finds the counter as its call has
    read it; one after a login is saved, or the counter is zero already. -/
def KeepsCount (s : Logins T) : LoginEvent T → Prop
  | .finish caller opened saved =>
    match s.phase caller with
    | .checked user _ false => saved = true ∧ s.row.failedAttempts = user.failedAttempts
    | .checked _ _ true => opened = true → saved = true ∨ s.row.failedAttempts = 0
    | _ => True
  | _ => True

def Free : LoginPhase → Prop
  | .lookedUp _ afterLock | .checked _ afterLock _ => afterLock = false
  | .idle => True

/-- The lock is never taken back, and the calls on their way have started before it. -/
structure Sound (maxFailedAttempts : Int) (s : Logins T) : Prop where
  lawful : s.Lawful maxFailedAttempts
  everLocked : s.everLocked = true ↔ s.row.locked = ['Y']
  free : ∀ caller, Free (s.phase caller)

variable {maxFailedAttempts : Int} {s : Logins T}

omit [DecidableEq T] in
theorem start_sound (row : AuthUser) : (start row : Logins T).Sound maxFailedAttempts := by
  refine ⟨⟨fun some => ?_, rfl, fun call member => ?_⟩, ?_, fun _ => trivial⟩
  · exact absurd some (Nat.lt_irrefl 0)
  · cases member
  · simp [start, successUpdate]

theorem Sound.move (sound : s.Sound maxFailedAttempts) (caller : T) {next : LoginPhase}
    (free : Free next) : (s.move caller next).Sound maxFailedAttempts := by
  refine ⟨⟨sound.lawful.locked, sound.lawful.counted, sound.lawful.denied⟩, sound.everLocked,
    fun other => ?_⟩
  by_cases same : other = caller
  · subst same
    simpa [Logins.move] using free
  · simpa [Logins.move, Function.update_of_ne same] using sound.free other

theorem Sound.complete (sound : s.Sound maxFailedAttempts) (caller : T) {call : LoginCall}
    (denied : call.afterLock = true → call.result ≠ .ok) :
    (s.complete caller call).Sound maxFailedAttempts := by
  have idle : (s.move caller .idle).Sound maxFailedAttempts := sound.move caller trivial
  refine ⟨⟨idle.lawful.locked, idle.lawful.counted, fun other member => ?_⟩, idle.everLocked,
    idle.free⟩
  rcases List.mem_append.mp member with old | new
  · exact sound.lawful.denied other old
  · rw [List.mem_singleton.mp new]
    exact denied

theorem Sound.lookupUser (sound : s.Sound maxFailedAttempts) (caller : T) :
    (s.lookupUser caller).Sound maxFailedAttempts := by
  unfold Logins.lookupUser
  split
  · split
    · exact sound.complete caller fun _ => by simp
    · next enters =>
      refine sound.move caller ?_
      rw [Free, Bool.eq_false_iff, ne_eq, sound.everLocked]
      exact fun locked => enters (Or.inr locked)
  · exact sound

theorem Sound.verifyPassword (sound : s.Sound maxFailedAttempts) (caller : T) (verified : Bool) :
    (s.verifyPassword caller verified).Sound maxFailedAttempts := by
  have free := sound.free caller
  unfold Logins.verifyPassword
  split
  · next user afterLock phase =>
    rw [phase] at free
    exact sound.move caller free
  · exact sound

theorem failureUpdate_locks (seen row : AuthUser) :
    (failureUpdate maxFailedAttempts seen row).failedAttempts = seen.failedAttempts + 1 ∧
      (row.locked = ['Y'] → (failureUpdate maxFailedAttempts seen row).locked = ['Y']) ∧
      (maxFailedAttempts ≤ seen.failedAttempts + 1 →
        (failureUpdate maxFailedAttempts seen row).locked = ['Y']) := by
  unfold failureUpdate
  split
  · exact ⟨rfl, fun _ => rfl, fun _ => rfl⟩
  · next below => exact ⟨rfl, id, fun reached => absurd reached below⟩

omit [DecidableEq T] in
theorem save_everLocked (sound : s.Sound maxFailedAttempts) (row : AuthUser)
    (kept : s.row.locked = ['Y'] → row.locked = ['Y']) (saved : Bool) :
    (s.save row saved).everLocked = true ↔ (s.save row saved).row.locked = ['Y'] := by
  cases saved with
  | true =>
    simp only [save, Bool.true_and, Bool.or_eq_true, decide_eq_true_eq, sound.everLocked, if_true]
    exact ⟨fun either => either.elim kept id, Or.inr⟩
  | false => simpa [save] using sound.everLocked

theorem Sound.finish (sound : s.Sound maxFailedAttempts) {caller : T} {opened saved : Bool}
    (keeps : s.KeepsCount (.finish caller opened saved)) :
    (s.finish maxFailedAttempts caller opened saved).Sound maxFailedAttempts := by
  have free := sound.free caller
  unfold Logins.finish
  unfold KeepsCount at keeps
  split
  · next user afterLock phase =>
    simp only [phase] at keeps free
    obtain ⟨rfl, unchanged⟩ := keeps
    obtain ⟨counts, stays, locks⟩ := @failureUpdate_locks maxFailedAttempts user s.row
    have counted := sound.lawful.counted
    have idle : (s.complete caller ⟨afterLock, .denied⟩).Sound maxFailedAttempts :=
      sound.complete caller fun _ => by simp
    refine ⟨⟨fun _ reached => locks ?_, ?_, idle.lawful.denied⟩,
      save_everLocked sound _ stays true, idle.free⟩
    · simp only [Nat.cast_add, Nat.cast_one] at reached
      omega
    · simp only [Logins.complete, Logins.move, Logins.save, if_true, counts, Nat.cast_add,
        Nat.cast_one]
      omega
  · next user afterLock phase =>
    simp only [phase] at keeps free
    split
    · next success =>
      have idle : (s.complete caller ⟨afterLock, .ok⟩).Sound maxFailedAttempts :=
        sound.complete caller fun late => absurd (free.symm.trans late) (by simp)
      have everLocked : (s.save (successUpdate s.row) saved).everLocked = true ↔
          (s.save (successUpdate s.row) saved).row.locked = ['Y'] :=
        save_everLocked sound (successUpdate s.row) id saved
      refine ⟨⟨fun some => absurd some (Nat.lt_irrefl 0), ?_, idle.lawful.denied⟩,
        everLocked, idle.free⟩
      rcases keeps success with rfl | zero
      · rfl
      · cases saved with
        | true => rfl
        | false => exact zero
    · exact sound.complete caller fun _ => by simp
  · exact sound

/-- A step keeps what the lockout promises exactly if it keeps the count. -/
theorem Sound.step (sound : s.Sound maxFailedAttempts) (event : LoginEvent T)
    (keeps : s.KeepsCount event) : (s.step maxFailedAttempts event).Sound maxFailedAttempts := by
  cases event with
  | lookupUser caller => exact sound.lookupUser caller
  | verifyPassword caller verified => exact sound.verifyPassword caller verified
  | finish caller opened saved => exact sound.finish keeps

theorem Sound.keepsCount (sound : s.Sound maxFailedAttempts) (event : LoginEvent T)
    (lawful : (s.step maxFailedAttempts event).Lawful maxFailedAttempts) : s.KeepsCount event := by
  have before := sound.lawful.counted
  have after := lawful.counted
  cases event with
  | lookupUser caller => trivial
  | verifyPassword caller verified => trivial
  | finish caller opened saved =>
    simp only [Logins.step, Logins.finish] at after
    unfold KeepsCount
    cases phase : s.phase caller with
    | idle => simp only [phase]
    | lookedUp user afterLock => simp only [phase]
    | checked user afterLock verified =>
      simp only [phase] at after ⊢
      cases verified with
      | false =>
        have counts := (@failureUpdate_locks maxFailedAttempts user s.row).1
        cases saved with
        | true =>
          simp only [Logins.complete, Logins.move, Logins.save, if_true, counts, Nat.cast_add,
            Nat.cast_one] at after
          exact ⟨rfl, by omega⟩
        | false =>
          simp only [Logins.complete, Logins.move, Logins.save, Bool.false_eq_true, if_false,
            Nat.cast_add, Nat.cast_one] at after
          omega
      | true =>
        intro success
        cases saved with
        | true => exact Or.inl rfl
        | false =>
          simp only [if_pos success] at after
          exact Or.inr after

/-- The lockout keeps its promise in every state of a run exactly if every update after
    a wrong credential is saved and finds the counter as its own call has read it, and
    every update after a login that is not saved finds it at zero. -/
theorem lockout_counts_iff (maxFailedAttempts : Int) (row : AuthUser)
    (events : List (LoginEvent T)) :
    (∀ reached, reached <+: events →
        (reached.foldl (step maxFailedAttempts) (start row)).Lawful maxFailedAttempts) ↔
      Meets (step maxFailedAttempts) KeepsCount (start row) events :=
  Meets.lawful_iff (fun _ event sound keeps => sound.step event keeps)
    (fun _ sound => sound.lawful) (fun _ event sound lawful => sound.keepsCount event lawful)
    (start_sound row)

def localUser : AuthUser := ⟨7, ['Y'], ['N'], 0, "LOCAL".toList⟩

/-- Two guesses read the counter before either of them writes it. -/
def twoGuesses : List (LoginEvent Bool) :=
  [.lookupUser false, .lookupUser true, .verifyPassword false false, .verifyPassword true false,
    .finish false true true, .finish true true true]

theorem guess_is_not_counted :
    (twoGuesses.foldl (step 2) (start localUser)).failures = 2 ∧
      (twoGuesses.foldl (step 2) (start localUser)).row.failedAttempts = 1 ∧
      (twoGuesses.foldl (step 2) (start localUser)).row.locked = ['N'] ∧
      ¬ (twoGuesses.foldl (step 2) (start localUser)).Lawful 2 :=
  ⟨rfl, rfl, rfl, fun lawful => absurd lawful.counted (by decide)⟩

end Logins

end OciWrapper.Infra
