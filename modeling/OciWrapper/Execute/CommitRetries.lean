import OciWrapper.Execute.TransactionManager

namespace OciWrapper.Execute

open OciWrapper.Text OciWrapper.Store

/-- What the rounds of `tx_commit_with_retry` have brought, and its counter `attempt`. -/
structure RetryLoop where
  made : List CommitResult
  attempt : Int

/-- What `tx_commit_with_retry` hands back, and the outcomes of its attempts. -/
structure RetryOutcome where
  made : List CommitResult
  rc : Int
  outAttempts : Int

/-- What an `int` keeps of a number. -/
def toInt32 (n : Int) : Int := Int.bmod n (2 ^ 32)

/-- One round; true is a `break`. -/
def retryRound (driver : Nat → CommitResult) (maxRetries : Int) (loop : RetryLoop) :
    RetryLoop × Bool :=
  let rc := driver loop.made.length
  let made := loop.made ++ [rc]
  if rc ≠ .retryable then (⟨made, loop.attempt⟩, true)
  else if maxRetries ≤ loop.attempt then (⟨made, loop.attempt⟩, true)
  else (⟨made, loop.attempt + 1⟩, false)

def retryRounds (driver : Nat → CommitResult) (maxRetries : Int) : Nat → RetryLoop →
    Option RetryLoop
  | 0, _ => none
  | rounds + 1, loop =>
    match retryRound driver maxRetries loop with
    | (loop, true) => some loop
    | (loop, false) => retryRounds driver maxRetries rounds loop

/-- `tx_commit_with_retry`; without a driver nothing is attempted. -/
def txCommitCounted (driver : Option (Nat → CommitResult)) (maxRetries : Int) :
    Option RetryOutcome :=
  match driver with
  | none => some ⟨[], -1, 0⟩
  | some commit =>
    let maxRetries := if maxRetries < 0 then 0 else maxRetries
    (retryRounds commit maxRetries (maxRetries.toNat + 1) ⟨[], 0⟩).map fun loop =>
      ⟨loop.made, if loop.made.getLast? = some .ok then 0 else -1, toInt32 (loop.attempt + 1)⟩

variable {Row : Type}

/-- `tx_commit`, with or without a driver that can commit. -/
def txCommitBy (w : World Row) (handle : TxHandle) (driver : Option (Nat → CommitResult))
    (rolledBack : Bool) : World Row × TxHandle × TxResult :=
  match driver with
  | some commit => txCommit w handle commit rolledBack
  | none =>
    if handle.status ≠ .active then (w, handle, .noActive)
    else
      ({ w with activeTx := none }.emit [.rollback rolledBack],
        { handle with status := .aborted }, .ociFailure)

section Rounds

variable {driver : Nat → CommitResult} {maxRetries : Int} {loop : RetryLoop}

/-- Every round so far was worth another one. -/
structure Trying (driver : Nat → CommitResult) (maxRetries : Int) (loop : RetryLoop) : Prop where
  made : loop.made = List.replicate loop.made.length .retryable
  asked : loop.made = (List.range loop.made.length).map driver
  attempt : loop.attempt = loop.made.length
  room : loop.attempt ≤ maxRetries

/-- The loop has ended, at the first outcome that no retry can follow. -/
structure Stopped (driver : Nat → CommitResult) (maxRetries : Int) (loop : RetryLoop) : Prop where
  last : ∃ n result, loop.made = List.replicate n .retryable ++ [result] ∧
    (result = .retryable → (n : Int) = maxRetries)
  asked : loop.made = (List.range loop.made.length).map driver
  attempt : loop.attempt + 1 = loop.made.length
  room : loop.attempt ≤ maxRetries

theorem Trying.start (nonneg : 0 ≤ maxRetries) : Trying driver maxRetries ⟨[], 0⟩ :=
  ⟨rfl, rfl, rfl, nonneg⟩

theorem asked_concat (asked : loop.made = (List.range loop.made.length).map driver) :
    loop.made ++ [driver loop.made.length] =
      (List.range (loop.made ++ [driver loop.made.length]).length).map driver := by
  rw [List.length_append, List.length_singleton, List.range_succ, List.map_append, ← asked]
  rfl

/-- What one round does to the loop. -/
theorem Trying.round (trying : Trying driver maxRetries loop) :
    (∃ after, retryRound driver maxRetries loop = (after, true) ∧
      Stopped driver maxRetries after) ∨
    ∃ after, retryRound driver maxRetries loop = (after, false) ∧
      Trying driver maxRetries after ∧ after.attempt = loop.attempt + 1 := by
  obtain ⟨made, asked, attempt, room⟩ := trying
  have length : (loop.made ++ [driver loop.made.length]).length = loop.made.length + 1 :=
    List.length_append
  simp only [retryRound]
  by_cases final : driver loop.made.length ≠ .retryable
  · rw [if_pos final]
    refine Or.inl ⟨_, rfl, ⟨loop.made.length, driver loop.made.length, ?_,
      fun again => absurd again final⟩, asked_concat asked, ?_, room⟩
    · exact congrArg (· ++ [driver loop.made.length]) made
    · dsimp only
      omega
  · rw [if_neg final]
    rw [ne_eq, Decidable.not_not] at final
    by_cases spent : maxRetries ≤ loop.attempt
    · rw [if_pos spent]
      refine Or.inl ⟨_, rfl, ⟨loop.made.length, driver loop.made.length, ?_,
        fun _ => by omega⟩, asked_concat asked, ?_, room⟩
      · exact congrArg (· ++ [driver loop.made.length]) made
      · dsimp only
        omega
    · rw [if_neg spent]
      refine Or.inr ⟨_, rfl, ⟨?_, asked_concat asked, ?_, ?_⟩, rfl⟩
      · dsimp only
        rw [length, List.replicate_succ', ← made, final]
      · dsimp only
        omega
      · dsimp only
        omega

/-- Rounds for the retries that are left end the loop. -/
theorem retryRounds_stopped {rounds : Nat} (trying : Trying driver maxRetries loop)
    (enough : maxRetries < loop.attempt + rounds) :
    ∃ final, retryRounds driver maxRetries rounds loop = some final ∧
      Stopped driver maxRetries final := by
  induction rounds generalizing loop with
  | zero =>
    have room := trying.room
    omega
  | succ rounds ih =>
    rw [retryRounds]
    rcases trying.round with ⟨after, made, stopped⟩ | ⟨after, made, still, counted⟩
    · rw [made]
      exact ⟨after, rfl, stopped⟩
    · rw [made]
      exact ih still (by omega)

/-- The calls of a driver that is there: at least one, all but the last worth a retry. -/
theorem txCommitCounted_spec (commit : Nat → CommitResult) (maxRetries : Int) :
    ∃ loop, Stopped commit (max maxRetries 0) loop ∧
      txCommitCounted (some commit) maxRetries =
        some ⟨loop.made, if loop.made.getLast? = some .ok then 0 else -1,
          toInt32 (loop.attempt + 1)⟩ := by
  have clamped : (if maxRetries < 0 then 0 else maxRetries) = max maxRetries 0 := by
    split <;> omega
  obtain ⟨loop, ended, stopped⟩ := @retryRounds_stopped commit (max maxRetries 0) ⟨[], 0⟩
    ((max maxRetries 0).toNat + 1) (Trying.start (by omega)) (by dsimp only; omega)
  refine ⟨loop, stopped, ?_⟩
  rw [txCommitCounted, clamped, ended]
  rfl

theorem Stopped.getLast? (stopped : Stopped driver maxRetries loop) :
    ∃ result, loop.made.getLast? = some result ∧
      (result = .retryable → (loop.made.length : Int) = maxRetries + 1) ∧
      ∀ i earlier, loop.made[i]? = some earlier →
        (i + 1 < loop.made.length → earlier = .retryable) ∧
        (i + 1 = loop.made.length → earlier = result) := by
  obtain ⟨⟨n, result, made, spent⟩, -, -, -⟩ := stopped
  have length : loop.made.length = n + 1 := by
    rw [made, List.length_append, List.length_replicate, List.length_singleton]
  refine ⟨result, by rw [made, List.getLast?_concat], ?_, ?_⟩
  · intro again
    have retries := spent again
    omega
  · intro i earlier found
    constructor
    · intro before
      rw [made, List.getElem?_append_left (by rw [List.length_replicate]; omega),
        List.getElem?_replicate_of_lt (by omega)] at found
      exact (Option.some.inj found).symm
    · intro at_end
      obtain rfl : i = n := by omega
      rw [made, List.getElem?_append_right (by rw [List.length_replicate]),
        List.length_replicate, Nat.sub_self] at found
      exact (Option.some.inj found).symm

end Rounds

section Agreement

theorem commitAttempts_last {driver : Nat → CommitResult} {attempt : Nat}
    (final : driver attempt ≠ .retryable) (left : Nat) :
    commitAttempts driver left attempt = [driver attempt] := by
  cases left with
  | zero => rfl
  | succ left =>
    rw [commitAttempts]
    split
    · next again => exact absurd again final
    · rfl

theorem commitAttempts_again {driver : Nat → CommitResult} {attempt : Nat}
    (again : driver attempt = .retryable) (left : Nat) :
    commitAttempts driver (left + 1) attempt =
      .retryable :: commitAttempts driver left (attempt + 1) := by
  rw [commitAttempts, again]

/-- The counted loop asks as `commitAttempts` does. -/
theorem retryRounds_made (driver : Nat → CommitResult) (maxRetries : Int) :
    ∀ {rounds : Nat} {loop final : RetryLoop},
      retryRounds driver maxRetries rounds loop = some final →
      final.made = loop.made ++ commitAttempts driver (maxRetries - loop.attempt).toNat
        loop.made.length := by
  intro rounds
  induction rounds with
  | zero =>
    intro loop final ended
    cases ended
  | succ rounds ih =>
    intro loop final ended
    rw [retryRounds, retryRound] at ended
    by_cases last : driver loop.made.length ≠ .retryable
    · rw [if_pos last] at ended
      obtain rfl := Option.some.inj ended
      rw [commitAttempts_last last]
    · rw [if_neg last] at ended
      rw [ne_eq, Decidable.not_not] at last
      by_cases spent : maxRetries ≤ loop.attempt
      · rw [if_pos spent] at ended
        obtain rfl := Option.some.inj ended
        have none : (maxRetries - loop.attempt).toNat = 0 := by omega
        rw [none, commitAttempts]
      · rw [if_neg spent] at ended
        have rest := ih ended
        have left : (maxRetries - loop.attempt).toNat =
            (maxRetries - (loop.attempt + 1)).toNat + 1 := by omega
        rw [rest, left, commitAttempts_again last, List.length_append, List.length_singleton,
          last, List.append_assoc]
        rfl

theorem txCommitCounted_made (commit : Nat → CommitResult) (maxRetries : Int) {out : RetryOutcome}
    (counted : txCommitCounted (some commit) maxRetries = some out) :
    out.made = commitAttempts commit maxRetries.toNat 0 := by
  have clamped : (if maxRetries < 0 then 0 else maxRetries).toNat = maxRetries.toNat := by
    split <;> omega
  rw [txCommitCounted] at counted
  obtain ⟨loop, ended, rfl⟩ := Option.map_eq_some_iff.mp counted
  have made := retryRounds_made commit _ ended
  rw [List.nil_append, List.length_nil, Int.sub_zero, clamped] at made
  exact made

end Agreement

section Commit

variable {w : World Row} {handle : TxHandle} {driver : Option (Nat → CommitResult)}
  {rolledBack : Bool} {out : RetryOutcome}

theorem txCommitBy_idle (idle : handle.status ≠ .active) :
    txCommitBy w handle driver rolledBack = (w, handle, .noActive) := by
  cases driver with
  | none => exact if_pos idle
  | some commit => exact if_pos idle

/-- A commit of an active transaction makes the counted attempts, and a rollback after them if
none of them succeeded. -/
theorem txCommitBy_active (active : handle.status = .active)
    (counted : txCommitCounted driver handle.maxRetries = some out) :
    txCommitBy w handle driver rolledBack =
      if out.rc = 0 then
        ({ w with activeTx := none }.emit (out.made.map Effect.commit),
          { handle with status := .committed }, .ok)
      else
        ({ w with activeTx := none }.emit (out.made.map Effect.commit ++ [Effect.rollback rolledBack]),
          { handle with status := .aborted }, .ociFailure) := by
  cases driver with
  | none =>
    cases counted
    exact if_neg (not_not_intro active)
  | some commit =>
    have made := txCommitCounted_made commit handle.maxRetries counted
    obtain ⟨loop, -, same⟩ := txCommitCounted_spec commit handle.maxRetries
    rw [counted] at same
    obtain rfl := Option.some.inj same
    dsimp only at made ⊢
    rw [txCommitBy, txCommit, if_neg (not_not_intro active), txCommitWithRetry, made]
    by_cases succeeded : (commitAttempts commit handle.maxRetries.toNat 0).getLast? = some .ok
    · rw [if_pos succeeded, if_pos rfl, decide_eq_true succeeded]
      rfl
    · rw [if_neg succeeded, if_neg (by decide), decide_eq_false succeeded]
      simp only [World.emit, List.append_assoc]

/-- The attempts of a commit, their count and their result, for every number of retries whose
attempts an `int` can count. -/
theorem tx_commit_retries (driver : Option (Nat → CommitResult)) (maxRetries : Int)
    (countable : maxRetries < 2 ^ 31 - 1) :
    ∃ out, txCommitCounted driver maxRetries = some out ∧
      (out.made.length : Int) ≤ max maxRetries 0 + 1 ∧
      (∀ i result, out.made[i]? = some result →
        ∃ commit, driver = some commit ∧ result = commit i ∧
          (i + 1 < out.made.length → result = .retryable) ∧
          (result = .ok → i + 1 = out.made.length)) ∧
      (out.made.getLast? = some .retryable → (out.made.length : Int) = max maxRetries 0 + 1) ∧
      (driver.isSome = true → out.made ≠ []) ∧
      out.rc = (if out.made.getLast? = some .ok then 0 else -1) ∧
      out.outAttempts = out.made.length ∧
      ∀ (w : World Row) (handle : TxHandle) (rolledBack : Bool), handle.maxRetries = maxRetries →
        let done := txCommitBy w handle driver rolledBack
        (handle.status ≠ .active → done = (w, handle, .noActive)) ∧
        (handle.status = .active →
          (done.2.1.status = .committed ↔ done.2.2 = .ok) ∧ (done.2.2 = .ok ↔ out.rc = 0) ∧
          done.1.effects = w.effects ++ out.made.map .commit ++
            (if out.rc = 0 then [] else [.rollback rolledBack])) := by
  have counts : ∀ n : Nat, (n : Int) ≤ max maxRetries 0 + 1 → toInt32 n = n := by
    intro n few
    exact Int.bmod_eq_of_le (by omega) (by omega)
  have commits : ∀ {out : RetryOutcome}, txCommitCounted driver maxRetries = some out →
      ∀ (w : World Row) (handle : TxHandle) (rolledBack : Bool), handle.maxRetries = maxRetries →
        let done := txCommitBy w handle driver rolledBack
        (handle.status ≠ .active → done = (w, handle, .noActive)) ∧
        (handle.status = .active →
          (done.2.1.status = .committed ↔ done.2.2 = .ok) ∧ (done.2.2 = .ok ↔ out.rc = 0) ∧
          done.1.effects = w.effects ++ out.made.map .commit ++
            (if out.rc = 0 then [] else [.rollback rolledBack])) := by
    rintro out counted w handle rolledBack rfl
    refine ⟨txCommitBy_idle, fun active => ?_⟩
    rw [txCommitBy_active active counted]
    by_cases succeeded : out.rc = 0
    · simp [succeeded]
    · simp [succeeded]
  cases driver with
  | none =>
    exact ⟨⟨[], -1, 0⟩, rfl, by dsimp; omega, by simp, by simp, by simp, rfl, rfl, commits rfl⟩
  | some commit =>
    obtain ⟨loop, stopped, counted⟩ := txCommitCounted_spec commit maxRetries
    obtain ⟨result, last, spent, earlier⟩ := stopped.getLast?
    have attempts := stopped.attempt
    have room := stopped.room
    refine ⟨_, counted, by dsimp only; omega, ?_, ?_, ?_, rfl, ?_, commits counted⟩
    · intro i value found
      have inside : i < loop.made.length := (List.getElem?_eq_some_iff.mp found).1
      obtain ⟨again, final⟩ := earlier i value found
      refine ⟨commit, rfl, ?_, again, ?_⟩
      · dsimp only at found
        rw [stopped.asked, List.getElem?_map, List.getElem?_range inside] at found
        exact (Option.some.inj found).symm
      · rintro rfl
        by_contra more
        exact absurd (again (by dsimp only at more ⊢; omega)) (by decide)
    · intro again
      rw [last] at again
      exact spent (Option.some.inj again)
    · rintro - (empty : loop.made = [])
      rw [empty] at last
      cases last
    · dsimp only
      rw [attempts, counts _ (by omega)]

/-- A driver that always asks for a retry is asked once more than there are retries. -/
theorem txCommitCounted_exhausted (maxRetries : Int) :
    ∃ out, txCommitCounted (some fun _ => .retryable) maxRetries = some out ∧
      (out.made.length : Int) = max maxRetries 0 + 1 ∧
      out.outAttempts = toInt32 out.made.length := by
  obtain ⟨loop, stopped, counted⟩ := txCommitCounted_spec (fun _ => .retryable) maxRetries
  obtain ⟨result, last, spent, -⟩ := stopped.getLast?
  have again : result = .retryable := by
    have member := List.mem_of_getLast? last
    rw [stopped.asked] at member
    obtain ⟨-, -, same⟩ := List.mem_map.mp member
    exact same.symm
  exact ⟨_, counted, spent again, congrArg toInt32 stopped.attempt⟩

theorem tx_commit_retries_once :
    (-1 : Int) < 2 ^ 31 - 1 ∧ ∃ out, txCommitCounted (some fun _ => .retryable) (-1) = some out ∧
      (out.made.length : Int) ≤ max (-1) 0 + 1 ∧ out.outAttempts = out.made.length := by
  obtain ⟨out, counted, few, -, -, -, -, attempts, -⟩ :=
    @tx_commit_retries Nat (some fun _ => .retryable) (-1) (by decide)
  exact ⟨by decide, out, counted, few, attempts⟩

/-- A negative number of retries still makes an attempt, a handle that is committed already stays
so although its commit fails, and the attempts of `INT_MAX` retries do not fit into an `int`. -/
theorem tx_commit_other_retries :
    ¬(∀ driver maxRetries out, txCommitCounted driver maxRetries = some out →
      (out.made.length : Int) ≤ maxRetries + 1) ∧
    ¬(∀ (w : World Nat) handle driver rolledBack,
      (txCommitBy w handle driver rolledBack).2.1.status = .committed ↔
        (txCommitBy w handle driver rolledBack).2.2 = .ok) ∧
    ¬∀ driver maxRetries out, txCommitCounted driver maxRetries = some out →
      out.outAttempts = out.made.length := by
  refine ⟨fun few => ?_, fun commits => ?_, fun counts => ?_⟩
  · have attempts := few (some fun _ => .ok) (-1) ⟨[.ok], 0, 1⟩ rfl
    exact absurd attempts (by decide)
  · have reported := (commits ⟨⟨[], 0, 0, 0, 0⟩, none, false, []⟩
      { txInit with status := .committed } none false).mp rfl
    exact absurd reported (by decide)
  · obtain ⟨out, counted, made, attempts⟩ := txCommitCounted_exhausted (2 ^ 31 - 1)
    have same := counts _ _ out counted
    rw [attempts, made] at same
    exact absurd same (by decide)

end Commit

end OciWrapper.Execute
