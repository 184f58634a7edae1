import OciWrapper.Execute.TransactionHandles
import OciWrapper.Execute.StandaloneIdentity

namespace OciWrapper.Execute

open OciWrapper.Text OciWrapper.Store OciWrapper.Concurrent

variable {H Row : Type} [DecidableEq H]

/-- `active_tx` points to the one handle that is ACTIVE, and is NULL without one. -/
def Coherent (s : HandleContext H Row) : Prop := ∀ h, s.status h = .active ↔ s.activeTx = some h

/-- A call leaves the other handles alone, and but for `tx_begin` it leaves the pointer
    alone unless its own handle is ACTIVE. -/
structure Framed (s : HandleContext H Row) (c : TxCall H) : Prop where
  handles : ∀ k, k ≠ c.target → (s.call c).handles k = s.handles k
  pointer : (∀ h sessionId txName uuid now, c ≠ .begin h sessionId txName uuid now) →
    s.status c.target ≠ .active → (s.call c).activeTx = s.activeTx

/-- A transaction begins only without another, and is aborted only without another. -/
def OneTransaction (s : HandleContext H Row) : TxCall H → Prop
  | .begin h _ _ _ _ | .abort h _ => s.status h = .active ∨ s.activeTx = none
  | .commit _ _ _ | .rollback _ _ | .checkTimeout _ _ _ | .touch _ _ => True

omit [DecidableEq H] in
theorem start_coherent (ini : IniConfig) :
    Coherent (HandleContext.start ini : HandleContext H Row) := by
  intro h
  simp [HandleContext.start, HandleContext.status, txInit]

/-- What acts on the ACTIVE handle ends it, and leaves no handle ACTIVE. -/
theorem ends_coherent {s : HandleContext H Row} (coherent : Coherent s) {c : TxCall H}
    (acts : s.Acts c) (clears : HandleContext.pointer c = none)
    (ends : s.outcome c ≠ .active)
    (alone : s.status c.target = .active ∨ s.activeTx = none) : Coherent (s.call c) := by
  obtain ⟨statuses, pointer⟩ := HandleContext.call_acts acts
  intro k
  rw [statuses, pointer, clears, Function.update_apply]
  split
  · simp [ends]
  · rename_i other
    rcases alone with mine | nobody
    · simp only [reduceCtorEq, iff_false]
      intro active
      have same := ((coherent k).mp active).symm.trans ((coherent c.target).mp mine)
      exact other (Option.some.inj same)
    · rw [coherent k, nobody]

theorem idle_coherent {s : HandleContext H Row} (coherent : Coherent s) {c : TxCall H}
    (idle : ¬ s.Acts c) : Coherent (s.call c) := by
  obtain ⟨statuses, pointer⟩ := HandleContext.call_idle idle
  intro k
  rw [statuses, pointer]
  exact coherent k

/-- From a coherent state exactly the calls that meet the condition keep the pointer right. -/
theorem call_coherent_iff {s : HandleContext H Row} (coherent : Coherent s) (c : TxCall H) :
    (Coherent (s.call c) ∧ Framed s c) ↔ OneTransaction s c := by
  have others : ∀ k, k ≠ c.target → (s.call c).handles k = s.handles k :=
    fun k other => s.call_others c other
  by_cases acts : s.Acts c
  · obtain ⟨statuses, pointer⟩ := HandleContext.call_acts acts
    cases c with
    | begin h sessionId txName uuid now =>
      have inactive : s.status h ≠ .active := acts
      simp only [OneTransaction, inactive, false_or]
      constructor
      · rintro ⟨after, -⟩
        cases before : s.activeTx with
        | none => rfl
        | some k =>
          have active := (coherent k).mpr before
          have other : k ≠ h := fun same => inactive (same ▸ active)
          have still : (s.call (.begin h sessionId txName uuid now)).status k = .active := by
            rw [statuses]
            exact (Function.update_of_ne other _ _).trans active
          have pointed := (after k).mp still
          rw [pointer] at pointed
          exact (other (Option.some.inj pointed).symm).elim
      · intro nobody
        refine ⟨fun k => ?_, others, fun never => (never _ _ _ _ _ rfl).elim⟩
        rw [statuses, pointer, Function.update_apply]
        split
        · rename_i same
          exact ⟨fun _ => by rw [same]; rfl, fun _ => rfl⟩
        · rename_i other
          rw [coherent k, nobody]
          simp only [HandleContext.pointer, reduceCtorEq, Option.some.injEq, false_iff]
          exact fun same => other same.symm
    | commit h driver rolledBack =>
      have active : s.status h = .active := acts
      refine ⟨fun _ => trivial, fun _ => ⟨ends_coherent coherent acts rfl ?_ (.inl active), others,
        fun _ inactive => (inactive active).elim⟩⟩
      simp only [HandleContext.outcome]
      split <;> decide
    | rollback h rolledBack =>
      have active : s.status h = .active := acts
      exact ⟨fun _ => trivial, fun _ => ⟨ends_coherent coherent acts rfl (fun same => by cases same)
        (.inl active), others, fun _ inactive => (inactive active).elim⟩⟩
    | abort h rolledBack =>
      simp only [OneTransaction]
      constructor
      · rintro ⟨after, -, framed⟩
        by_cases active : s.status h = .active
        · exact .inl active
        · right
          have same := framed (fun _ _ _ _ _ same => by cases same) active
          rw [pointer] at same
          exact same.symm
      · intro alone
        refine ⟨ends_coherent coherent acts rfl (fun same => by cases same) alone, others,
          fun _ inactive => ?_⟩
        rw [pointer]
        exact (alone.resolve_left inactive).symm
    | checkTimeout h now rolledBack =>
      have active : s.status h = .active := And.left acts
      exact ⟨fun _ => trivial, fun _ => ⟨ends_coherent coherent acts rfl (fun same => by cases same)
        (.inl active), others, fun _ inactive => (inactive active).elim⟩⟩
    | touch h now => exact (acts : False).elim
  · have same := HandleContext.call_idle acts
    refine ⟨fun _ => ?_, fun _ => ⟨idle_coherent coherent acts, others, fun _ _ => same.2⟩⟩
    cases c with
    | begin h sessionId txName uuid now => exact .inl (Classical.not_not.mp acts)
    | abort h rolledBack => exact (acts trivial).elim
    | commit h driver rolledBack => trivial
    | rollback h rolledBack => trivial
    | checkTimeout h now rolledBack => trivial
    | touch h now => trivial

/-- In a run from fresh handles the pointer is right after every call exactly if every
    call meets the condition. -/
theorem active_pointer_iff (ini : IniConfig) (calls : List (TxCall H)) :
    Meets HandleContext.call (fun s c => Coherent (s.call c) ∧ Framed s c)
        (HandleContext.start ini : HandleContext H Row) calls ↔
      Meets HandleContext.call OneTransaction (HandleContext.start ini : HandleContext H Row)
        calls := by
  have keeps : ∀ (s : HandleContext H Row) c, Coherent s →
      Coherent (s.call c) ∧ Framed s c → Coherent (s.call c) := fun _ _ _ good => good.1
  exact Meets.congr keeps (fun _ c coherent => call_coherent_iff coherent c) (start_coherent ini)

/-- The abort of a handle that never began takes the pointer from the one that did. -/
theorem abort_takes_pointer :
    ¬ (∀ calls : List (TxCall Nat),
      Meets HandleContext.call (fun s c => Coherent (s.call c) ∧ Framed s c)
        (HandleContext.start sampleIni : HandleContext Nat Nat) calls) ∧
    let after : HandleContext Nat Nat :=
      [TxCall.begin 0 [] [] "u1".toList 10, .abort 1 true].foldl HandleContext.call (.start sampleIni)
    after.status 0 = .active ∧ after.activeTx = none := by
  have run : let after : HandleContext Nat Nat :=
      [TxCall.begin 0 [] [] "u1".toList 10, .abort 1 true].foldl HandleContext.call (.start sampleIni)
    after.status 0 = .active ∧ after.activeTx = none := by decide
  refine ⟨fun right => ?_, run⟩
  obtain ⟨-, ⟨coherent, -⟩, -⟩ := right [.begin 0 [] [] "u1".toList 10, .abort 1 true]
  have pointed := (coherent 0).mp run.1
  cases pointed

/-- What the driver did last for a handle since it began. -/
inductive Decision
  | committed
  | undone
  deriving DecidableEq

/-- The context with the driver's last decision on each handle. -/
structure DecidedContext (H Row : Type) where
  context : HandleContext H Row
  decision : H → Option Decision

namespace DecidedContext

def start (ini : IniConfig) : DecidedContext H Row := ⟨.start ini, fun _ => none⟩

/-- The decision that a call brings about, if it asks the driver or begins anew. -/
def decides (s : HandleContext H Row) : TxCall H → Option (Option Decision)
  | .begin h _ _ _ _ => if s.status h = .active then none else some none
  | .commit h driver _ =>
    if s.status h = .active then some (some (if s.Commits h driver then .committed else .undone))
    else none
  | .rollback h _ | .abort h _ => if s.status h = .active then some (some .undone) else none
  | .checkTimeout h now _ =>
    if (s.handles h).handle.TimedOut (now - (s.handles h).lastActivityEpoch) then
      some (some .undone)
    else none
  | .touch _ _ => none

def call (d : DecidedContext H Row) (c : TxCall H) : DecidedContext H Row where
  context := d.context.call c
  decision := match decides d.context c with
    | none => d.decision
    | some decision => Function.update d.decision c.target decision

/-- A committed handle reports COMMITTED, and one that was undone does not. -/
def Truthful (d : DecidedContext H Row) : Prop :=
  ∀ h, (d.decision h = some .committed → d.context.status h = .committed) ∧
    (d.decision h = some .undone → d.context.status h ≠ .committed)

/-- No handle that reports COMMITTED is aborted. -/
def SparesCommitted (d : DecidedContext H Row) : TxCall H → Prop
  | .abort h _ => d.context.status h ≠ .committed
  | .begin _ _ _ _ _ | .commit _ _ _ | .rollback _ _ | .checkTimeout _ _ _ | .touch _ _ => True

/-- A handle reports COMMITTED exactly if the driver's last decision was the commit. -/
def Aligned (d : DecidedContext H Row) : Prop :=
  ∀ h, d.decision h = some .committed ↔ d.context.status h = .committed

omit [DecidableEq H] in
theorem Aligned.truthful {d : DecidedContext H Row} (aligned : d.Aligned) : d.Truthful := by
  intro h
  refine ⟨(aligned h).mp, fun undone committed => ?_⟩
  rw [(aligned h).mpr committed] at undone
  cases undone

/-- A call that asks the driver leaves the status that the decision stands for. -/
theorem decided_aligned {d : DecidedContext H Row} (aligned : d.Aligned) {c : TxCall H}
    {decision : Option Decision} (decided : decides d.context c = some decision)
    (acts : d.context.Acts c)
    (stands : decision = some .committed ↔ d.context.outcome c = .committed) :
    (d.call c).Aligned := by
  intro h
  simp only [call, decided, (HandleContext.call_acts acts).1, Function.update_apply]
  split
  · exact stands
  · exact aligned h

theorem undecided_aligned {d : DecidedContext H Row} (aligned : d.Aligned) {c : TxCall H}
    (undecided : decides d.context c = none) (idle : ¬ d.context.Acts c) : (d.call c).Aligned := by
  intro h
  simp only [call, undecided, (HandleContext.call_idle idle).1]
  exact aligned h

/-- Only the abort of a handle that reports COMMITTED breaks the alignment. -/
theorem call_aligned_iff {d : DecidedContext H Row} (aligned : d.Aligned) (c : TxCall H) :
    ((d.call c).Truthful ↔ d.SparesCommitted c) ∧
      (d.SparesCommitted c → (d.call c).Aligned) := by
  have whenAligned : (d.call c).Aligned → d.SparesCommitted c →
      ((d.call c).Truthful ↔ d.SparesCommitted c) ∧
        (d.SparesCommitted c → (d.call c).Aligned) :=
    fun after spares => ⟨⟨fun _ => spares, fun _ => after.truthful⟩, fun _ => after⟩
  cases c with
  | begin h sessionId txName uuid now =>
    refine whenAligned ?_ trivial
    by_cases active : d.context.status h = .active
    · exact undecided_aligned aligned (if_pos active) (fun acts => acts active)
    · exact decided_aligned aligned (if_neg active) active (by
        simp [HandleContext.outcome])
  | commit h driver rolledBack =>
    refine whenAligned ?_ trivial
    by_cases active : d.context.status h = .active
    · refine decided_aligned aligned (if_pos active) active ?_
      simp only [HandleContext.outcome]
      split <;> simp
    · exact undecided_aligned aligned (if_neg active) active
  | rollback h rolledBack =>
    refine whenAligned ?_ trivial
    by_cases active : d.context.status h = .active
    · exact decided_aligned aligned (if_pos active) active (by
        simp [HandleContext.outcome])
    · exact undecided_aligned aligned (if_neg active) active
  | abort h rolledBack =>
    have acts : d.context.Acts (.abort h rolledBack) := trivial
    by_cases active : d.context.status h = .active
    · refine whenAligned ?_ (by simp [SparesCommitted, active])
      exact decided_aligned aligned (if_pos active) acts (by
        simp [HandleContext.outcome])
    · have status : (d.call (.abort h rolledBack)).context.status h = .aborted := by
        simp only [call, (HandleContext.call_acts acts).1]
        exact Function.update_self _ _ _
      have decision : (d.call (.abort h rolledBack)).decision = d.decision := by
        simp only [call, decides, if_neg active]
      have keeps : d.SparesCommitted (.abort h rolledBack) →
          (d.call (.abort h rolledBack)).Aligned := by
        intro spares k
        rw [decision]
        by_cases same : k = h
        · rw [same, status, aligned h]
          exact ⟨fun committed => absurd committed spares, fun impossible => by cases impossible⟩
        · have other : (d.call (.abort h rolledBack)).context.status k = d.context.status k := by
            simp only [call, (HandleContext.call_acts acts).1]
            exact Function.update_of_ne same _ _
          rw [other]
          exact aligned k
      refine ⟨⟨fun truthful committed => ?_, fun spares => (keeps spares).truthful⟩, keeps⟩
      have reports := (truthful h).1 (decision ▸ (aligned h).mpr committed)
      rw [status] at reports
      cases reports
  | checkTimeout h now rolledBack =>
    refine whenAligned ?_ trivial
    by_cases due : (d.context.handles h).handle.TimedOut
        (now - (d.context.handles h).lastActivityEpoch)
    · exact decided_aligned aligned (if_pos due) due (by
        simp [HandleContext.outcome])
    · exact undecided_aligned aligned (if_neg due) due
  | touch h now =>
    exact whenAligned (undecided_aligned aligned rfl id) trivial

omit [DecidableEq H] in
theorem start_aligned (ini : IniConfig) : (start ini : DecidedContext H Row).Aligned := by
  intro h
  simp [start, HandleContext.start, HandleContext.status, txInit]

/-- In a run from fresh handles every status reported is true exactly if no handle is
    aborted that reports COMMITTED. -/
theorem statuses_truthful_iff (ini : IniConfig) (calls : List (TxCall H)) :
    Meets call (fun d c => (d.call c).Truthful) (start ini : DecidedContext H Row) calls ↔
      Meets call SparesCommitted (start ini : DecidedContext H Row) calls := by
  have agree : ∀ (d : DecidedContext H Row) c, d.Aligned →
      ((d.call c).Truthful ↔ d.SparesCommitted c) :=
    fun d c aligned => (call_aligned_iff aligned c).1
  refine Meets.congr (fun d c (aligned : Aligned d) truthful => ?_) agree (start_aligned ini)
  exact (call_aligned_iff aligned c).2 ((agree d c aligned).mp truthful)

def commitThenAbort : List (TxCall Nat) :=
  [.begin 0 [] [] "u1".toList 10, .commit 0 (fun _ => .ok) true, .abort 0 true]

/-- A handle that was committed and is aborted afterwards reports ABORTED. -/
theorem committed_reports_aborted :
    ¬ (∀ calls : List (TxCall Nat),
      Meets call (fun d c => (d.call c).Truthful) (start sampleIni : DecidedContext Nat Nat) calls) ∧
    (commitThenAbort.foldl call (start sampleIni : DecidedContext Nat Nat)).decision 0 =
      some .committed ∧
    (commitThenAbort.foldl call (start sampleIni : DecidedContext Nat Nat)).context.status 0 =
      .aborted := by
  have decided : (commitThenAbort.foldl call (start sampleIni : DecidedContext Nat Nat)).decision 0 =
      some .committed := by decide
  have status : (commitThenAbort.foldl call (start sampleIni : DecidedContext Nat Nat)).context.status
      0 = .aborted := by decide
  refine ⟨fun truthful => ?_, decided, status⟩
  obtain ⟨-, -, last, -⟩ := truthful commitThenAbort
  have reports := (last 0).1 decided
  rw [show ((((start sampleIni : DecidedContext Nat Nat).call _).call _).call _).context.status 0 =
    .aborted from status] at reports
  cases reports

end DecidedContext

end OciWrapper.Execute
