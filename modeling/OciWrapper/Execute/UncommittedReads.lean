import OciWrapper.Execute.StaleReads

namespace OciWrapper.Execute

open OciWrapper.Text OciWrapper.Core OciWrapper.Infra OciWrapper.Store

variable {I Row : Type} [DecidableEq I] {reads : CString → List CString}

/-- Every row of the result from a table that its SELECT reads is committed. -/
def OnlyCommitted (reads : CString → List CString) (s : Shared I Row)
    (doc : ResultDoc (View I Row)) : Prop :=
  ∀ w ∈ doc.rows, w.write.table ∈ reads doc.sql → w ∈ s.committed

/-- No live entry holds uncommitted rows. -/
def Shared.Isolated (reads : CString → List CString) (s : Shared I Row) : Prop :=
  s.cache.Live s.now fun _ doc => OnlyCommitted reads s doc

/-- A SELECT that stores its rows has read none that are uncommitted by then. -/
def KeepsIsolated (reads : CString → List CString) (s : Shared I Row) :
    SharedStep I Row → Prop :=
  s.Publishes fun _ doc => OnlyCommitted reads s doc

omit [DecidableEq I] in
theorem OnlyCommitted.mono {s later : Shared I Row} {doc : ResultDoc (View I Row)}
    (only : OnlyCommitted reads s doc) (grows : s.committed ⊆ later.committed) :
    OnlyCommitted reads later doc :=
  fun w shown read => grows (only w shown read)

/-- A commit takes nothing back. -/
theorem act_committed (s : Shared I Row) (session : I) (action : TxAction (Write Row)) :
    s.committed ⊆ (s.act session action).committed := by
  cases action with
  | write w => exact List.Subset.refl _
  | commit => exact List.subset_append_left _ _
  | rollback => exact List.Subset.refl _

theorem perform_committed (s : Shared I Row) (session : I) (effect : Effect Row) :
    s.committed ⊆ (s.perform session effect).committed := by
  unfold Shared.perform
  cases effect.action with
  | some action => exact act_committed s session action
  | none => cases effect <;> exact List.Subset.refl _

theorem step_committed (s : Shared I Row) (step : SharedStep I Row) :
    s.committed ⊆ (s.step step).committed := by
  cases step with
  | lookup session request =>
    have live : s.cache.Live s.now fun _ _ => True := fun _ _ _ _ _ => trivial
    obtain ⟨⟨cache, select, same, -⟩, -⟩ := s.lookup_live live session request
    simp only [Shared.step, same]
    exact List.Subset.refl _
  | store session jsonRendered alloc =>
    exact (s.store_writes session jsonRendered alloc).1 ▸ List.Subset.refl _
  | effect session effect => exact perform_committed s session effect
  | fetch session ok => exact List.Subset.refl _
  | expire key => exact List.Subset.refl _
  | evictExpired => exact List.Subset.refl _
  | tick seconds => exact List.Subset.refl _

theorem step_isolated {s : Shared I Row} (clock : 1 < s.now) (isolated : s.Isolated reads)
    {step : SharedStep I Row} (meets : KeepsIsolated reads s step) :
    (s.step step).Isolated reads :=
  fun e held alive doc offered =>
    (Shared.step_live clock isolated meets e held alive doc offered).mono (step_committed s step)

theorem run_isolated {s : Shared I Row} (clock : 1 < s.now) (isolated : s.Isolated reads)
    {steps : List (SharedStep I Row)} (meets : s.Meets (KeepsIsolated reads) steps) :
    (s.run steps).Isolated reads := by
  induction steps generalizing s with
  | nil => exact isolated
  | cons step steps ih =>
    have after := step_isolated clock isolated meets.1
    exact ih (Int.lt_of_lt_of_le clock (s.step_now step)) after meets.2

/-- A SELECT fetches from no table that its own transaction has written. -/
def LeavesOwnWrites (reads : CString → List CString) (s : Shared I Row) : SharedStep I Row → Prop
  | .fetch session _ => ∀ select, s.select session = some select →
    ∀ w ∈ s.pending session, w.write.table ∉ reads select.cfg.sql
  | .lookup _ _ | .store _ _ _ | .effect _ _ | .expire _ | .evictExpired | .tick _ => True

/-- What the open SELECTs have fetched is committed. -/
def Shared.FetchedCommitted (reads : CString → List CString) (s : Shared I Row) : Prop :=
  ∀ session select view, s.select session = some select → select.view = some view →
    OnlyCommitted reads s ⟨select.cfg.sql, view⟩

theorem lookup_select {s : Shared I Row} {session other : I} {request : ExecuteConfig}
    {select : OpenSelect I Row} (opened : (s.lookup session request).1.select other = some select) :
    s.select other = some select ∨ select.view = none := by
  simp only [Shared.lookup] at opened
  split at opened
  · simp only [Function.update_apply] at opened
    split at opened
    · cases opened
    · exact .inl opened
  · split at opened
    · simp only [Function.update_apply] at opened
      split at opened
      · cases opened
      · exact .inl opened
    · simp only [Function.update_apply] at opened
      split at opened
      · cases opened
        exact .inr rfl
      · exact .inl opened

theorem store_select {s : Shared I Row} {session other : I} {jsonRendered : Bool}
    {alloc : AllocOutcome} {select : OpenSelect I Row}
    (opened : (s.store session jsonRendered alloc).select other = some select) :
    s.select other = some select := by
  unfold Shared.store at opened
  split at opened
  · exact opened
  · exact opened
  · simp only [Function.update_apply] at opened
    split at opened
    · cases opened
    · exact opened

theorem perform_select (s : Shared I Row) (session : I) (effect : Effect Row) :
    (s.perform session effect).select = s.select := by
  unfold Shared.perform
  cases effect.action with
  | none => cases effect <;> rfl
  | some act => cases act <;> rfl

theorem step_fetchedCommitted {s : Shared I Row} (fetched : s.FetchedCommitted reads)
    {step : SharedStep I Row} (leaves : LeavesOwnWrites reads s step) :
    (s.step step).FetchedCommitted reads := by
  have kept : ∀ session select view, s.select session = some select → select.view = some view →
      OnlyCommitted reads (s.step step) ⟨select.cfg.sql, view⟩ :=
    fun session select view opened viewed =>
      (fetched session select view opened viewed).mono (step_committed s step)
  intro session select view opened viewed
  cases step with
  | lookup _ _ =>
    rcases lookup_select opened with before | unviewed
    · exact kept session select view before viewed
    · rw [unviewed] at viewed
      cases viewed
  | fetch fetching ok =>
    simp only [Shared.step, Shared.fetch, Function.update_apply] at opened
    split at opened
    · rename_i same
      subst same
      cases before : s.select session with
      | none => simp [before] at opened
      | some old =>
        cases ok with
        | false => simp [before] at opened
        | true =>
          simp only [before, if_true, Option.some.injEq] at opened
          subst opened
          cases viewed
          intro w shown read
          rcases List.mem_append.mp shown with committed | pending
          · exact committed
          · exact absurd read (leaves old before w pending)
    · exact kept session select view opened viewed
  | store _ _ _ => exact kept session select view (store_select opened) viewed
  | effect other effect =>
    rw [Shared.step, perform_select] at opened
    exact kept session select view opened viewed
  | expire _ => exact kept session select view opened viewed
  | evictExpired => exact kept session select view opened viewed
  | tick _ => exact kept session select view opened viewed

/-- A session that selects from none of the tables it is writing publishes no
    uncommitted row. -/
theorem leavesOwnWrites_isolated {s : Shared I Row} (fetched : s.FetchedCommitted reads)
    {steps : List (SharedStep I Row)} (leaves : s.Meets (LeavesOwnWrites reads) steps) :
    s.Meets (KeepsIsolated reads) steps := by
  induction steps generalizing s with
  | nil => trivial
  | cons step steps ih =>
    refine ⟨?_, ih (step_fetchedCommitted fetched leaves.1) leaves.2⟩
    cases step with
    | store session jsonRendered alloc =>
      simp only [KeepsIsolated, Shared.Publishes]
      split
      · trivial
      · trivial
      · rename_i cfg deps view opened
        exact fun _ _ => fetched session _ view opened rfl
    | lookup _ _ => trivial
    | fetch _ _ => trivial
    | effect _ _ => trivial
    | expire _ => trivial
    | evictExpired => trivial
    | tick _ => trivial

/-- Session 0 selects while session 1 has an uncommitted row. -/
def selectBesideInsert : List (SharedStep Nat Nat) :=
  managedInsertT.operations.flatten.map (.effect 1) ++
    [.lookup 0 selectFromT, .fetch 0 true, .store 0 true allocated]

/-- A transaction that inserts, selects and is then rolled back. -/
def rolledBackT : ScopeRun Nat :=
  (processTransaction idleWorld "S1".toList "T1".toList
    [.data (.insert (insertInto "T" [1]) (sampleInsert true 1) unaudited), .select true,
      .executeProcedure [] false]
    ⟨"u2".toList, fun _ => .ok, true⟩).2

/-- Session 1 selects from the table it has inserted into. -/
def selectInsideTransaction : List (SharedStep Nat Nat) :=
  rolledBackT.operations.flatten.map (.effect 1) ++
    [.lookup 1 selectFromT, .fetch 1 true, .store 1 true allocated]

end OciWrapper.Execute
