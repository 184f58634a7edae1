import OciWrapper.Execute.SharedCache
import OciWrapper.Core.TransactionScope

namespace OciWrapper.Execute

open OciWrapper.Text OciWrapper.Core OciWrapper.Infra OciWrapper.Store

variable {I Row : Type} [DecidableEq I] {reads : CString → List CString}

/-- The commit of the write and the invalidation of its table are both done. -/
def Shared.Settled (s : Shared I Row) (w : Stamped I Row) : Prop :=
  w ∈ s.committed ∧ w ∈ s.invalidated

/-- The result shows every settled write on the tables that its SELECT reads. -/
def UpToDate (reads : CString → List CString) (s : Shared I Row) (doc : ResultDoc (View I Row)) :
    Prop :=
  ∀ w, s.Settled w → w.write.table ∈ reads doc.sql → w ∈ doc.rows

/-- No live entry is out of date. -/
def Shared.Fresh (reads : CString → List CString) (s : Shared I Row) : Prop :=
  s.cache.Live s.now fun _ doc => UpToDate reads s doc

/-- When a SELECT stores its rows, no write on its tables has settled unseen since it
    fetched; when a session commits, no live entry reads a table that it wrote and has
    invalidated already; when it invalidates a table, the tag of each live entry that
    lacks its committed writes on the table shows the name. -/
def KeepsFresh (reads : CString → List CString) (s : Shared I Row) : SharedStep I Row → Prop
  | .store session jsonRendered alloc =>
    s.Publishes (fun _ doc => UpToDate reads s doc) (.store session jsonRendered alloc)
  | .effect session (.invalidate table) =>
    s.cache.Live s.now fun tag doc => table ∈ reads doc.sql →
      table ≠ [] ∧ tag.any (fun text => contains text table) = true ∨
        ∀ w ∈ s.committed, w.session = session → w.write.table = table → w ∈ doc.rows
  | .effect session effect => effect.action = some .commit →
    ∀ w ∈ s.pending session, w ∈ s.invalidated →
      s.cache.Live s.now fun _ doc => w.write.table ∈ reads doc.sql → w ∈ doc.rows
  | .lookup _ _ | .fetch _ _ | .expire _ | .evictExpired | .tick _ => True

/-- A commit adds settled writes; where they matter the condition has them seen. -/
theorem commit_fresh {s : Shared I Row} {session : I} (fresh : s.Fresh reads)
    (seen : ∀ w ∈ s.pending session, w ∈ s.invalidated →
      s.cache.Live s.now fun _ doc => w.write.table ∈ reads doc.sql → w ∈ doc.rows) :
    (s.act session .commit).Fresh reads := by
  intro e held alive doc offered
  rintro w ⟨committed, invalidated⟩ member
  rcases List.mem_append.mp committed with before | pending
  · exact fresh e held alive doc offered w ⟨before, invalidated⟩ member
  · exact seen w pending invalidated e held alive doc offered member

/-- The writes that an invalidation settles are missed by no entry that outlives it. -/
theorem invalidate_fresh {s : Shared I Row} (clock : 1 < s.now) (fresh : s.Fresh reads)
    {session : I} {table : CString}
    (meets : KeepsFresh reads s (.effect session (.invalidate table))) :
    (s.invalidate session table).Fresh reads := by
  simp only [KeepsFresh] at meets
  have ages := cacheInvalidateByTag_ages clock s.cache table
  intro e held alive doc offered
  have current := fresh.ages ages (Int.le_refl _) e held alive doc offered
  rintro w ⟨committed, invalidated⟩ member
  rcases List.mem_append.mp invalidated with before | new
  · exact current w ⟨committed, before⟩ member
  · have own := (List.mem_filter.mp new).2
    simp only [decide_eq_true_eq] at own
    obtain ⟨mine, rfl⟩ := own
    rcases meets.ages ages (Int.le_refl _) e held alive doc offered member with
      ⟨name, shows⟩ | seen
    · have gone := cacheInvalidateByTag_expires clock (Int.le_refl _) name held shows
      exact absurd (gone.symm.trans alive) (by decide)
    · exact seen w committed mine rfl

theorem perform_fresh {s : Shared I Row} (clock : 1 < s.now) (fresh : s.Fresh reads) (session : I)
    {effect : Effect Row} (meets : KeepsFresh reads s (.effect session effect)) :
    (s.perform session effect).Fresh reads := by
  unfold Shared.perform
  cases action : effect.action with
  | none => cases effect with
    | invalidate table => exact invalidate_fresh clock fresh meets
    | write w => exact fresh
    | commit result => exact fresh
    | rollback done => exact fresh
    | ddl commits => exact fresh
  | some act => cases act with
    | write w => exact fresh
    | commit =>
      refine commit_fresh fresh ?_
      cases effect with
      | invalidate table => cases action
      | write w => exact meets action
      | commit result => exact meets action
      | rollback done => exact meets action
      | ddl commits => exact meets action
    | rollback => exact fresh

/-- Every step that meets its condition keeps the cache up to date. -/
theorem step_fresh {s : Shared I Row} (clock : 1 < s.now) (fresh : s.Fresh reads)
    {step : SharedStep I Row} (meets : KeepsFresh reads s step) :
    1 < (s.step step).now ∧ (s.step step).Fresh reads := by
  refine ⟨Int.lt_of_lt_of_le clock (s.step_now step), ?_⟩
  cases step with
  | lookup session request =>
    obtain ⟨⟨cache, select, same, live⟩, -⟩ := s.lookup_live fresh session request
    simp only [Shared.step, same]
    exact live
  | store session jsonRendered alloc =>
    obtain ⟨committed, invalidated⟩ := s.store_writes session jsonRendered alloc
    have live := Shared.store_live fresh session jsonRendered alloc meets
    intro e held alive doc offered w settled
    simp only [Shared.Settled, Shared.step, committed, invalidated] at settled
    exact live e held alive doc offered w settled
  | effect session effect => exact perform_fresh clock fresh session meets
  | fetch session ok =>
    have silent : s.Publishes (fun _ doc => UpToDate reads s doc) (.fetch session ok) := trivial
    exact Shared.step_live clock fresh silent
  | expire key =>
    have silent : s.Publishes (fun _ doc => UpToDate reads s doc) (.expire key) := trivial
    exact Shared.step_live clock fresh silent
  | evictExpired =>
    have silent : s.Publishes (fun _ doc => UpToDate reads s doc) (.evictExpired) := trivial
    exact Shared.step_live clock fresh silent
  | tick seconds =>
    have silent : s.Publishes (fun _ doc => UpToDate reads s doc) (.tick seconds) := trivial
    exact Shared.step_live clock fresh silent

theorem run_fresh {s : Shared I Row} (clock : 1 < s.now) (fresh : s.Fresh reads)
    {steps : List (SharedStep I Row)} (meets : s.Meets (KeepsFresh reads) steps) :
    (s.run steps).Fresh reads := by
  induction steps generalizing s with
  | nil => exact fresh
  | cons step steps ih =>
    obtain ⟨clockAfter, freshAfter⟩ := step_fresh clock fresh meets.1
    exact ih clockAfter freshAfter meets.2

def smallShared : Shared Nat Nat := .start smallCache List.length (fun _ => 0) 10

def selectFromT : ExecuteConfig := ⟨"select * from T".toList, false, false⟩

def readsT (sql : CString) : List CString := if sql = selectFromT.sql then ["T".toList] else []

def allocated : AllocOutcome := ⟨true, true, true⟩

/-- The insert of a row of `T` by itself. -/
def insertT : List (Effect Nat) :=
  (executeInsertBatch idleWorld (insertInto "T" [1]) (sampleInsert true 1) unaudited).1.effects

/-- The same insert as the one operation of a transaction. -/
def managedInsertT : ScopeRun Nat :=
  (processTransaction idleWorld "S1".toList "T1".toList
    [.data (.insert (insertInto "T" [1]) (sampleInsert true 1) unaudited)]
    ⟨"u2".toList, fun _ => .ok, true⟩).2

/-- Session 1 inserts, then session 0 selects. -/
def insertThenSelect : List (SharedStep Nat Nat) :=
  insertT.map (.effect 1) ++ [.lookup 0 selectFromT, .fetch 0 true, .store 0 true allocated]

/-- Session 1 inserts after the fetch of session 0 and before its store. -/
def insertBesideSelect : List (SharedStep Nat Nat) :=
  [.lookup 0 selectFromT, .fetch 0 true] ++ insertT.map (.effect 1) ++ [.store 0 true allocated]

/-- Session 0 selects between the insert of a transaction and its commit. -/
def selectBeforeCommit : List (SharedStep Nat Nat) :=
  managedInsertT.operations.flatten.map (.effect 1) ++
    [.lookup 0 selectFromT, .fetch 0 true, .store 0 true allocated] ++
    managedInsertT.ending.map (.effect 1)

end OciWrapper.Execute
