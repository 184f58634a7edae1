import OciWrapper.Execute.CachedSelects
import OciWrapper.Audit.AuditTrailManager

namespace OciWrapper.Execute

open OciWrapper.Text OciWrapper.Core OciWrapper.Infra OciWrapper.Store

variable {I Row : Type}

def Write.table : Write Row → CString
  | .row table _ => table
  | .lob table _ => table
  | .audit _ => Audit.auditTableName

/-- A write with its number in the run and the session that made it. -/
structure Stamped (I Row : Type) where
  stamp : Nat
  session : I
  write : Write Row
  deriving DecidableEq

/-- What a SELECT sees: the writes visible to its session when it fetches. -/
abbrev View (I Row : Type) := List (Stamped I Row)

/-- A SELECT between its cache lookup and its cache store. -/
structure OpenSelect (I Row : Type) where
  cfg : ExecuteConfig
  deps : DependencyList
  view : Option (View I Row)

/-- The resultset cache and the database that all sessions share. -/
structure Shared (I Row : Type) where
  cache : Cache (ResultDoc (View I Row))
  now : Int
  committed : View I Row
  pending : I → View I Row
  /-- The writes whose session has invalidated their table since. -/
  invalidated : View I Row
  select : I → Option (OpenSelect I Row)
  nextStamp : Nat

/-- The steps of `execute_query_batch`, the effects of the other requests, and
    what else touches the cache. -/
inductive SharedStep (I Row : Type)
  | lookup (session : I) (request : ExecuteConfig)
  | fetch (session : I) (ok : Bool)
  | store (session : I) (jsonRendered : Bool) (alloc : AllocOutcome)
  | effect (session : I) (effect : Effect Row)
  | expire (key : CString)
  | evictExpired
  | tick (seconds : Nat)

/-- The tag of an entry that a SELECT stores. -/
def entryTag (deps : DependencyList) (alloc : AllocOutcome) : Option CString :=
  if alloc.tag then if tableTag deps = [] then none else some (tableTag deps) else none

theorem cacheStore_live {Rows : Type} {good : Option CString → ResultDoc Rows → Prop}
    {cache : Cache (ResultDoc Rows)} {cfg : ExecuteConfig} {deps : DependencyList} {rows : Rows}
    {now : Int} {outcome : QueryOutcome Rows} (live : cache.Live now good)
    (stored : cfg.isAsync = false → outcome.jsonRendered = true →
      good (entryTag deps outcome.alloc) ⟨cfg.sql, rows⟩) :
    (cacheStore cache cfg deps rows now outcome).Live now good := by
  simp only [cacheStore]
  split
  · exact live
  · rename_i publishes
    simp only [Bool.or_eq_true, not_or, Bool.not_eq_true, Bool.not_eq_false'] at publishes
    split
    · exact live
    · exact live
    · intro e held alive doc offered
      rcases cacheInsert_holds held with ⟨o, heldOld, stems⟩ | new
      · rw [stems.tableDependencyTag]
        exact live o heldOld (stems.live (Int.le_refl now) alive) doc (stems.offers.mp offered)
      · have same : doc = ⟨cfg.sql, rows⟩ := by
          rcases offered with rfl | json
          · exact new.outputDocument
          · exact (Option.some.inj (new.outputDocumentJson doc json)).symm
        rw [same, new.tableDependencyTag]
        exact stored publishes.1 publishes.2

namespace Shared

def start (cfg : CacheConfig) (hash : CString → Nat) (docBytes : ResultDoc (View I Row) → Nat)
    (now : Int) : Shared I Row where
  cache := cacheCreate cfg hash docBytes
  now := now
  committed := []
  pending := fun _ => []
  invalidated := []
  select := fun _ => none
  nextStamp := 0

theorem start_live (cfg : CacheConfig) (hash : CString → Nat)
    (docBytes : ResultDoc (View I Row) → Nat) (now : Int)
    (good : Option CString → ResultDoc (View I Row) → Prop) :
    (start cfg hash docBytes now).cache.Live now good :=
  fun e held => absurd held (cacheCreate_empty cfg hash docBytes e)

def visible (s : Shared I Row) (session : I) : View I Row := s.committed ++ s.pending session

variable [DecidableEq I]

def act (s : Shared I Row) (session : I) : TxAction (Write Row) → Shared I Row
  | .write w =>
    { s with
      pending := Function.update s.pending session (s.pending session ++ [⟨s.nextStamp, session, w⟩])
      nextStamp := s.nextStamp + 1 }
  | .commit =>
    { s with
      committed := s.committed ++ s.pending session
      pending := Function.update s.pending session [] }
  | .rollback => { s with pending := Function.update s.pending session [] }

/-- `resultset_cache_invalidate_by_table`. -/
def invalidate (s : Shared I Row) (session : I) (table : CString) : Shared I Row :=
  { s with
    cache := cacheInvalidateByTag s.cache table s.now
    invalidated := s.invalidated ++ (s.committed ++ s.pending session).filter fun w =>
      w.session = session ∧ w.write.table = table }

def perform (s : Shared I Row) (session : I) (effect : Effect Row) : Shared I Row :=
  match effect.action, effect with
  | some action, _ => s.act session action
  | none, .invalidate table => s.invalidate session table
  | none, .write _ | none, .commit _ | none, .rollback _ | none, .ddl _ => s

/-- From the dependency extraction to the cache lookup. -/
def lookup (s : Shared I Row) (session : I) (request : ExecuteConfig) :
    Shared I Row × Option (ResultDoc (View I Row)) :=
  let cfg := { request with sql := trimSqlInplace request.sql }
  match extractSqlDependencies cfg.sql with
  | none => ({ s with select := Function.update s.select session none }, none)
  | some deps =>
    match cacheServe s.cache cfg s.now with
    | (cache, some doc) =>
      ({ s with cache := cache, select := Function.update s.select session none }, some doc)
    | (cache, none) =>
      ({ s with
          cache := cache
          select := Function.update s.select session (some ⟨cfg, deps, none⟩) }, none)

/-- Counting and fetching. -/
def fetch (s : Shared I Row) (session : I) (ok : Bool) : Shared I Row :=
  { s with select := Function.update s.select session (match s.select session with
    | none => none
    | some select => if ok then some { select with view := some (s.visible session) } else none) }

/-- The cache store at the end. -/
def store (s : Shared I Row) (session : I) (jsonRendered : Bool) (alloc : AllocOutcome) :
    Shared I Row :=
  match s.select session with
  | none | some ⟨_, _, none⟩ => s
  | some ⟨cfg, deps, some view⟩ =>
    { s with
      cache := cacheStore s.cache cfg deps view s.now ⟨true, some view, jsonRendered, alloc⟩
      select := Function.update s.select session none }

def step (s : Shared I Row) : SharedStep I Row → Shared I Row
  | .lookup session request => (s.lookup session request).1
  | .fetch session ok => s.fetch session ok
  | .store session jsonRendered alloc => s.store session jsonRendered alloc
  | .effect session effect => s.perform session effect
  | .expire key => { s with cache := (cacheExpireEntry s.cache key s.now).1 }
  | .evictExpired => { s with cache := cacheEvictExpired s.cache s.now }
  | .tick seconds => { s with now := s.now + seconds }

def run (s : Shared I Row) (steps : List (SharedStep I Row)) : Shared I Row := steps.foldl step s

/-- Every step of the run meets the condition in the state before it. -/
def Meets (condition : Shared I Row → SharedStep I Row → Prop) :
    Shared I Row → List (SharedStep I Row) → Prop
  | _, [] => True
  | s, step :: steps => condition s step ∧ Meets condition (s.step step) steps

/-- The rows that a step publishes in the cache are good. -/
def Publishes (good : Option CString → ResultDoc (View I Row) → Prop) (s : Shared I Row) :
    SharedStep I Row → Prop
  | .store session jsonRendered alloc =>
    match s.select session with
    | none | some ⟨_, _, none⟩ => True
    | some ⟨cfg, deps, some view⟩ =>
      cfg.isAsync = false → jsonRendered = true → good (entryTag deps alloc) ⟨cfg.sql, view⟩
  | .lookup _ _ | .fetch _ _ | .effect _ _ | .expire _ | .evictExpired | .tick _ => True

/-- Without a step between, the three steps of a SELECT are `execute_query_batch`. -/
theorem select_steps (s : Shared I Row) (session : I) (request : ExecuteConfig)
    (ok jsonRendered : Bool) (alloc : AllocOutcome) :
    (s.run [.lookup session request, .fetch session ok, .store session jsonRendered alloc]).cache =
      (executeQueryBatch s.cache request s.now
        ⟨true, if ok then some (s.visible session) else none, jsonRendered, alloc⟩).1 := by
  simp only [run, List.foldl_cons, List.foldl_nil, step, lookup, executeQueryBatch]
  cases extractSqlDependencies (trimSqlInplace request.sql) with
  | none => simp [fetch, store]
  | some deps =>
    dsimp only
    generalize cacheServe s.cache { request with sql := trimSqlInplace request.sql } s.now = served
    obtain ⟨cache, hit⟩ := served
    cases hit with
    | some doc => simp [fetch, store]
    | none =>
      cases ok with
      | false => simp [fetch, store]
      | true => simp [fetch, store, visible]

/-- A lookup touches the cache and the SELECT of its session alone, and what it
    serves was live. -/
theorem lookup_live {good : Option CString → ResultDoc (View I Row) → Prop} {s : Shared I Row}
    (live : s.cache.Live s.now good) (session : I) (request : ExecuteConfig) :
    (∃ cache select, (s.lookup session request).1 = { s with cache, select } ∧
      cache.Live s.now good) ∧
    ∀ doc, (s.lookup session request).2 = some doc → ∃ tag, good tag doc := by
  simp only [lookup]
  cases extractSqlDependencies (trimSqlInplace request.sql) with
  | none => exact ⟨⟨_, _, rfl, live⟩, fun _ none => by cases none⟩
  | some deps =>
    obtain ⟨ages, hit⟩ :=
      cacheServe_spec s.cache { request with sql := trimSqlInplace request.sql } s.now
    dsimp only
    generalize cacheServe s.cache { request with sql := trimSqlInplace request.sql } s.now = served
      at ages hit
    obtain ⟨cache, found⟩ := served
    cases found with
    | none => exact ⟨⟨_, _, rfl, live.ages ages (Int.le_refl _)⟩, fun _ none => by cases none⟩
    | some doc =>
      refine ⟨⟨_, _, rfl, live.ages ages (Int.le_refl _)⟩, fun other same => ?_⟩
      cases same
      obtain ⟨e, held, -, alive, offered⟩ := hit doc rfl
      exact ⟨_, live e held alive doc offered⟩

theorem perform_now (s : Shared I Row) (session : I) (effect : Effect Row) :
    (s.perform session effect).now = s.now := by
  unfold perform
  cases effect.action with
  | none => cases effect <;> rfl
  | some act => cases act <;> rfl

theorem store_live {good : Option CString → ResultDoc (View I Row) → Prop} {s : Shared I Row}
    (live : s.cache.Live s.now good) (session : I) (jsonRendered : Bool) (alloc : AllocOutcome)
    (publishes : s.Publishes good (.store session jsonRendered alloc)) :
    (s.store session jsonRendered alloc).cache.Live (s.store session jsonRendered alloc).now
      good := by
  unfold store
  split
  · exact live
  · exact live
  · rename_i cfg deps view selecting
    simp only [Publishes, selecting] at publishes
    exact cacheStore_live live publishes

theorem store_writes (s : Shared I Row) (session : I) (jsonRendered : Bool)
    (alloc : AllocOutcome) :
    (s.store session jsonRendered alloc).committed = s.committed ∧
      (s.store session jsonRendered alloc).invalidated = s.invalidated := by
  unfold store
  split <;> exact ⟨rfl, rfl⟩

theorem perform_ages {s : Shared I Row} (clock : 1 < s.now) (session : I) (effect : Effect Row) :
    (s.perform session effect).cache.Ages s.now s.cache := by
  unfold perform
  cases effect.action with
  | some act => cases act <;> exact .refl _ _
  | none => cases effect with
    | invalidate table => exact cacheInvalidateByTag_ages clock s.cache table
    | write w => exact .refl _ _
    | commit result => exact .refl _ _
    | rollback done => exact .refl _ _
    | ddl commits => exact .refl _ _

theorem step_now (s : Shared I Row) (step : SharedStep I Row) : s.now ≤ (s.step step).now := by
  cases step with
  | lookup session request =>
    have live : s.cache.Live s.now fun _ _ => True := fun _ _ _ _ _ => trivial
    obtain ⟨⟨cache, select, same, -⟩, -⟩ := s.lookup_live live session request
    simp only [Shared.step, same]
    exact Int.le_refl _
  | store session jsonRendered alloc =>
    simp only [Shared.step, Shared.store]
    split <;> exact Int.le_refl _
  | effect session effect => exact (s.perform_now session effect).ge
  | fetch session ok => exact Int.le_refl _
  | expire key => exact Int.le_refl _
  | evictExpired => exact Int.le_refl _
  | tick seconds =>
    simp only [Shared.step]
    omega

/-- A live cache stays good as long as what is published is. -/
theorem step_live {good : Option CString → ResultDoc (View I Row) → Prop} {s : Shared I Row}
    (clock : 1 < s.now) (live : s.cache.Live s.now good) {step : SharedStep I Row}
    (publishes : s.Publishes good step) : (s.step step).cache.Live (s.step step).now good := by
  have later := s.step_now step
  cases step with
  | lookup session request =>
    obtain ⟨⟨cache, select, same, still⟩, -⟩ := s.lookup_live live session request
    simp only [Shared.step, same]
    exact still
  | fetch session ok => exact live
  | store session jsonRendered alloc => exact store_live live session jsonRendered alloc publishes
  | effect session effect => exact live.ages (perform_ages clock session effect) later
  | expire key => exact live.ages (cacheExpireEntry_ages clock s.cache key) later
  | evictExpired => exact live.ages (cacheEvictExpired_ages s.cache s.now) later
  | tick seconds => exact live.ages (.refl _ _) later

/-- What one session's connection holds. -/
def connection (s : Shared I Row) (session : I) : TxStore (Write Row) :=
  ⟨s.committed.map (·.write), (s.pending session).map (·.write)⟩

/-- The effects of a request act on the database as its connection does. -/
theorem run_effects (s : Shared I Row) (session : I) (effects : List (Effect Row)) :
    (s.run (effects.map (.effect session))).connection session =
      (s.connection session).replay (actionsOf effects) := by
  have one : ∀ (s : Shared I Row) effect, (s.perform session effect).connection session =
      (s.connection session).replay (actionsOf [effect]) := by
    intro s effect
    unfold perform
    cases action : effect.action with
    | none =>
      have idle : actionsOf [effect] = [] := by simp [actionsOf, action]
      rw [idle]
      cases effect <;> rfl
    | some act =>
      have acts : actionsOf [effect] = [act] := by simp [actionsOf, action]
      rw [acts]
      cases act with
      | write w => simp [Shared.act, connection, TxStore.apply]
      | commit => simp [Shared.act, connection, TxStore.apply]
      | rollback => simp [Shared.act, connection, TxStore.apply]
  induction effects generalizing s with
  | nil => rfl
  | cons effect effects ih =>
    have rest := ih (s.perform session effect)
    rw [one] at rest
    rw [show effect :: effects = [effect] ++ effects from rfl, actionsOf_append,
      TxStore.replay_append, ← rest]
    rfl

end Shared

end OciWrapper.Execute
