import OciWrapper.Execute.QueryBatch
import OciWrapper.Infra.ServedEntries

namespace OciWrapper.Execute

open OciWrapper.Text OciWrapper.Core OciWrapper.Infra

variable {Rows : Type} {cache : Cache (ResultDoc Rows)} {cfg request : ExecuteConfig} {now : Int}
  {good : CString → ResultDoc Rows → Prop}

theorem cacheServe_serves (serves : cache.Serves now good) (cfg : ExecuteConfig) :
    (cacheServe cache cfg now).1.Serves now good := by
  unfold cacheServe
  split
  · exact serves
  split
  · exact serves
  · next key made =>
    have looked := serves.lookup key
    split
    · next after missed => rwa [missed] at looked
    · next after hit found =>
      rw [found] at looked
      exact looked.release hit.addr

theorem cacheServe_suits (serves : cache.Serves now good) {doc : ResultDoc Rows}
    (served : (cacheServe cache cfg now).2 = some doc) :
    ∃ key, resultsetCacheMakeKey cfg.sql cacheKeySize = some key ∧ good key doc := by
  unfold cacheServe at served
  split at served
  · cases served
  split at served
  · cases served
  · next key made =>
    refine ⟨key, made, ?_⟩
    split at served
    · cases served
    · next after hit found =>
      have suits : ∀ out, hit.Offers out → good key out :=
        fun out offered => serves.hit (congrArg Prod.snd found) offered
      dsimp only at served
      split at served
      · exact suits doc (Or.inr served)
      · cases served
        exact suits _ (Or.inl rfl)

theorem cacheServe_found (serves : cache.Serves now good) (sql : CString) {key : CString}
    (made : resultsetCacheMakeKey sql cacheKeySize = some key) {e : CacheEntry (ResultDoc Rows)}
    (held : cache.Holds e) (alive : e.expired now = false) (same : e.normalizedSql = key) :
    (cacheServe cache ⟨sql, false, false⟩ now).2 = some e.outputDocument := by
  obtain ⟨hit, found, document⟩ := serves.found held alive
  rw [same] at found
  simp only [cacheServe, made, Bool.false_eq_true, if_false]
  split
  · next after missed =>
    rw [missed] at found
    cases found
  · next after other looked =>
    rw [looked] at found
    cases found
    rw [document]

theorem cacheStore_serves (serves : cache.Serves now good) {deps : DependencyList} {rows : Rows}
    {outcome : QueryOutcome Rows}
    (suits : ∀ key, resultsetCacheMakeKey cfg.sql cacheKeySize = some key →
      good key ⟨cfg.sql, rows⟩) :
    (cacheStore cache cfg deps rows now outcome).Serves now good := by
  unfold cacheStore
  split
  · exact serves
  split
  · exact serves
  · exact serves
  · next key _ made =>
    apply serves.insert
    rintro stored (rfl | json)
    · exact suits key made
    · cases json
      exact suits key made

/-- The cache keeps suiting its keys if the rows that are fetched would suit theirs. -/
theorem executeQueryBatch_serves (serves : cache.Serves now good) {outcome : QueryOutcome Rows}
    (suits : ∀ key rows, outcome.fetched = some rows →
      resultsetCacheMakeKey (trimSqlInplace request.sql) cacheKeySize = some key →
        good key ⟨trimSqlInplace request.sql, rows⟩) :
    (executeQueryBatch cache request now outcome).1.Serves now good := by
  have looked := cacheServe_serves serves { request with sql := trimSqlInplace request.sql }
  unfold executeQueryBatch
  dsimp only
  split
  · exact serves
  split
  · next served => rwa [served] at looked
  · next after missed =>
    rw [missed] at looked
    split
    · exact looked
    split
    · exact looked
    · next rows fetched =>
      exact cacheStore_serves looked fun key made => suits key rows fetched made

theorem executeQueryBatch_suits (serves : cache.Serves now good) {outcome : QueryOutcome Rows}
    {doc : ResultDoc Rows}
    (served : (executeQueryBatch cache request now outcome).2 = .served doc) :
    (extractSqlDependencies (trimSqlInplace request.sql)).isSome = true ∧
      ∃ key, resultsetCacheMakeKey (trimSqlInplace request.sql) cacheKeySize = some key ∧
        good key doc := by
  unfold executeQueryBatch at served
  dsimp only at served
  split at served
  · cases served
  · next deps extracted =>
    refine ⟨by rw [extracted]; rfl, ?_⟩
    split at served
    · next hit =>
      cases served
      exact cacheServe_suits serves (congrArg Prod.snd hit)
    · split at served
      · cases served
      · split at served <;> cases served

/-- A live entry is what the next SELECT of its key is served. -/
theorem executeQueryBatch_found (serves : cache.Serves now good) {sql key : CString}
    (extracted : (extractSqlDependencies (trimSqlInplace sql)).isSome = true)
    (made : resultsetCacheMakeKey (trimSqlInplace sql) cacheKeySize = some key)
    {e : CacheEntry (ResultDoc Rows)} (held : cache.Holds e) (alive : e.expired now = false)
    (same : e.normalizedSql = key) (outcome : QueryOutcome Rows) :
    (executeQueryBatch cache ⟨sql, false, false⟩ now outcome).2 = .served e.outputDocument := by
  obtain ⟨deps, some⟩ := Option.isSome_iff_exists.mp extracted
  have found := cacheServe_found serves (trimSqlInplace sql) made held alive same
  unfold executeQueryBatch
  simp only [some]
  split
  · next after doc hit =>
    rw [hit] at found
    cases found
    rfl
  · next after missed =>
    rw [missed] at found
    cases found

end OciWrapper.Execute
