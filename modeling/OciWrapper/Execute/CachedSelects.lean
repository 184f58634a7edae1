import OciWrapper.Execute.Dialect
import OciWrapper.Execute.QueryBatch

namespace OciWrapper.Execute

open OciWrapper.Text OciWrapper.Core OciWrapper.Infra

/-- The texts whose key stands for no other reading: quotes are closed and hold
    neither letters nor blanks, nothing follows a blank of a line comment, and
    the collapsed text leaves room in the key buffer. -/
def KeySafe (q : Quoting) (sql : CString) : Prop :=
  plain q sql = true ∧ (fold sql).length < cacheKeySize - 1

theorem cacheKeySize_pos : 2 ≤ cacheKeySize := by decide

/-- Two texts share a key only if they differ in case and blanks outside quotes. -/
theorem sameOutsideQuotes_of_key {q : Quoting} {sql other : CString} (safe : KeySafe q sql)
    (key : resultsetCacheMakeKey other cacheKeySize = resultsetCacheMakeKey sql cacheKeySize) :
    SameOutsideQuotes q other sql :=
  (plain_iff q sql).mp safe.1 other (fold_eq_of_key_eq cacheKeySize_pos safe.2 key)

theorem canonicalFrom_append (q : Quoting) {c : Char} (kept : isSpace c = false) (s : CString) :
    ∀ (m : Mode) (g : Gap),
      (canonicalFrom q m g s).length < (canonicalFrom q m g (s ++ [c])).length := by
  induction s with
  | nil =>
    intro m g
    cases quoted : m.isQuoted <;> simp [canonicalFrom, quoted, kept]
  | cons d s ih =>
    intro m g
    simp only [List.cons_append, canonicalFrom]
    split
    · simpa using ih _ _
    · split
      · exact ih _ _
      · simpa using ih _ _

/-- The key tells a text from every other reading exactly if the text is safe. -/
theorem keySafe_iff (q : Quoting) (sql : CString) :
    KeySafe q sql ↔ ∀ other,
      resultsetCacheMakeKey other cacheKeySize = resultsetCacheMakeKey sql cacheKeySize →
        SameOutsideQuotes q other sql := by
  constructor
  · exact fun safe other key => sameOutsideQuotes_of_key safe key
  · intro separates
    have fits : (fold sql).length < cacheKeySize - 1 := by
      by_contra full
      obtain ⟨key, made, -, extend⟩ :=
        resultsetCacheMakeKey_overflows cacheKeySize_pos (Nat.not_lt.mp full)
      have same := separates (sql ++ ['X']) ((extend ['X']).trans made.symm)
      have longer := canonicalFrom_append q (c := 'X') rfl sql .code .start
      rw [SameOutsideQuotes, canonical, canonical] at same
      rw [same] at longer
      exact Nat.lt_irrefl _ longer
    refine ⟨(plain_iff q sql).mpr fun other folded => separates other ?_, fits⟩
    rw [resultsetCacheMakeKey_fits cacheKeySize_pos fits,
      resultsetCacheMakeKey_fits cacheKeySize_pos (by rw [folded]; exact fits), folded]

variable {Rows : Type}

/-- What happens to the result-set cache between two requests, and the requests. -/
inductive CacheEvent (Rows : Type)
  | select (request : ExecuteConfig) (outcome : QueryOutcome Rows)
  | invalidateByTable (table : CString)
  | expire (key : CString)
  | release (addr : Nat)
  | evictExpired
  | tick (seconds : Nat)

structure CacheState (Rows : Type) where
  cache : Cache (ResultDoc Rows)
  now : Int

/-- A request answered from the cache, and the document it got. -/
structure Answer (Rows : Type) where
  request : CString
  doc : ResultDoc Rows

def cacheStep (s : CacheState Rows) : CacheEvent Rows → CacheState Rows × Option (Answer Rows)
  | .select request outcome =>
    match executeQueryBatch s.cache request s.now outcome with
    | (cache, .served doc) => ({ s with cache }, some ⟨trimSqlInplace request.sql, doc⟩)
    | (cache, _) => ({ s with cache }, none)
  | .invalidateByTable table => ({ s with cache := cacheInvalidateByTag s.cache table s.now }, none)
  | .expire key => ({ s with cache := (cacheExpireEntry s.cache key s.now).1 }, none)
  | .release addr => ({ s with cache := cacheRelease s.cache addr }, none)
  | .evictExpired => ({ s with cache := cacheEvictExpired s.cache s.now }, none)
  | .tick seconds => ({ s with now := s.now + seconds }, none)

/-- The answers that a run serves from the cache, in order. -/
def cacheAnswers (s : CacheState Rows) : List (CacheEvent Rows) → List (Answer Rows)
  | [] => []
  | event :: events =>
    (cacheStep s event).2.toList ++ cacheAnswers (cacheStep s event).1 events

/-- Every document lies under the key of a safe text that it answers. -/
def KeyedBySql (q : Quoting) (cache : Cache (ResultDoc Rows)) : Prop :=
  ∀ e, cache.Holds e → ∀ doc, e.Offers doc →
    KeySafe q doc.sql ∧ resultsetCacheMakeKey doc.sql cacheKeySize = some e.normalizedSql

theorem KeyedBySql.ages {q : Quoting} {now : Int} {cache old : Cache (ResultDoc Rows)}
    (keyed : KeyedBySql q old) (ages : cache.Ages now old) : KeyedBySql q cache := by
  intro e held doc within
  obtain ⟨o, heldOld, stems⟩ := ages e held
  rw [stems.normalizedSql]
  exact keyed o heldOld doc (stems.offers.mp within)

/-- What is served lies under the request's key. -/
theorem cacheServe_spec (cache : Cache (ResultDoc Rows)) (cfg : ExecuteConfig) (now : Int) :
    (cacheServe cache cfg now).1.Ages now cache ∧
      ∀ doc, (cacheServe cache cfg now).2 = some doc → ∃ e, cache.Holds e ∧
        resultsetCacheMakeKey cfg.sql cacheKeySize = some e.normalizedSql ∧
        e.expired now = false ∧ e.Offers doc := by
  simp only [cacheServe]
  split
  · exact ⟨.refl now cache, fun _ none => by cases none⟩
  · split
    · exact ⟨.refl now cache, fun _ none => by cases none⟩
    · rename_i key made
      have ages := cacheLookup_ages cache key now
      split
      · rename_i after looked
        rw [looked] at ages
        exact ⟨ages, fun _ none => by cases none⟩
      · rename_i after hit looked
        rw [looked] at ages
        refine ⟨(cacheRelease_ages after hit.addr now).trans ages, fun doc served => ?_⟩
        obtain ⟨e, held, under, live, stems⟩ := cacheLookup_hit (congrArg Prod.snd looked)
        refine ⟨e, held, under ▸ made, live, ?_⟩
        dsimp only at served
        split at served
        · exact .inr (stems.outputDocumentJson ▸ served)
        · exact .inl (stems.outputDocument ▸ (Option.some.inj served).symm)

theorem cacheStore_keyed {q : Quoting} {cache : Cache (ResultDoc Rows)} {cfg : ExecuteConfig}
    {deps : DependencyList} {rows : Rows} {now : Int} {outcome : QueryOutcome Rows}
    (keyed : KeyedBySql q cache) (safe : KeySafe q cfg.sql) :
    KeyedBySql q (cacheStore cache cfg deps rows now outcome) := by
  simp only [cacheStore]
  split
  · exact keyed
  · split
    · exact keyed
    · exact keyed
    · rename_i key made
      intro e held doc within
      rcases cacheInsert_holds held with ⟨o, heldOld, stems⟩ | stored
      · rw [stems.normalizedSql]
        exact keyed o heldOld doc (stems.offers.mp within)
      · have same : doc = ⟨cfg.sql, rows⟩ := by
          rcases within with rfl | json
          · exact stored.outputDocument
          · exact (Option.some.inj (stored.outputDocumentJson doc json)).symm
        subst same
        exact ⟨safe, stored.normalizedSql ▸ made⟩

theorem executeQueryBatch_keyed {q : Quoting} {cache : Cache (ResultDoc Rows)}
    {request : ExecuteConfig} (now : Int) (outcome : QueryOutcome Rows)
    (keyed : KeyedBySql q cache) (safe : KeySafe q (trimSqlInplace request.sql)) :
    KeyedBySql q (executeQueryBatch cache request now outcome).1 := by
  simp only [executeQueryBatch]
  split
  · exact keyed
  · have serves := (cacheServe_spec cache { request with sql := trimSqlInplace request.sql } now).1
    split
    · rename_i served
      rw [served] at serves
      exact keyed.ages serves
    · rename_i missed
      rw [missed] at serves
      split
      · exact keyed.ages serves
      · split
        · exact keyed.ages serves
        · exact cacheStore_keyed (keyed.ages serves) safe

theorem executeQueryBatch_served {q : Quoting} {cache after : Cache (ResultDoc Rows)}
    {request : ExecuteConfig} {now : Int} {outcome : QueryOutcome Rows} {doc : ResultDoc Rows}
    (keyed : KeyedBySql q cache)
    (served : executeQueryBatch cache request now outcome = (after, .served doc)) :
    SameOutsideQuotes q (trimSqlInplace request.sql) doc.sql := by
  simp only [executeQueryBatch] at served
  split at served
  · cases served
  · split at served
    · rename_i hit
      cases served
      obtain ⟨e, held, made, -, within⟩ := (cacheServe_spec _ _ _).2 doc (congrArg Prod.snd hit)
      obtain ⟨safe, key⟩ := keyed e held doc within
      exact sameOutsideQuotes_of_key safe (made.trans key.symm)
    · split at served
      · cases served
      · split at served <;> cases served

/-- The requests of the run are safe for their keys. -/
def SafeRequests (q : Quoting) (events : List (CacheEvent Rows)) : Prop :=
  ∀ request outcome, CacheEvent.select request outcome ∈ events →
    KeySafe q (trimSqlInplace request.sql)

theorem cacheStep_keyed {q : Quoting} {s : CacheState Rows} {event : CacheEvent Rows}
    (clock : 1 < s.now) (keyed : KeyedBySql q s.cache) (safe : SafeRequests q [event]) :
    1 < (cacheStep s event).1.now ∧ KeyedBySql q (cacheStep s event).1.cache ∧
      ∀ answer, (cacheStep s event).2 = some answer →
        SameOutsideQuotes q answer.request answer.doc.sql := by
  cases event with
  | select request outcome =>
    have after := executeQueryBatch_keyed s.now outcome keyed
      (safe request outcome (List.mem_singleton_self _))
    simp only [cacheStep]
    split
    · rename_i cache doc served
      rw [served] at after
      refine ⟨clock, after, fun answer same => ?_⟩
      cases same
      exact executeQueryBatch_served keyed served
    · rename_i cache result _ ran
      rw [ran] at after
      exact ⟨clock, after, fun _ none => by cases none⟩
  | invalidateByTable table =>
    exact ⟨clock, keyed.ages (cacheInvalidateByTag_ages clock s.cache table),
      fun _ none => by cases none⟩
  | expire key =>
    exact ⟨clock, keyed.ages (cacheExpireEntry_ages clock s.cache key), fun _ none => by cases none⟩
  | release addr =>
    exact ⟨clock, keyed.ages (cacheRelease_ages s.cache addr s.now), fun _ none => by cases none⟩
  | evictExpired =>
    exact ⟨clock, keyed.ages (cacheEvictExpired_ages s.cache s.now), fun _ none => by cases none⟩
  | tick seconds =>
    refine ⟨?_, keyed, fun _ none => by cases none⟩
    simp only [cacheStep]
    omega

/-- Over a run of safe requests every hit answers a text that reads the same. -/
theorem cacheAnswers_sameOutsideQuotes {q : Quoting} {s : CacheState Rows}
    {events : List (CacheEvent Rows)} (clock : 1 < s.now) (keyed : KeyedBySql q s.cache)
    (safe : SafeRequests q events) :
    ∀ answer ∈ cacheAnswers s events, SameOutsideQuotes q answer.request answer.doc.sql := by
  induction events generalizing s with
  | nil => exact fun _ none => by cases none
  | cons event events ih =>
    obtain ⟨clockAfter, keyedAfter, served⟩ := cacheStep_keyed clock keyed
      fun request outcome member => safe request outcome (by
        rw [List.mem_singleton.mp member]
        exact List.mem_cons_self)
    intro answer member
    rcases List.mem_append.mp member with here | later
    · exact served answer (Option.mem_toList.mp here)
    · exact ih clockAfter keyedAfter
        (fun request outcome within => safe request outcome (List.mem_cons_of_mem _ within))
        answer later

theorem keyedBySql_create (q : Quoting) (cfg : CacheConfig) (hash : CString → Nat)
    (docBytes : ResultDoc Rows → Nat) : KeyedBySql q (cacheCreate cfg hash docBytes) :=
  fun e held => absurd held (cacheCreate_empty cfg hash docBytes e)

def smallCache : CacheConfig :=
  { bucketCount := 4, maxEntries := 8, maxMemoryBytes := 0, ttlSeconds := 60, enabled := true }

/-- A SELECT of the text whose rows are `rows`. -/
def selectEvent (sql : String) (rows : Nat) : CacheEvent Nat :=
  .select ⟨sql.toList, false, false⟩ ⟨true, some rows, true, ⟨true, true, true⟩⟩

def sameSelectTwice : List (CacheEvent Nat) :=
  [selectEvent "SELECT ID FROM T WHERE N = '1'" 1, selectEvent "select id from t where n = '1'" 2]

end OciWrapper.Execute
