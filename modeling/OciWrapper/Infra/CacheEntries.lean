import OciWrapper.Infra.Cache

namespace OciWrapper.Infra

open OciWrapper.Text

variable {Doc : Type}

/-- `e` is `old` after an operation at `now`: what it caches is the same, and it
    expires when `old` does or has expired. -/
structure CacheEntry.Stems (now : Int) (e old : CacheEntry Doc) : Prop where
  normalizedSql : e.normalizedSql = old.normalizedSql
  outputDocument : e.outputDocument = old.outputDocument
  outputDocumentJson : e.outputDocumentJson = old.outputDocumentJson
  tableDependencyTag : e.tableDependencyTag = old.tableDependencyTag
  expiry : e.expiryTs = old.expiryTs ∨ 0 < e.expiryTs ∧ e.expiryTs ≤ now

theorem CacheEntry.Stems.refl (now : Int) (e : CacheEntry Doc) : e.Stems now e :=
  ⟨rfl, rfl, rfl, rfl, .inl rfl⟩

theorem CacheEntry.Stems.trans {now : Int} {e mid old : CacheEntry Doc}
    (new : e.Stems now mid) (earlier : mid.Stems now old) : e.Stems now old := by
  refine ⟨new.normalizedSql.trans earlier.normalizedSql,
    new.outputDocument.trans earlier.outputDocument,
    new.outputDocumentJson.trans earlier.outputDocumentJson,
    new.tableDependencyTag.trans earlier.tableDependencyTag, ?_⟩
  rcases new.expiry with same | past
  · rw [same]
    exact earlier.expiry
  · exact .inr past

theorem CacheEntry.Stems.live {now later : Int} {e old : CacheEntry Doc} (h : e.Stems now old)
    (le : now ≤ later) (live : e.expired later = false) : old.expired later = false := by
  rcases h.expiry with same | past
  · simpa only [CacheEntry.expired, same] using live
  · simp only [CacheEntry.expired, Bool.and_eq_false_iff, decide_eq_false_iff_not] at live
    omega

/-- Every entry of the new cache stems from one of the old. -/
def Cache.Ages (now : Int) (cache old : Cache Doc) : Prop :=
  ∀ e, cache.Holds e → ∃ o, old.Holds o ∧ e.Stems now o

theorem Cache.Ages.refl (now : Int) (cache : Cache Doc) : cache.Ages now cache :=
  fun e held => ⟨e, held, .refl now e⟩

theorem Cache.Ages.trans {now : Int} {cache mid old : Cache Doc}
    (new : cache.Ages now mid) (earlier : mid.Ages now old) : cache.Ages now old := by
  intro e held
  obtain ⟨m, heldMid, stems⟩ := new e held
  obtain ⟨o, heldOld, before⟩ := earlier m heldMid
  exact ⟨o, heldOld, stems.trans before⟩

theorem Cache.holds_mapEntries (cache : Cache Doc) (f : CacheEntry Doc → CacheEntry Doc)
    (e : CacheEntry Doc) : (cache.mapEntries f).Holds e ↔ ∃ o, cache.Holds o ∧ f o = e := by
  constructor
  · rintro ⟨b, member⟩
    obtain ⟨o, old, same⟩ := List.mem_map.mp member
    exact ⟨o, ⟨b, old⟩, same⟩
  · rintro ⟨o, ⟨b, old⟩, same⟩
    exact ⟨b, List.mem_map.mpr ⟨o, old, same⟩⟩

theorem Cache.mapEntries_ages {now : Int} (cache : Cache Doc)
    {f : CacheEntry Doc → CacheEntry Doc} (stems : ∀ e, (f e).Stems now e) :
    (cache.mapEntries f).Ages now cache := by
  intro e held
  obtain ⟨o, old, rfl⟩ := (cache.holds_mapEntries f e).mp held
  exact ⟨o, old, stems o⟩

theorem Cache.unlink_ages (now : Int) (cache : Cache Doc) (victim : CacheEntry Doc) :
    (cache.unlink victim).Ages now cache := by
  rintro e ⟨b, member⟩
  exact ⟨e, ⟨b, (List.mem_filter.mp member).1⟩, .refl now e⟩

theorem evictWhile_ages (now : Int) (exceeds : Cache Doc → Bool) (fuel : Nat) (cache : Cache Doc) :
    (evictWhile exceeds fuel cache).Ages now cache := by
  induction fuel generalizing cache with
  | zero => exact .refl now cache
  | succ fuel ih =>
    simp only [evictWhile, evictLruUnderLock]
    split
    · cases lruVictim cache.entries with
      | none => exact .refl now cache
      | some victim => exact (ih _).trans (cache.unlink_ages now victim)
    · exact .refl now cache

theorem evictToLimits_ages (now : Int) (cache : Cache Doc) (estimated : Nat) :
    (evictToLimits cache estimated).Ages now cache :=
  (evictWhile_ages now _ _ _).trans (evictWhile_ages now _ _ _)

theorem cacheCreate_empty (cfg : CacheConfig) (hash : CString → Nat) (docBytes : Doc → Nat)
    (e : CacheEntry Doc) : ¬ (cacheCreate cfg hash docBytes).Holds e := by
  rintro ⟨b, member⟩
  cases member

theorem pastTs_expired {now : Int} (clock : 1 < now) : 0 < pastTs now ∧ pastTs now ≤ now := by
  rw [pastTs, if_pos (by omega)]
  omega

theorem cacheLookup_ages (cache : Cache Doc) (key : CString) (now : Int) :
    (cacheLookup cache key now).1.Ages now cache := by
  simp only [cacheLookup]
  split
  · exact .refl now cache
  · cases (cache.buckets (cache.bucketOf key)).find? (CacheEntry.matches key) with
    | none => exact .refl now cache
    | some cur =>
      dsimp only
      split
      · exact .refl now cache
      · refine cache.mapEntries_ages fun e => ?_
        split <;> exact ⟨rfl, rfl, rfl, rfl, .inl rfl⟩

/-- A hit is a live entry under the key. -/
theorem cacheLookup_hit {cache : Cache Doc} {key : CString} {now : Int} {hit : CacheEntry Doc}
    (served : (cacheLookup cache key now).2 = some hit) :
    ∃ e, cache.Holds e ∧ e.normalizedSql = key ∧ e.expired now = false ∧ hit.Stems now e := by
  simp only [cacheLookup] at served
  split at served
  · cases served
  · cases found : (cache.buckets (cache.bucketOf key)).find? (CacheEntry.matches key) with
    | none => rw [found] at served; cases served
    | some cur =>
      rw [found] at served
      dsimp only at served
      split at served
      · cases served
      · rename_i live
        cases served
        have same : cur.normalizedSql = key := by
          simpa [CacheEntry.matches] using List.find?_some found
        exact ⟨cur, ⟨_, List.mem_of_find?_eq_some found⟩, same, Bool.eq_false_iff.mpr live,
          ⟨rfl, rfl, rfl, rfl, .inl rfl⟩⟩

theorem cacheRelease_ages (cache : Cache Doc) (addr : Nat) (now : Int) :
    (cacheRelease cache addr).Ages now cache := by
  refine cache.mapEntries_ages fun e => ?_
  split <;> exact ⟨rfl, rfl, rfl, rfl, .inl rfl⟩

theorem cacheExpireEntry_ages {now : Int} (clock : 1 < now) (cache : Cache Doc) (key : CString) :
    (cacheExpireEntry cache key now).1.Ages now cache := by
  simp only [cacheExpireEntry]
  cases (cache.buckets (cache.bucketOf key)).find? (CacheEntry.matches key) with
  | none => exact .refl now cache
  | some cur =>
    refine cache.mapEntries_ages fun e => ?_
    split
    · exact ⟨rfl, rfl, rfl, rfl, .inr (pastTs_expired clock)⟩
    · exact .refl now e

theorem cacheInvalidateByTag_ages {now : Int} (clock : 1 < now) (cache : Cache Doc)
    (tag : CString) : (cacheInvalidateByTag cache tag now).Ages now cache := by
  simp only [cacheInvalidateByTag]
  split
  · exact .refl now cache
  · refine cache.mapEntries_ages fun e => ?_
    split
    · exact ⟨rfl, rfl, rfl, rfl, .inr (pastTs_expired clock)⟩
    · exact .refl now e

/-- No entry whose tag shows the name outlives the invalidation. -/
theorem cacheInvalidateByTag_expires {now later : Int} (clock : 1 < now) (le : now ≤ later)
    {cache : Cache Doc} {tag : CString} (name : tag ≠ []) {e : CacheEntry Doc}
    (held : (cacheInvalidateByTag cache tag now).Holds e) (shows : tagged tag e = true) :
    e.expired later = true := by
  rw [cacheInvalidateByTag, if_neg name, Cache.holds_mapEntries] at held
  obtain ⟨o, -, same⟩ := held
  split at same
  · subst same
    have past := pastTs_expired clock
    simp only [CacheEntry.expired, Bool.and_eq_true, decide_eq_true_eq]
    omega
  · rename_i kept
    subst same
    have dead : o.expired now = true := by simpa [shows] using kept
    simp only [CacheEntry.expired, Bool.and_eq_true, decide_eq_true_eq] at dead ⊢
    omega

theorem cacheEvictExpired_ages (cache : Cache Doc) (now : Int) :
    (cacheEvictExpired cache now).Ages now cache := by
  have swept : ∀ (victims : List (CacheEntry Doc)) (c : Cache Doc),
      (victims.foldl Cache.unlink c).Ages now c := by
    intro victims
    induction victims with
    | nil => exact fun c => .refl now c
    | cons v victims ih => exact fun c => (ih _).trans (c.unlink_ages now v)
  exact (evictWhile_ages now _ _ _).trans (swept _ cache)

/-- A document that a hit on the entry can bring. -/
def CacheEntry.Offers (e : CacheEntry Doc) (doc : Doc) : Prop :=
  doc = e.outputDocument ∨ e.outputDocumentJson = some doc

theorem CacheEntry.Stems.offers {now : Int} {e old : CacheEntry Doc} (stems : e.Stems now old)
    {doc : Doc} : e.Offers doc ↔ old.Offers doc := by
  rw [Offers, Offers, stems.outputDocument, stems.outputDocumentJson]

/-- Every document that a live entry can bring is good, with the tag of the entry. -/
def Cache.Live (cache : Cache Doc) (now : Int) (good : Option CString → Doc → Prop) : Prop :=
  ∀ e, cache.Holds e → e.expired now = false → ∀ doc, e.Offers doc → good e.tableDependencyTag doc

theorem Cache.Live.ages {good : Option CString → Doc → Prop} {now later : Int}
    {cache old : Cache Doc} (live : old.Live now good) (ages : cache.Ages now old)
    (le : now ≤ later) : cache.Live later good := by
  intro e held alive doc offered
  obtain ⟨o, heldOld, stems⟩ := ages e held
  have aliveNow : o.expired now = false := by
    have later := stems.live le alive
    simp only [CacheEntry.expired, Bool.and_eq_false_iff, decide_eq_false_iff_not] at later ⊢
    omega
  rw [stems.tableDependencyTag]
  exact live o heldOld aliveNow doc (stems.offers.mp offered)

/-- What an insertion can add: the entry of the call. -/
structure CacheEntry.Stored (key : CString) (doc : Doc) (opts : Option (CacheEntryOpts Doc))
    (alloc : AllocOutcome) (e : CacheEntry Doc) : Prop where
  normalizedSql : e.normalizedSql = key
  outputDocument : e.outputDocument = doc
  outputDocumentJson : ∀ json, e.outputDocumentJson = some json →
    opts.bind (·.outputDocumentJson) = some json
  tableDependencyTag : e.tableDependencyTag =
    if alloc.tag then opts.bind (·.tableDependencyTag) else none

theorem cacheInsert_link {cache base : Cache Doc} {key : CString} {doc : Doc}
    {opts : Option (CacheEntryOpts Doc)} {now ttl : Int} {alloc : AllocOutcome} {bucket : Nat}
    (ages : base.Ages now cache) (e : CacheEntry Doc)
    (held : (cacheInsert.link key doc opts now alloc base bucket ttl).1.Holds e) :
    (∃ o, cache.Holds o ∧ e.Stems now o) ∨ e.Stored key doc opts alloc := by
  have kept : ∀ c : Cache Doc, c.Ages now base → c.Holds e → ∃ o, cache.Holds o ∧ e.Stems now o :=
    fun c smaller within => smaller.trans ages e within
  simp only [cacheInsert.link, allocEntry] at held
  have smaller := evictToLimits_ages now base
    (sizeofCacheEntry + key.length + 1 + base.docBytes doc + 1)
  generalize evictToLimits base (sizeofCacheEntry + key.length + 1 + base.docBytes doc + 1) = room
    at held smaller
  cases made : alloc.entry with
  | false =>
    simp only [made, Bool.false_eq_true, if_false] at held
    exact .inl (kept room smaller held)
  | true =>
    simp only [made, if_true] at held
    obtain ⟨b, member⟩ := held
    simp only [Cache.setBucket] at member
    split at member
    · rcases List.mem_cons.mp member with rfl | old
      · refine .inr ⟨rfl, rfl, ?_, rfl⟩
        intro json
        dsimp only
        split
        · exact id
        · intro none
          cases none
      · exact .inl (kept room smaller ⟨_, old⟩)
    · exact .inl (kept room smaller ⟨b, member⟩)

theorem cacheInsert_holds {cache : Cache Doc} {key : CString} {doc : Doc}
    {opts : Option (CacheEntryOpts Doc)} {now : Int} {alloc : AllocOutcome} {e : CacheEntry Doc}
    (held : (cacheInsert cache key doc opts now alloc).1.Holds e) :
    (∃ o, cache.Holds o ∧ e.Stems now o) ∨ e.Stored key doc opts alloc := by
  simp only [cacheInsert] at held
  split at held
  · exact .inl ⟨e, held, .refl now e⟩
  · split at held
    · rename_i cur _
      split at held
      · exact .inl ⟨e, held, .refl now e⟩
      · exact cacheInsert_link (cache.unlink_ages now cur) e held
    · exact cacheInsert_link (.refl now cache) e held

end OciWrapper.Infra
