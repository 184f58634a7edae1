import OciWrapper.Infra.CacheEntries

namespace OciWrapper.Infra

open OciWrapper.Text

variable {Doc : Type} {cache : Cache Doc}

/-- The chains of the new cache are parts of those of the old. -/
structure Cache.Shrinks (cache old : Cache Doc) : Prop where
  hash : cache.hash = old.hash
  bucketCount : cache.bucketCount = old.bucketCount
  enabled : cache.enabled = old.enabled
  chains : ∀ b, cache.buckets b ⊆ old.buckets b

theorem Cache.Shrinks.refl (cache : Cache Doc) : cache.Shrinks cache :=
  ⟨rfl, rfl, rfl, fun _ => List.Subset.refl _⟩

theorem Cache.Shrinks.trans {mid old : Cache Doc} (new : cache.Shrinks mid)
    (earlier : mid.Shrinks old) : cache.Shrinks old :=
  ⟨new.hash.trans earlier.hash, new.bucketCount.trans earlier.bucketCount,
    new.enabled.trans earlier.enabled, fun b _ member => earlier.chains b (new.chains b member)⟩

theorem Cache.Shrinks.holds {old : Cache Doc} (smaller : cache.Shrinks old) {e : CacheEntry Doc}
    (held : cache.Holds e) : old.Holds e := by
  obtain ⟨b, member⟩ := held
  exact ⟨b, smaller.chains b member⟩

theorem Cache.Shrinks.ages {old : Cache Doc} (now : Int) (smaller : cache.Shrinks old) :
    cache.Ages now old :=
  fun e held => ⟨e, smaller.holds held, .refl now e⟩

theorem Cache.Shrinks.bucketOf {old : Cache Doc} (smaller : cache.Shrinks old) (key : CString) :
    cache.bucketOf key = old.bucketOf key := by
  rw [Cache.bucketOf, Cache.bucketOf, smaller.hash, smaller.bucketCount]

theorem Cache.unlink_shrinks (victim : CacheEntry Doc) : (cache.unlink victim).Shrinks cache :=
  ⟨rfl, rfl, rfl, fun _ _ member => (List.mem_filter.mp member).1⟩

theorem Cache.unlinks_shrinks (victims : List (CacheEntry Doc)) :
    (victims.foldl Cache.unlink cache).Shrinks cache := by
  induction victims generalizing cache with
  | nil => exact .refl cache
  | cons victim victims ih => exact ih.trans (Cache.unlink_shrinks victim)

theorem evictWhile_shrinks (exceeds : Cache Doc → Bool) (fuel : Nat) :
    (evictWhile exceeds fuel cache).Shrinks cache := by
  induction fuel generalizing cache with
  | zero => exact .refl cache
  | succ fuel ih =>
    simp only [evictWhile, evictLruUnderLock]
    split
    · cases lruVictim cache.entries with
      | none => exact .refl cache
      | some victim => exact ih.trans (Cache.unlink_shrinks victim)
    · exact .refl cache

theorem evictToLimits_shrinks (estimated : Nat) : (evictToLimits cache estimated).Shrinks cache :=
  (evictWhile_shrinks _ _).trans (evictWhile_shrinks _ _)

theorem cacheEvictExpired_shrinks (now : Int) : (cacheEvictExpired cache now).Shrinks cache :=
  (evictWhile_shrinks _ _).trans (Cache.unlinks_shrinks _)

/-- Every entry is in the bucket of its key, and no two have one key. -/
structure Cache.Keyed (cache : Cache Doc) : Prop where
  placed : ∀ b, ∀ e ∈ cache.buckets b, b = cache.bucketOf e.normalizedSql
  one : ∀ e o, cache.Holds e → cache.Holds o → e.normalizedSql = o.normalizedSql → e = o

theorem cacheCreate_keyed (cfg : CacheConfig) (hash : CString → Nat) (docBytes : Doc → Nat) :
    (cacheCreate cfg hash docBytes).Keyed := by
  have empty := cacheCreate_empty cfg hash docBytes
  exact ⟨fun b e member => absurd ⟨b, member⟩ (empty e), fun e o held => absurd held (empty e)⟩

theorem Cache.Keyed.shrink {old : Cache Doc} (keyed : old.Keyed) (smaller : cache.Shrinks old) :
    cache.Keyed := by
  constructor
  · intro b e member
    rw [smaller.bucketOf]
    exact keyed.placed b e (smaller.chains b member)
  · intro e o held heldOld
    exact keyed.one e o (smaller.holds held) (smaller.holds heldOld)

theorem Cache.Keyed.mapEntries (keyed : cache.Keyed) {f : CacheEntry Doc → CacheEntry Doc}
    (same : ∀ e, (f e).normalizedSql = e.normalizedSql) : (cache.mapEntries f).Keyed := by
  constructor
  · intro b e member
    obtain ⟨o, old, rfl⟩ := List.mem_map.mp member
    rw [same o]
    exact keyed.placed b o old
  · intro e e' held held' key
    obtain ⟨o, old, rfl⟩ := (cache.holds_mapEntries f e).mp held
    obtain ⟨o', old', rfl⟩ := (cache.holds_mapEntries f e').mp held'
    rw [same o, same o'] at key
    rw [keyed.one o o' old old' key]

/-- The chain of a key is searched for its entry. -/
theorem Cache.Keyed.find (keyed : cache.Keyed) {e : CacheEntry Doc} (held : cache.Holds e) :
    (cache.buckets (cache.bucketOf e.normalizedSql)).find? (CacheEntry.matches e.normalizedSql) =
      some e := by
  obtain ⟨b, member⟩ := held
  rw [← keyed.placed b e member]
  cases found : (cache.buckets b).find? (CacheEntry.matches e.normalizedSql) with
  | none =>
    have unmatched := List.find?_eq_none.mp found e member
    simp [CacheEntry.matches] at unmatched
  | some cur =>
    have key : cur.normalizedSql = e.normalizedSql := by
      simpa [CacheEntry.matches] using List.find?_some found
    rw [keyed.one cur e ⟨b, List.mem_of_find?_eq_some found⟩ ⟨b, member⟩ key]

theorem Cache.find_none {key : CString} {e : CacheEntry Doc} (keyed : cache.Keyed)
    (absent : (cache.buckets (cache.bucketOf key)).find? (CacheEntry.matches key) = none)
    (held : cache.Holds e) : e.normalizedSql ≠ key := by
  rintro rfl
  rw [keyed.find held] at absent
  cases absent

theorem cacheLookup_keyed (keyed : cache.Keyed) (key : CString) (now : Int) :
    (cacheLookup cache key now).1.Keyed := by
  simp only [cacheLookup]
  split
  · exact keyed
  · split
    · exact keyed
    · split
      · exact keyed
      · refine keyed.mapEntries fun e => ?_
        split <;> rfl

theorem cacheRelease_keyed (keyed : cache.Keyed) (addr : Nat) : (cacheRelease cache addr).Keyed :=
  keyed.mapEntries fun e => by split <;> rfl

theorem cacheExpireEntry_keyed (keyed : cache.Keyed) (key : CString) (now : Int) :
    (cacheExpireEntry cache key now).1.Keyed := by
  simp only [cacheExpireEntry]
  split
  · exact keyed
  · refine keyed.mapEntries fun e => ?_
    split <;> rfl

/-- The entry of the key is expired; without one there is nothing to expire. -/
theorem cacheExpireEntry_expires {key : CString} {now : Int} (clock : 1 < now)
    (keyed : cache.Keyed) {e : CacheEntry Doc}
    (held : (cacheExpireEntry cache key now).1.Holds e) (same : e.normalizedSql = key) :
    e.expired now = true := by
  have past := pastTs_expired clock
  simp only [cacheExpireEntry] at held
  split at held
  · rename_i absent
    exact absurd same (Cache.find_none keyed absent held)
  · rename_i cur found
    obtain ⟨o, old, rfl⟩ := (cache.holds_mapEntries _ e).mp held
    have key : o.normalizedSql = key := by
      split at same <;> exact same
    subst key
    rw [keyed.find old] at found
    cases found
    simp only [if_true, CacheEntry.expired, Bool.and_eq_true, decide_eq_true_eq]
    exact past

/-- A lookup misses exactly when the entries of the key have expired. -/
theorem cacheLookup_misses {key : CString} {now : Int}
    (dead : ∀ e, cache.Holds e → e.normalizedSql = key → e.expired now = true) :
    (cacheLookup cache key now).2 = none := by
  cases served : (cacheLookup cache key now).2 with
  | none => rfl
  | some hit =>
    obtain ⟨e, held, same, live, -⟩ := cacheLookup_hit served
    rw [dead e held same] at live
    cases live

section Insertion

variable {key : CString} {doc : Doc} {opts : Option (CacheEntryOpts Doc)} {now : Int}
  {alloc : AllocOutcome}

theorem cacheInsert_link_keyed (keyed : cache.Keyed)
    (absent : ∀ e, cache.Holds e → e.normalizedSql ≠ key) (ttl : Int) :
    (cacheInsert.link key doc opts now alloc cache (cache.bucketOf key) ttl).1.Keyed := by
  simp only [cacheInsert.link]
  have smaller : (evictToLimits cache
      (sizeofCacheEntry + key.length + 1 + cache.docBytes doc + 1)).Shrinks cache :=
    evictToLimits_shrinks _
  generalize evictToLimits cache
    (sizeofCacheEntry + key.length + 1 + cache.docBytes doc + 1) = room at smaller
  have keyedRoom := keyed.shrink smaller
  cases made : allocEntry room key doc ttl now opts alloc with
  | none => exact keyedRoom
  | some entry =>
    have entryKey : entry.normalizedSql = key := by
      simp only [allocEntry] at made
      split at made
      · cases made
        rfl
      · cases made
    have old : ∀ e, room.Holds e → e.normalizedSql ≠ entry.normalizedSql := by
      intro e held
      rw [entryKey]
      exact absent e (smaller.holds held)
    have holds : ∀ e b, e ∈ (if b = cache.bucketOf key then
        entry :: room.buckets (cache.bucketOf key) else room.buckets b) →
        e = entry ∧ b = cache.bucketOf key ∨ e ∈ room.buckets b := by
      intro e b member
      split at member
      · rename_i same
        rcases List.mem_cons.mp member with new | earlier
        · exact .inl ⟨new, same⟩
        · exact .inr (same ▸ earlier)
      · exact .inr member
    constructor
    · intro b e member
      rcases holds e b member with ⟨rfl, same⟩ | earlier
      · rw [entryKey, same]
        exact (smaller.bucketOf key).symm
      · exact keyedRoom.placed b e earlier
    · rintro e o ⟨b, member⟩ ⟨b', memberOld⟩ same
      rcases holds e b member with ⟨rfl, -⟩ | earlier <;>
        rcases holds o b' memberOld with ⟨rfl, -⟩ | earlierOld
      · rfl
      · exact absurd same.symm (old o ⟨b', earlierOld⟩)
      · exact absurd same (old e ⟨b, earlier⟩)
      · exact keyedRoom.one e o ⟨b, earlier⟩ ⟨b', earlierOld⟩ same

theorem cacheInsert_keyed (keyed : cache.Keyed) :
    (cacheInsert cache key doc opts now alloc).1.Keyed := by
  simp only [cacheInsert]
  split
  · exact keyed
  · split
    · rename_i cur found
      split
      · exact keyed
      · refine cacheInsert_link_keyed (keyed.shrink (cache.unlink_shrinks cur)) ?_ _
        intro e held same
        obtain ⟨b, member⟩ := held
        obtain ⟨old, other⟩ := List.mem_filter.mp member
        subst same
        rw [keyed.find ⟨b, old⟩] at found
        cases found
        simp at other
    · rename_i absent
      exact cacheInsert_link_keyed keyed (fun e held => Cache.find_none keyed absent held) _

/-- What makes an insertion link a new entry in. -/
def InsertLands (cache : Cache Doc) (key : CString) (alloc : AllocOutcome) : Bool :=
  cache.enabled && alloc.entry &&
    !((cache.buckets (cache.bucketOf key)).find? (CacheEntry.matches key)).any (·.inUse)

theorem cacheInsert_link_served {bucket : Nat} {ttl : Int} (same : cache.bucketOf key = bucket)
    (enabled : cache.enabled = true) (made : alloc.entry = true) :
    ((cacheLookup (cacheInsert.link key doc opts now alloc cache bucket ttl).1 key now).2).isSome =
      true := by
  have smaller : (evictToLimits cache
      (sizeofCacheEntry + key.length + 1 + cache.docBytes doc + 1)).Shrinks cache :=
    evictToLimits_shrinks _
  simp only [cacheInsert.link]
  generalize evictToLimits cache
    (sizeofCacheEntry + key.length + 1 + cache.docBytes doc + 1) = room at smaller
  simp only [allocEntry, made, if_true, cacheLookup, Cache.setBucket, smaller.enabled, enabled,
    Bool.not_true, Bool.false_eq_true, if_false]
  have bucketOf := (smaller.bucketOf key).trans same
  simp only [Cache.bucketOf] at bucketOf ⊢
  simp only [bucketOf, if_true, List.find?_cons, CacheEntry.matches, beq_self_eq_true]
  have live : ∀ n : Int, n = (if 0 < ttl then now + ttl else 0) →
      (decide (0 < n) && decide (n ≤ now)) = false := by
    intro n value
    rw [Bool.and_eq_false_iff, decide_eq_false_iff_not, decide_eq_false_iff_not]
    split at value <;> omega
  simp only [CacheEntry.expired, live _ rfl, Bool.false_eq_true, if_false, Option.isSome_some]

/-- A linked entry is served by the next lookup of its key. -/
theorem cacheInsert_lands (lands : InsertLands cache key alloc = true) :
    ((cacheLookup (cacheInsert cache key doc opts now alloc).1 key now).2).isSome = true := by
  simp only [InsertLands, Bool.and_eq_true, Bool.not_eq_true'] at lands
  obtain ⟨⟨enabled, made⟩, idle⟩ := lands
  simp only [cacheInsert, enabled, Bool.not_true, Bool.false_eq_true, if_false]
  cases found : (cache.buckets (cache.bucketOf key)).find? (CacheEntry.matches key) with
  | none => exact cacheInsert_link_served rfl enabled made
  | some cur =>
    rw [found, Option.any_some] at idle
    simp only [idle, Bool.false_eq_true, if_false]
    have smallerEnabled : (cache.unlink cur).enabled = true := enabled
    exact cacheInsert_link_served rfl smallerEnabled made

theorem cacheInsert_link_document {bucket : Nat} {ttl later : Int} {hit : CacheEntry Doc}
    (same : cache.bucketOf key = bucket) (made : alloc.entry = true)
    (served : (cacheLookup (cacheInsert.link key doc opts now alloc cache bucket ttl).1 key later).2 =
      some hit) : hit.outputDocument = doc := by
  have smaller : (evictToLimits cache
      (sizeofCacheEntry + key.length + 1 + cache.docBytes doc + 1)).Shrinks cache :=
    evictToLimits_shrinks _
  simp only [cacheInsert.link] at served
  generalize evictToLimits cache
    (sizeofCacheEntry + key.length + 1 + cache.docBytes doc + 1) = room at smaller served
  have bucketOf := (smaller.bucketOf key).trans same
  simp only [allocEntry, made, if_true, cacheLookup, Cache.setBucket] at served
  simp only [Cache.bucketOf] at bucketOf served
  simp only [bucketOf, if_true, List.find?_cons, CacheEntry.matches, beq_self_eq_true] at served
  rw [apply_ite Prod.snd, Option.ite_none_left_eq_some, apply_ite Prod.snd,
    Option.ite_none_left_eq_some, Option.some_inj] at served
  rw [← served.2.2]

/-- Whenever the linked entry is served, it is served with its document. -/
theorem cacheInsert_document {later : Int} {hit : CacheEntry Doc}
    (lands : InsertLands cache key alloc = true)
    (served : (cacheLookup (cacheInsert cache key doc opts now alloc).1 key later).2 = some hit) :
    hit.outputDocument = doc := by
  simp only [InsertLands, Bool.and_eq_true, Bool.not_eq_true'] at lands
  obtain ⟨⟨enabled, made⟩, idle⟩ := lands
  simp only [cacheInsert, enabled, Bool.not_true, Bool.false_eq_true, if_false] at served
  cases found : (cache.buckets (cache.bucketOf key)).find? (CacheEntry.matches key) with
  | none =>
    simp only [found] at served
    exact cacheInsert_link_document rfl made served
  | some cur =>
    rw [found, Option.any_some] at idle
    simp only [found, idle, Bool.false_eq_true, if_false] at served
    have bucket : (cache.unlink cur).bucketOf key = cache.bucketOf key := rfl
    exact cacheInsert_link_document bucket made served

/-- An insertion that links nothing in adds no entry. -/
theorem cacheInsert_shrinks (fails : InsertLands cache key alloc = false) :
    (cacheInsert cache key doc opts now alloc).1.Shrinks cache := by
  simp only [InsertLands, Bool.and_eq_false_iff, Bool.not_eq_false'] at fails
  simp only [cacheInsert]
  split
  · exact .refl cache
  · rename_i enabled
    have link : ∀ (base : Cache Doc) (ttl : Int), base.Shrinks cache → alloc.entry = false →
        (cacheInsert.link key doc opts now alloc base (cache.bucketOf key) ttl).1.Shrinks cache := by
      intro base ttl smaller unmade
      simp only [cacheInsert.link, allocEntry, unmade, Bool.false_eq_true, if_false]
      exact (evictToLimits_shrinks _).trans smaller
    split
    · rename_i cur found
      split
      · exact .refl cache
      · rename_i idle
        rcases fails with (off | unmade) | used
        · simp [off] at enabled
        · exact link _ _ (cache.unlink_shrinks cur) unmade
        · rw [found, Option.any_some] at used
          exact absurd used idle
    · rename_i absent
      rcases fails with (off | unmade) | used
      · simp [off] at enabled
      · exact link _ _ (.refl cache) unmade
      · rw [absent] at used
        cases used

end Insertion

end OciWrapper.Infra
