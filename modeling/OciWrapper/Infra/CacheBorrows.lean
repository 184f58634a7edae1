import OciWrapper.Concurrent.Runs
import OciWrapper.Infra.CacheEntries
import Mathlib.Logic.Function.Basic

namespace OciWrapper.Infra

open OciWrapper.Concurrent
open OciWrapper.Text

variable {Doc : Type}

/-- `e` is the entry that `old` points to, with what a borrower reads unchanged. -/
structure CacheEntry.SamePayload (e old : CacheEntry Doc) : Prop where
  addr : e.addr = old.addr
  normalizedSql : e.normalizedSql = old.normalizedSql
  outputDocument : e.outputDocument = old.outputDocument
  outputDocumentJson : e.outputDocumentJson = old.outputDocumentJson
  tableDependencyTag : e.tableDependencyTag = old.tableDependencyTag
  pinned : e.pinned = old.pinned

theorem CacheEntry.SamePayload.refl (e : CacheEntry Doc) : e.SamePayload e :=
  ⟨rfl, rfl, rfl, rfl, rfl, rfl⟩

theorem CacheEntry.SamePayload.trans {e mid old : CacheEntry Doc} (new : e.SamePayload mid)
    (earlier : mid.SamePayload old) : e.SamePayload old :=
  ⟨new.addr.trans earlier.addr, new.normalizedSql.trans earlier.normalizedSql,
    new.outputDocument.trans earlier.outputDocument,
    new.outputDocumentJson.trans earlier.outputDocumentJson,
    new.tableDependencyTag.trans earlier.tableDependencyTag, new.pinned.trans earlier.pinned⟩

/-- An address stands for one entry, and the next one is unused. -/
structure Cache.Addressed (cache : Cache Doc) : Prop where
  fresh : ∀ e, cache.Holds e → e.addr < cache.nextAddr
  one : ∀ e o, cache.Holds e → cache.Holds o → e.addr = o.addr → e = o

/-- Every entry checked out of the old cache is still in the new, checked out. -/
def Cache.Retains (cache old : Cache Doc) : Prop :=
  ∀ o, old.Holds o → o.inUse = true → ∃ e, cache.Holds e ∧ e.SamePayload o ∧ e.inUse = true

theorem Cache.Retains.refl (cache : Cache Doc) : cache.Retains cache :=
  fun o held used => ⟨o, held, .refl o, used⟩

theorem Cache.Retains.trans {cache mid old : Cache Doc} (new : cache.Retains mid)
    (earlier : mid.Retains old) : cache.Retains old := by
  intro o held used
  obtain ⟨m, heldMid, sameMid, usedMid⟩ := earlier o held used
  obtain ⟨e, heldNew, same, usedNew⟩ := new m heldMid usedMid
  exact ⟨e, heldNew, same.trans sameMid, usedNew⟩

section Operations

variable {cache : Cache Doc}

theorem Cache.Addressed.mapEntries (addressed : cache.Addressed)
    {f : CacheEntry Doc → CacheEntry Doc} (same : ∀ e, (f e).addr = e.addr) :
    (cache.mapEntries f).Addressed := by
  constructor
  · intro e held
    obtain ⟨o, old, rfl⟩ := (cache.holds_mapEntries f e).mp held
    rw [same o]
    exact addressed.fresh o old
  · intro e e' held held' addr
    obtain ⟨o, old, rfl⟩ := (cache.holds_mapEntries f e).mp held
    obtain ⟨o', old', rfl⟩ := (cache.holds_mapEntries f e').mp held'
    rw [same o, same o'] at addr
    rw [addressed.one o o' old old' addr]

theorem Cache.mapEntries_retains {f : CacheEntry Doc → CacheEntry Doc}
    (same : ∀ e, (f e).SamePayload e) (used : ∀ e, e.inUse = true → (f e).inUse = true) :
    (cache.mapEntries f).Retains cache :=
  fun o held out => ⟨f o, (cache.holds_mapEntries f _).mpr ⟨o, held, rfl⟩, same o, used o out⟩

theorem Cache.holds_unlink (victim e : CacheEntry Doc) :
    (cache.unlink victim).Holds e ↔ cache.Holds e ∧ e.addr ≠ victim.addr := by
  simp only [Cache.Holds, Cache.unlink, List.mem_filter, bne_iff_ne, exists_and_right]

theorem Cache.holds_unlinks (victims : List (CacheEntry Doc)) (e : CacheEntry Doc) :
    (victims.foldl Cache.unlink cache).Holds e ↔
      cache.Holds e ∧ ∀ victim ∈ victims, e.addr ≠ victim.addr := by
  induction victims generalizing cache with
  | nil => simp
  | cons victim victims ih =>
    rw [List.foldl_cons, ih, Cache.holds_unlink, List.forall_mem_cons, and_assoc]

theorem Cache.unlinks_nextAddr (victims : List (CacheEntry Doc)) :
    (victims.foldl Cache.unlink cache).nextAddr = cache.nextAddr := by
  induction victims generalizing cache with
  | nil => rfl
  | cons victim victims ih => exact ih

theorem Cache.Addressed.unlinks (addressed : cache.Addressed) (victims : List (CacheEntry Doc)) :
    (victims.foldl Cache.unlink cache).Addressed := by
  constructor
  · intro e held
    rw [Cache.unlinks_nextAddr]
    exact addressed.fresh e ((Cache.holds_unlinks victims e).mp held).1
  · intro e o held heldOld
    exact addressed.one e o ((Cache.holds_unlinks victims e).mp held).1
      ((Cache.holds_unlinks victims o).mp heldOld).1

theorem Cache.Addressed.unlink (addressed : cache.Addressed) (victim : CacheEntry Doc) :
    (cache.unlink victim).Addressed :=
  addressed.unlinks [victim]

theorem Cache.Addressed.unlinks_retains (addressed : cache.Addressed)
    {victims : List (CacheEntry Doc)}
    (idle : ∀ victim ∈ victims, cache.Holds victim ∧ victim.inUse = false) :
    (victims.foldl Cache.unlink cache).Retains cache := by
  intro o held used
  refine ⟨o, (Cache.holds_unlinks victims o).mpr ⟨held, ?_⟩, .refl o, used⟩
  intro victim member same
  obtain ⟨heldVictim, unused⟩ := idle victim member
  rw [addressed.one o victim held heldVictim same, unused] at used
  cases used

theorem Cache.Addressed.unlink_retains (addressed : cache.Addressed) {victim : CacheEntry Doc}
    (held : cache.Holds victim) (idle : victim.inUse = false) :
    (cache.unlink victim).Retains cache := by
  have only : ∀ other ∈ [victim], cache.Holds other ∧ other.inUse = false := by
    simpa using ⟨held, idle⟩
  exact addressed.unlinks_retains only

theorem Cache.holds_of_mem_entries {e : CacheEntry Doc} (member : e ∈ cache.entries) :
    cache.Holds e := by
  obtain ⟨b, -, inBucket⟩ := List.mem_flatMap.mp member
  exact ⟨b, inBucket⟩

theorem evictable_idle {e : CacheEntry Doc} (free : evictable e = true) : e.inUse = false := by
  simp only [evictable, Bool.and_eq_true, Bool.not_eq_true'] at free
  exact free.2

theorem lruVictim_evictable {entries : List (CacheEntry Doc)} {victim : CacheEntry Doc}
    (found : lruVictim entries = some victim) : victim ∈ entries ∧ evictable victim = true := by
  suffices scanned : ∀ (start : Option (CacheEntry Doc) × Int),
      (entries.foldl (fun found cur =>
        if evictable cur && decide (cur.lastAccessTs < found.2) then (some cur, cur.lastAccessTs)
        else found) start).1 = some victim →
      start.1 = some victim ∨ victim ∈ entries ∧ evictable victim = true by
    rcases scanned (none, -1) found with none | inside
    · cases none
    · exact inside
  clear found
  induction entries with
  | nil => exact fun start found => .inl found
  | cons e entries ih =>
    intro start found
    rw [List.foldl_cons] at found
    rcases ih _ found with earlier | ⟨member, free⟩
    · split at earlier
      · rename_i chosen
        cases earlier
        exact .inr ⟨List.mem_cons_self, (Bool.and_eq_true _ _ ▸ chosen).1⟩
      · exact .inl earlier
    · exact .inr ⟨List.mem_cons_of_mem e member, free⟩

/-- One round of the LRU eviction. -/
theorem Cache.Addressed.evictLru (addressed : cache.Addressed) {smaller : Cache Doc}
    (evicted : evictLruUnderLock cache = some smaller) :
    smaller.Addressed ∧ smaller.Retains cache := by
  rw [evictLruUnderLock, Option.map_eq_some_iff] at evicted
  obtain ⟨victim, found, rfl⟩ := evicted
  obtain ⟨member, free⟩ := lruVictim_evictable found
  exact ⟨addressed.unlink victim,
    addressed.unlink_retains (Cache.holds_of_mem_entries member) (evictable_idle free)⟩

theorem Cache.Addressed.evictWhile (addressed : cache.Addressed) (exceeds : Cache Doc → Bool)
    (fuel : Nat) :
    (evictWhile exceeds fuel cache).Addressed ∧ (evictWhile exceeds fuel cache).Retains cache := by
  induction fuel generalizing cache with
  | zero => exact ⟨addressed, .refl cache⟩
  | succ fuel ih =>
    rw [Infra.evictWhile]
    split
    · cases evicted : evictLruUnderLock cache with
      | none => exact ⟨addressed, .refl cache⟩
      | some smaller =>
        obtain ⟨addressedSmaller, retains⟩ := addressed.evictLru evicted
        obtain ⟨after, kept⟩ := ih addressedSmaller
        exact ⟨after, kept.trans retains⟩
    · exact ⟨addressed, .refl cache⟩

theorem Cache.Addressed.evictToLimits (addressed : cache.Addressed) (estimated : Nat) :
    (evictToLimits cache estimated).Addressed ∧ (evictToLimits cache estimated).Retains cache := by
  obtain ⟨byCount, keptByCount⟩ := addressed.evictWhile
    (fun c => decide (c.maxEntries ≤ c.entryCount)) cache.entries.length
  obtain ⟨after, kept⟩ := byCount.evictWhile
    (fun c => decide (c.maxMemoryBytes < c.currentMemoryBytes + estimated)) _
  exact ⟨after, kept.trans keptByCount⟩

theorem Cache.Addressed.evictExpired (addressed : cache.Addressed) (now : Int) :
    (cacheEvictExpired cache now).Addressed ∧ (cacheEvictExpired cache now).Retains cache := by
  have idle : ∀ victim ∈ cache.entries.filter (fun e => e.expired now && evictable e),
      cache.Holds victim ∧ victim.inUse = false := by
    intro victim member
    obtain ⟨inside, chosen⟩ := List.mem_filter.mp member
    rw [Bool.and_eq_true] at chosen
    exact ⟨Cache.holds_of_mem_entries inside, evictable_idle chosen.2⟩
  have swept := addressed.unlinks_retains idle
  obtain ⟨after, kept⟩ := (addressed.unlinks _).evictWhile
    (fun c => decide (c.maxMemoryBytes < c.currentMemoryBytes)) _
  exact ⟨after, kept.trans swept⟩

/-- What the insertion links in has an address of its own. -/
theorem Cache.Addressed.link (addressed : cache.Addressed) (key : CString) (doc : Doc)
    (opts : Option (CacheEntryOpts Doc)) (now : Int) (alloc : AllocOutcome) (bucket : Nat)
    (ttl : Int) :
    (cacheInsert.link key doc opts now alloc cache bucket ttl).1.Addressed ∧
      (cacheInsert.link key doc opts now alloc cache bucket ttl).1.Retains cache := by
  simp only [cacheInsert.link]
  obtain ⟨room, kept⟩ := addressed.evictToLimits
    (sizeofCacheEntry + key.length + 1 + cache.docBytes doc + 1)
  generalize Infra.evictToLimits cache
    (sizeofCacheEntry + key.length + 1 + cache.docBytes doc + 1) = smaller at room kept
  cases made : allocEntry smaller key doc ttl now opts alloc with
  | none => exact ⟨room, kept⟩
  | some entry =>
    have addr : entry.addr = smaller.nextAddr := by
      simp only [allocEntry] at made
      split at made
      · cases made
        rfl
      · cases made
    have holds : ∀ e, Cache.Holds { smaller.setBucket bucket (entry :: smaller.buckets bucket) with
        entryCount := smaller.entryCount + 1
        currentMemoryBytes := smaller.currentMemoryBytes + entry.entryMemoryBytes
        nextAddr := smaller.nextAddr + 1 } e ↔ e = entry ∨ smaller.Holds e := by
      intro e
      simp only [Cache.Holds, Cache.setBucket]
      constructor
      · rintro ⟨b, member⟩
        split at member
        · rcases List.mem_cons.mp member with new | old
          · exact .inl new
          · exact .inr ⟨bucket, old⟩
        · exact .inr ⟨b, member⟩
      · rintro (rfl | ⟨b, member⟩)
        · exact ⟨bucket, by simp⟩
        · refine ⟨b, ?_⟩
          split
          · rename_i same
            subst same
            exact List.mem_cons_of_mem _ member
          · exact member
    refine ⟨⟨?_, ?_⟩, ?_⟩
    · intro e held
      rcases (holds e).mp held with rfl | old
      · rw [addr]
        exact Nat.lt_succ_self _
      · exact Nat.lt_succ_of_lt (room.fresh e old)
    · intro e o held heldOld same
      rcases (holds e).mp held with rfl | old <;> rcases (holds o).mp heldOld with rfl | older
      · rfl
      · have := room.fresh o older
        omega
      · have := room.fresh e old
        omega
      · exact room.one e o old older same
    · intro o held used
      obtain ⟨e, heldNew, same, usedNew⟩ := kept o held used
      exact ⟨e, (holds e).mpr (.inr heldNew), same, usedNew⟩

theorem Cache.Addressed.insert (addressed : cache.Addressed) (key : CString) (doc : Doc)
    (opts : Option (CacheEntryOpts Doc)) (now : Int) (alloc : AllocOutcome) :
    (cacheInsert cache key doc opts now alloc).1.Addressed ∧
      (cacheInsert cache key doc opts now alloc).1.Retains cache := by
  simp only [cacheInsert]
  split
  · exact ⟨addressed, .refl cache⟩
  · split
    · rename_i cur found
      split
      · exact ⟨addressed, .refl cache⟩
      · rename_i idle
        have freed := addressed.unlink_retains ⟨_, List.mem_of_find?_eq_some found⟩
          (Bool.eq_false_iff.mpr idle)
        obtain ⟨after, kept⟩ := (addressed.unlink cur).link key doc opts now alloc _ _
        exact ⟨after, kept.trans freed⟩
    · exact addressed.link key doc opts now alloc _ _

theorem Cache.Addressed.expireEntry (addressed : cache.Addressed) (key : CString) (now : Int) :
    (cacheExpireEntry cache key now).1.Addressed ∧
      (cacheExpireEntry cache key now).1.Retains cache := by
  simp only [cacheExpireEntry]
  cases (cache.buckets (cache.bucketOf key)).find? (CacheEntry.matches key) with
  | none => exact ⟨addressed, .refl cache⟩
  | some cur =>
    refine ⟨addressed.mapEntries fun e => ?_, Cache.mapEntries_retains (fun e => ?_) fun e used => ?_⟩
    · split <;> rfl
    · split <;> exact ⟨rfl, rfl, rfl, rfl, rfl, rfl⟩
    · split <;> exact used

theorem Cache.Addressed.invalidateByTag (addressed : cache.Addressed) (tag : CString) (now : Int) :
    (cacheInvalidateByTag cache tag now).Addressed ∧
      (cacheInvalidateByTag cache tag now).Retains cache := by
  simp only [cacheInvalidateByTag]
  split
  · exact ⟨addressed, .refl cache⟩
  · refine ⟨addressed.mapEntries fun e => ?_, Cache.mapEntries_retains (fun e => ?_) fun e used => ?_⟩
    · split <;> rfl
    · split <;> exact ⟨rfl, rfl, rfl, rfl, rfl, rfl⟩
    · split <;> exact used

theorem Cache.Addressed.lookup (addressed : cache.Addressed) (key : CString) (now : Int) :
    (cacheLookup cache key now).1.Addressed ∧ (cacheLookup cache key now).1.Retains cache ∧
      ∀ hit, (cacheLookup cache key now).2 = some hit →
        (cacheLookup cache key now).1.Holds hit ∧ hit.inUse = true := by
  simp only [cacheLookup]
  split
  · exact ⟨addressed, .refl cache, fun hit served => by cases served⟩
  · cases found : (cache.buckets (cache.bucketOf key)).find? (CacheEntry.matches key) with
    | none => exact ⟨addressed, .refl cache, fun hit served => by cases served⟩
    | some cur =>
      dsimp only
      split
      · exact ⟨addressed, .refl cache, fun hit served => by cases served⟩
      · refine ⟨addressed.mapEntries fun e => ?_,
          Cache.mapEntries_retains (fun e => ?_) fun e used => ?_, ?_⟩
        · split <;> rfl
        · split <;> exact ⟨rfl, rfl, rfl, rfl, rfl, rfl⟩
        · split
          · rfl
          · exact used
        · intro hit served
          cases served
          refine ⟨(cache.holds_mapEntries _ _).mpr ⟨cur, ?_, if_pos rfl⟩, rfl⟩
          exact ⟨_, List.mem_of_find?_eq_some found⟩

theorem Cache.Addressed.release (addressed : cache.Addressed) (addr : Nat) :
    (cacheRelease cache addr).Addressed :=
  addressed.mapEntries fun e => by split <;> rfl

/-- A release takes the flag of its own entry only. -/
theorem cacheRelease_retains {addr : Nat} {o : CacheEntry Doc} (held : cache.Holds o)
    (other : o.addr ≠ addr) : (cacheRelease cache addr).Holds o :=
  (cache.holds_mapEntries _ _).mpr ⟨o, held, if_neg other⟩

theorem Cache.Addressed.reinit (addressed : cache.Addressed) :
    ( cacheReinitialize cache).Addressed :=
  addressed.unlinks _

theorem Cache.Addressed.reinit_holds (addressed : cache.Addressed) {e : CacheEntry Doc}
    (held : cache.Holds e) (pinned : e.pinned = true) : ( cacheReinitialize cache).Holds e := by
  refine (Cache.holds_unlinks _ e).mpr ⟨held, fun victim member same => ?_⟩
  obtain ⟨inside, unpinned⟩ := List.mem_filter.mp member
  rw [← addressed.one e victim held (Cache.holds_of_mem_entries inside) same, pinned] at unpinned
  cases unpinned

end Operations

end OciWrapper.Infra
