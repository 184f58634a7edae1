import OciWrapper.Infra.CacheCounts

namespace OciWrapper.Infra

open OciWrapper.Concurrent
open OciWrapper.Text

variable {Doc : Type} {cache : Cache Doc}

def Cache.WithinLimits (cache : Cache Doc) : Prop :=
  cache.entryCount ≤ cache.maxEntries ∧ cache.currentMemoryBytes ≤ cache.maxMemoryBytes

/-- Every entry is pinned or checked out. -/
def Cache.NoneEvictable (cache : Cache Doc) : Prop := ∀ e, cache.Holds e → evictable e = false

/-- If some entry is evictable, the least recently used of those is evicted. -/
def Cache.EvictsLru (cache : Cache Doc) : Prop :=
  (∃ e, cache.Holds e ∧ evictable e = true) →
    ∃ victim, cache.Holds victim ∧ evictable victim = true ∧
      (∀ e, cache.Holds e → evictable e = true → victim.lastAccessTs ≤ e.lastAccessTs) ∧
      evictLruUnderLock cache = some (cache.unlink victim)

/-- The caches at which `evictWhile` calls `evict_lru_under_lock`. -/
def evictionsWhile (exceeds : Cache Doc → Bool) : Nat → Cache Doc → List (Cache Doc)
  | 0, _ => []
  | fuel + 1, cache =>
    if exceeds cache then
      match evictLruUnderLock cache with
      | some smaller => cache :: evictionsWhile exceeds fuel smaller
      | none => [cache]
    else []

def evictionsToLimits (cache : Cache Doc) (estimated : Nat) : List (Cache Doc) :=
  let byCount := evictWhile (fun c => decide (c.maxEntries ≤ c.entryCount))
    cache.entries.length cache
  evictionsWhile (fun c => decide (c.maxEntries ≤ c.entryCount)) cache.entries.length cache ++
    evictionsWhile (fun c => decide (c.maxMemoryBytes < c.currentMemoryBytes + estimated))
      byCount.entries.length byCount

/-- The entry under the key, which an insertion replaces. -/
def Cache.under (cache : Cache Doc) (key : CString) : Option (CacheEntry Doc) :=
  (cache.buckets (cache.bucketOf key)).find? (CacheEntry.matches key)

def Cache.without (cache : Cache Doc) (key : CString) : Cache Doc :=
  match cache.under key with
  | some cur => cache.unlink cur
  | none => cache

/-- The insertion is neither switched off nor skipped for an entry that is checked out. -/
def InsertApplies (cache : Cache Doc) (key : CString) : Bool :=
  cache.enabled && !(cache.under key).any (·.inUse)

def Cache.estimated (cache : Cache Doc) (key : CString) (doc : Doc) : Nat :=
  sizeofCacheEntry + key.length + 1 + cache.docBytes doc + 1

/-- `entry_memory_bytes` of the entry that an insertion makes. -/
def Cache.newEntryBytes (cache : Cache Doc) (key : CString) (doc : Doc)
    (opts : Option (CacheEntryOpts Doc)) (alloc : AllocOutcome) : Nat :=
  entryMemorySize cache key doc (if alloc.json then opts.bind (·.outputDocumentJson) else none)
    ((opts.map (·.tracingBytes)).getD 0)

def evictionsOfInsert (cache : Cache Doc) (key : CString) (doc : Doc) : List (Cache Doc) :=
  if InsertApplies cache key then
    evictionsToLimits (cache.without key) ((cache.without key).estimated key doc)
  else []

/-- The cache once `cache_evict_expired` has unlinked what has expired. -/
def sweepExpired (cache : Cache Doc) (now : Int) : Cache Doc :=
  (cache.entries.filter (fun e => e.expired now && evictable e)).foldl Cache.unlink cache

def evictionsOfSweep (cache : Cache Doc) (now : Int) : List (Cache Doc) :=
  evictionsWhile (fun c => decide (c.maxMemoryBytes < c.currentMemoryBytes))
    (sweepExpired cache now).entries.length (sweepExpired cache now)

theorem cacheEvictExpired_eq (cache : Cache Doc) (now : Int) :
    cacheEvictExpired cache now =
      evictWhile (fun c => decide (c.maxMemoryBytes < c.currentMemoryBytes))
        (sweepExpired cache now).entries.length (sweepExpired cache now) := rfl

theorem Cache.unlinks_maxMemoryBytes (victims : List (CacheEntry Doc)) :
    (victims.foldl Cache.unlink cache).maxMemoryBytes = cache.maxMemoryBytes := by
  induction victims generalizing cache with
  | nil => rfl
  | cons victim victims ih => exact ih

/-- No entry was accessed before the epoch. -/
def Cache.Accessed (cache : Cache Doc) : Prop := ∀ e, cache.Holds e → 0 ≤ e.lastAccessTs

theorem Cache.Accessed.shrink {old : Cache Doc} (accessed : old.Accessed)
    (smaller : cache.Shrinks old) : cache.Accessed :=
  fun e held => accessed e (smaller.holds held)

theorem Cache.Accessed.mapEntries (accessed : cache.Accessed)
    {f : CacheEntry Doc → CacheEntry Doc}
    (kept : ∀ e, 0 ≤ e.lastAccessTs → 0 ≤ (f e).lastAccessTs) : (cache.mapEntries f).Accessed := by
  intro e held
  obtain ⟨o, old, rfl⟩ := (cache.holds_mapEntries f e).mp held
  exact kept o (accessed o old)

/-- The bound of the scan starts at -1, so no access time is below it. -/
theorem Cache.Accessed.evictLru (accessed : cache.Accessed) : evictLruUnderLock cache = none := by
  have scan : ∀ entries : List (CacheEntry Doc), (∀ e ∈ entries, 0 ≤ e.lastAccessTs) →
      entries.foldl
        (fun (found : Option (CacheEntry Doc) × Int) cur =>
          if evictable cur && decide (cur.lastAccessTs < found.2) then (some cur, cur.lastAccessTs)
          else found) (none, -1) = (none, -1) := by
    intro entries
    induction entries with
    | nil => exact fun _ => rfl
    | cons e entries ih =>
      intro times
      have first := times e List.mem_cons_self
      have early : ¬ e.lastAccessTs < -1 := by omega
      rw [List.foldl_cons]
      simp only [early, decide_false, Bool.and_false, Bool.false_eq_true, if_false]
      exact ih fun o member => times o (List.mem_cons_of_mem e member)
  have times : ∀ e ∈ cache.entries, 0 ≤ e.lastAccessTs :=
    fun e member => accessed e (Cache.holds_of_mem_entries member)
  rw [evictLruUnderLock, lruVictim, scan _ times]
  rfl

theorem Cache.Accessed.evictsLru_iff (accessed : cache.Accessed) :
    cache.EvictsLru ↔ cache.NoneEvictable := by
  constructor
  · intro works e held
    cases idle : evictable e with
    | false => rfl
    | true =>
      obtain ⟨victim, -, -, -, evicted⟩ := works ⟨e, held, idle⟩
      rw [accessed.evictLru] at evicted
      cases evicted
  · intro busy some
    obtain ⟨e, held, idle⟩ := some
    rw [busy e held] at idle
    cases idle

theorem Cache.Accessed.evictWhile (accessed : cache.Accessed) (exceeds : Cache Doc → Bool)
    (fuel : Nat) : evictWhile exceeds fuel cache = cache := by
  cases fuel with
  | zero => rfl
  | succ fuel => simp only [Infra.evictWhile, accessed.evictLru, ite_self]

theorem Cache.Accessed.evictToLimits (accessed : cache.Accessed) (estimated : Nat) :
    evictToLimits cache estimated = cache := by
  simp only [Infra.evictToLimits, accessed.evictWhile]

theorem Cache.Counted.evictionsWhile_iff (counted : cache.Counted) (accessed : cache.Accessed)
    (exceeds : Cache Doc → Bool) :
    (∀ c ∈ evictionsWhile exceeds cache.entries.length cache, c.EvictsLru) ↔
      (exceeds cache = true → cache.NoneEvictable) := by
  cases size : cache.entries.length with
  | zero =>
    have empty : cache.NoneEvictable := by
      intro e held
      have member := counted.mem_entries held
      rw [List.eq_nil_of_length_eq_zero size] at member
      cases member
    simp [evictionsWhile, empty]
  | succ fuel =>
    simp only [evictionsWhile, accessed.evictLru]
    split
    · rename_i exceeding
      rw [List.forall_mem_singleton, accessed.evictsLru_iff]
      simp [exceeding]
    · rename_i below
      simp [below]

theorem Cache.Counted.evictionsToLimits_iff (counted : cache.Counted) (accessed : cache.Accessed)
    (estimated : Nat) :
    (∀ c ∈ evictionsToLimits cache estimated, c.EvictsLru) ↔
      cache.NoneEvictable ∨
        cache.entryCount < cache.maxEntries ∧
          cache.currentMemoryBytes + estimated ≤ cache.maxMemoryBytes := by
  simp only [evictionsToLimits, accessed.evictWhile, List.forall_mem_append,
    counted.evictionsWhile_iff accessed, decide_eq_true_eq]
  constructor
  · rintro ⟨byCount, byMemory⟩
    by_cases busy : cache.NoneEvictable
    · exact .inl busy
    · exact .inr ⟨by_contra fun full => busy (byCount (by omega)),
        by_contra fun full => busy (byMemory (by omega))⟩
  · rintro (busy | room)
    · exact ⟨fun _ => busy, fun _ => busy⟩
    · exact ⟨fun full => by omega, fun full => by omega⟩

theorem Cache.without_shrinks (key : CString) : (cache.without key).Shrinks cache := by
  rw [Cache.without]
  split
  · exact Cache.unlink_shrinks _
  · exact .refl cache

theorem Cache.Counted.without (counted : cache.Counted) (key : CString) :
    (cache.without key).Counted := by
  rw [Cache.without]
  split
  next cur found => exact counted.unlink ⟨_, List.mem_of_find?_eq_some found⟩
  next => exact counted

theorem Cache.Counted.without_absent (counted : cache.Counted) {key : CString}
    {e : CacheEntry Doc} (held : (cache.without key).Holds e) : e.normalizedSql ≠ key := by
  rw [Cache.without] at held
  split at held
  next cur found =>
    obtain ⟨before, other⟩ := (Cache.holds_unlink cur e).mp held
    rintro rfl
    rw [Cache.under, counted.keyed.find before] at found
    cases found
    exact other rfl
  next absent => exact Cache.find_none counted.keyed absent held

section Insertion

variable {key : CString} {doc : Doc} {opts : Option (CacheEntryOpts Doc)} {now : Int}
  {alloc : AllocOutcome}

theorem cacheInsert_skips (skipped : InsertApplies cache key = false) :
    cacheInsert cache key doc opts now alloc = (cache, true) := by
  simp only [InsertApplies, Bool.and_eq_false_iff, Bool.not_eq_false'] at skipped
  simp only [cacheInsert]
  split
  · rfl
  · rename_i enabled
    rcases skipped with off | used
    · simp [off] at enabled
    · cases found : cache.under key with
      | none =>
        rw [found] at used
        cases used
      | some cur =>
        rw [found, Option.any_some] at used
        rw [Cache.under] at found
        simp only [found, used, if_true]

/-- The lifetime that an insertion gives its entry. -/
def Cache.effectiveTtl (cache : Cache Doc) (opts : Option (CacheEntryOpts Doc)) : Int :=
  match opts with
  | some o => if 0 < o.ttlSeconds then o.ttlSeconds else cache.ttlSeconds
  | none => cache.ttlSeconds

theorem cacheInsert_applies (applies : InsertApplies cache key = true) :
    cacheInsert cache key doc opts now alloc =
      cacheInsert.link key doc opts now alloc (cache.without key)
        ((cache.without key).bucketOf key) (cache.effectiveTtl opts) := by
  have bucket := (@Cache.without_shrinks _ cache key).bucketOf key
  rw [bucket]
  simp only [InsertApplies, Bool.and_eq_true, Bool.not_eq_true'] at applies
  obtain ⟨enabled, idle⟩ := applies
  simp only [cacheInsert, enabled, Bool.not_true, Bool.false_eq_true, if_false, Cache.without]
  cases found : cache.under key with
  | none =>
    rw [Cache.under] at found
    simp only [found]
    rfl
  | some cur =>
    rw [found, Option.any_some] at idle
    rw [Cache.under] at found
    simp only [found, idle, Bool.false_eq_true, if_false]
    rfl

theorem cacheInsert_link_unmade (ttl : Int) (unmade : alloc.entry = false) :
    cacheInsert.link key doc opts now alloc cache (cache.bucketOf key) ttl =
      (evictToLimits cache (cache.estimated key doc), false) := by
  simp only [cacheInsert.link, allocEntry, unmade, Bool.false_eq_true, if_false, Cache.estimated]

/-- The new entry is linked in once there is room. -/
theorem cacheInsert_link_made (ttl : Int) (made : alloc.entry = true) {room : Cache Doc}
    (roomy : evictToLimits cache (cache.estimated key doc) = room) :
    ∃ entry after,
      cacheInsert.link key doc opts now alloc cache (cache.bucketOf key) ttl = (after, true) ∧
      allocEntry room key doc ttl now opts alloc = some entry ∧
      (∀ e, after.Holds e ↔ e = entry ∨ room.Holds e) ∧
      after.entryCount = room.entryCount + 1 ∧ after.maxEntries = room.maxEntries ∧
      after.currentMemoryBytes = room.currentMemoryBytes + room.newEntryBytes key doc opts alloc ∧
      after.maxMemoryBytes = room.maxMemoryBytes ∧ after.enabled = room.enabled := by
  rw [Cache.estimated] at roomy
  have bucket : cache.bucketOf key = room.bucketOf key := by
    rw [← roomy]
    exact ((evictToLimits_shrinks _).bucketOf key).symm
  obtain ⟨entry, alloc', bytes⟩ :
      ∃ entry, allocEntry room key doc ttl now opts alloc = some entry ∧
        entry.entryMemoryBytes = room.newEntryBytes key doc opts alloc := by
    simp only [allocEntry, made, if_true]
    exact ⟨_, rfl, rfl⟩
  simp only [cacheInsert.link, roomy, bucket, alloc', ← bytes]
  refine ⟨entry, _, rfl, rfl, fun e => ?_, rfl, rfl, rfl, rfl, rfl⟩
  simp only [Cache.Holds, Cache.setBucket]
  constructor
  · rintro ⟨b, member⟩
    split at member
    · rcases List.mem_cons.mp member with new | old
      · exact .inl new
      · exact .inr ⟨_, old⟩
    · exact .inr ⟨b, member⟩
  · rintro (new | ⟨b, old⟩)
    · refine ⟨room.bucketOf key, ?_⟩
      rw [if_pos rfl, new]
      exact List.mem_cons_self
    · refine ⟨b, ?_⟩
      split
      · rename_i same
        exact List.mem_cons_of_mem _ (same ▸ old)
      · exact old

/-- What an entry that can be allocated is made of. -/
theorem allocEntry_fields {ttl : Int} {entry : CacheEntry Doc}
    (made : allocEntry cache key doc ttl now opts alloc = some entry) :
    entry.normalizedSql = key ∧ entry.outputDocument = doc ∧
      entry.outputDocumentJson = (if alloc.json then opts.bind (·.outputDocumentJson) else none) ∧
      entry.tableDependencyTag = (if alloc.tag then opts.bind (·.tableDependencyTag) else none) ∧
      entry.lastAccessTs = now ∧ entry.expiryTs = (if 0 < ttl then now + ttl else 0) := by
  simp only [allocEntry] at made
  split at made
  · cases made
    exact ⟨rfl, rfl, rfl, rfl, rfl, rfl⟩
  · cases made

theorem Cache.Accessed.insert (accessed : cache.Accessed) (clock : 0 ≤ now) :
    (cacheInsert cache key doc opts now alloc).1.Accessed := by
  cases applies : InsertApplies cache key with
  | false =>
    rw [cacheInsert_skips applies]
    exact accessed
  | true =>
    rw [cacheInsert_applies applies]
    have base : (cache.without key).Accessed := accessed.shrink (Cache.without_shrinks key)
    cases outcome : alloc.entry with
    | false =>
      rw [cacheInsert_link_unmade _ outcome, base.evictToLimits]
      exact base
    | true =>
      obtain ⟨entry, after, same, made, holds, -⟩ := @cacheInsert_link_made _ _ key doc opts now
        alloc (cache.effectiveTtl opts) outcome _ (base.evictToLimits _)
      obtain ⟨-, -, -, -, access, -⟩ := allocEntry_fields made
      rw [same]
      intro e held
      rcases (holds e).mp held with rfl | old
      · rw [access]
        exact clock
      · exact base e old

end Insertion

namespace Lending

variable {C : Type} [DecidableEq C]

/-- What the limits ask of a call: after an insertion that succeeds they are met, or what is
    there besides the new entry cannot be evicted; and evictions take the least recently
    used entry. -/
def KeepsLimits (s : Lending C Doc) : CacheCall C Doc → Prop
  | .insert key doc opts alloc =>
    ((cacheInsert s.cache key doc opts s.now alloc).2 = true →
      (cacheInsert s.cache key doc opts s.now alloc).1.WithinLimits ∨
        ∀ e, (cacheInsert s.cache key doc opts s.now alloc).1.Holds e → e.normalizedSql ≠ key →
          evictable e = false) ∧
      ∀ c ∈ evictionsOfInsert s.cache key doc, c.EvictsLru
  | .evictExpired => ∀ c ∈ evictionsOfSweep s.cache s.now, c.EvictsLru
  | .evictLru => ¬ s.cache.WithinLimits → s.cache.EvictsLru
  | _ => True

/-- There is room for what the call brings, or nothing that could make room. -/
def HasRoom (s : Lending C Doc) : CacheCall C Doc → Prop
  | .insert key doc opts alloc =>
    if InsertApplies s.cache key then
      (s.cache.without key).NoneEvictable ∨
        (s.cache.without key).entryCount < s.cache.maxEntries ∧
          (s.cache.without key).currentMemoryBytes + s.cache.estimated key doc ≤
            s.cache.maxMemoryBytes ∧
          (alloc.entry = true →
            (s.cache.without key).currentMemoryBytes + s.cache.newEntryBytes key doc opts alloc ≤
              s.cache.maxMemoryBytes)
    else
      s.cache.WithinLimits ∨
        ∀ e, s.cache.Holds e → e.normalizedSql ≠ key → evictable e = false
  | .evictExpired =>
    (sweepExpired s.cache s.now).currentMemoryBytes ≤ s.cache.maxMemoryBytes ∨
      (sweepExpired s.cache s.now).NoneEvictable
  | .evictLru => s.cache.WithinLimits ∨ s.cache.NoneEvictable
  | _ => True

structure Timed (s : Lending C Doc) : Prop where
  counted : s.cache.Counted
  accessed : s.cache.Accessed
  clock : 0 ≤ s.now

theorem step_timed (s : Lending C Doc) (call : CacheCall C Doc) (timed : s.Timed) :
    (s.step call).Timed := by
  have counted := step_counted s call timed.counted
  have accessed := timed.accessed
  have clock := timed.clock
  cases call with
  | lookup caller key =>
    refine ⟨counted, ?_, clock⟩
    simp only [step, cacheLookup]
    split
    · exact accessed
    split
    · exact accessed
    split
    · exact accessed
    · apply accessed.mapEntries
      intro e old
      split
      · exact clock
      · exact old
  | release caller addr =>
    simp only [step] at counted ⊢
    split at counted
    · rw [if_pos ‹_›]
      refine ⟨counted, accessed.mapEntries fun e old => ?_, clock⟩
      split <;> exact old
    · rw [if_neg ‹_›]
      exact timed
  | insert key doc opts alloc => exact ⟨counted, accessed.insert clock, clock⟩
  | expireEntry key =>
    refine ⟨counted, ?_, clock⟩
    simp only [step, cacheExpireEntry]
    split
    · exact accessed
    · apply accessed.mapEntries
      intro e old
      split <;> exact old
  | invalidateByTag tag =>
    refine ⟨counted, ?_, clock⟩
    simp only [step, cacheInvalidateByTag]
    split
    · exact accessed
    · apply accessed.mapEntries
      intro e old
      split <;> exact old
  | evictExpired => exact ⟨counted, accessed.shrink (cacheEvictExpired_shrinks s.now), clock⟩
  | evictLru =>
    simp only [step, accessed.evictLru]
    exact timed
  | reinit => exact ⟨counted, accessed.shrink (Cache.unlinks_shrinks _), clock⟩
  | tick seconds => exact ⟨counted, accessed, by simp only [step]; omega⟩

omit [DecidableEq C] in
theorem Timed.insert_iff {s : Lending C Doc} (timed : s.Timed) (key : CString) (doc : Doc)
    (opts : Option (CacheEntryOpts Doc)) (alloc : AllocOutcome) :
    s.KeepsLimits (.insert key doc opts alloc) ↔ s.HasRoom (.insert key doc opts alloc) := by
  simp only [KeepsLimits, HasRoom, evictionsOfInsert]
  cases applies : InsertApplies s.cache key with
  | false => simp [cacheInsert_skips applies]
  | true =>
    have smaller := @Cache.without_shrinks _ s.cache key
    have base : (s.cache.without key).Accessed := timed.accessed.shrink smaller
    have counted := timed.counted.without key
    have limits : (s.cache.without key).maxEntries = s.cache.maxEntries ∧
        (s.cache.without key).maxMemoryBytes = s.cache.maxMemoryBytes ∧
        (s.cache.without key).docBytes = s.cache.docBytes := by
      rw [Cache.without]
      split <;> exact ⟨rfl, rfl, rfl⟩
    obtain ⟨maxEntries, maxMemoryBytes, docBytes⟩ := limits
    have estimated : (s.cache.without key).estimated key doc = s.cache.estimated key doc := by
      rw [Cache.estimated, Cache.estimated, docBytes]
    have bytes : (s.cache.without key).newEntryBytes key doc opts alloc =
        s.cache.newEntryBytes key doc opts alloc := by
      simp only [Cache.newEntryBytes, entryMemorySize, docBytes]
    simp only [if_true, counted.evictionsToLimits_iff base, cacheInsert_applies applies, estimated,
      maxEntries, maxMemoryBytes]
    cases outcome : alloc.entry with
    | false =>
      rw [cacheInsert_link_unmade _ outcome]
      simp
    | true =>
      obtain ⟨entry, after, linked, allocated, holds, count, afterEntries, memory, afterMemory, -⟩ :=
        @cacheInsert_link_made _ _ key doc opts s.now alloc (s.cache.effectiveTtl opts) outcome _
          (base.evictToLimits _)
      have entryKey := (allocEntry_fields allocated).1
      have others : (∀ e, after.Holds e → e.normalizedSql ≠ key → evictable e = false) ↔
          (s.cache.without key).NoneEvictable := by
        constructor
        · intro busy e held
          exact busy e ((holds e).mpr (.inr held)) (timed.counted.without_absent held)
        · intro busy e held other
          rcases (holds e).mp held with rfl | old
          · exact absurd entryKey other
          · exact busy e old
      rw [linked, others, Cache.WithinLimits, count, afterEntries, memory, afterMemory, bytes,
        maxEntries, maxMemoryBytes]
      constructor
      · rintro ⟨limits, busy | room⟩
        · exact .inl busy
        · rcases limits rfl with within | busy
          · exact .inr ⟨room.1, room.2, fun _ => within.2⟩
          · exact .inl busy
      · rintro (busy | ⟨room, memory, fits⟩)
        · exact ⟨fun _ => .inr busy, .inl busy⟩
        · exact ⟨fun _ => .inl ⟨room, fits rfl⟩, .inr ⟨room, memory⟩⟩

omit [DecidableEq C] in
theorem keepsLimits_iff (s : Lending C Doc) (call : CacheCall C Doc) (timed : s.Timed) :
    s.KeepsLimits call ↔ s.HasRoom call := by
  cases call with
  | insert key doc opts alloc => exact timed.insert_iff key doc opts alloc
  | evictExpired =>
    have smaller : (sweepExpired s.cache s.now).Shrinks s.cache := Cache.unlinks_shrinks _
    have swept : (sweepExpired s.cache s.now).Counted :=
      timed.counted.unlinks (timed.counted.distinct.filter _)
        fun e member => Cache.holds_of_mem_entries (List.mem_filter.mp member).1
    have maxMemoryBytes : (sweepExpired s.cache s.now).maxMemoryBytes = s.cache.maxMemoryBytes :=
      Cache.unlinks_maxMemoryBytes _
    simp only [KeepsLimits, HasRoom, evictionsOfSweep,
      swept.evictionsWhile_iff (timed.accessed.shrink smaller), decide_eq_true_eq, maxMemoryBytes]
    rw [← not_lt, or_iff_not_imp_left, not_not]
  | evictLru =>
    simp only [KeepsLimits, HasRoom, timed.accessed.evictsLru_iff]
    rw [or_iff_not_imp_left]
  | _ => rfl

def entriesUpTo (maxEntries : Nat) : Lending Bool Nat :=
  start ⟨1, maxEntries, 0, 0, true⟩ List.length id 10

def storeA : CacheCall Bool Nat := .insert "A".toList 7 none ⟨true, true, true⟩

def storeB : CacheCall Bool Nat := .insert "B".toList 8 none ⟨true, true, true⟩

end Lending

end OciWrapper.Infra
