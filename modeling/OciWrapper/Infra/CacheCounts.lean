import OciWrapper.Infra.KeyedCache
import OciWrapper.Infra.Lending

namespace OciWrapper.Infra

open OciWrapper.Text

variable {Doc : Type} {cache : Cache Doc}

theorem roundUpPow2_power (buckets fuel k : Nat) : ∃ n, roundUpPow2 buckets fuel (2 ^ k) = 2 ^ n := by
  induction fuel generalizing k with
  | zero => exact ⟨k, rfl⟩
  | succ fuel ih =>
    rw [roundUpPow2]
    split
    · rw [← Nat.pow_succ']
      exact ih (k + 1)
    · exact ⟨k, rfl⟩

/-- The counters go with the chains, and the chains hold each entry once, in its bucket. -/
structure Cache.Counted (cache : Cache Doc) : Prop where
  keyed : cache.Keyed
  addressed : cache.Addressed
  sized : ∃ k, cache.bucketCount = 2 ^ k
  distinct : cache.entries.Nodup
  entryCount : cache.entryCount = cache.entries.length
  memory : cache.currentMemoryBytes = (cache.entries.map (·.entryMemoryBytes)).sum

theorem Cache.Keyed.mem_entries (keyed : cache.Keyed) (sized : 0 < cache.bucketCount)
    {e : CacheEntry Doc} (held : cache.Holds e) : e ∈ cache.entries := by
  obtain ⟨b, member⟩ := held
  refine List.mem_flatMap.mpr ⟨b, List.mem_range.mpr ?_, member⟩
  rw [keyed.placed b e member]
  exact Nat.mod_lt _ sized

theorem Cache.Counted.bucketCount_pos (counted : cache.Counted) : 0 < cache.bucketCount := by
  obtain ⟨k, size⟩ := counted.sized
  rw [size]
  exact Nat.two_pow_pos k

theorem Cache.Counted.mem_entries (counted : cache.Counted) {e : CacheEntry Doc}
    (held : cache.Holds e) : e ∈ cache.entries :=
  counted.keyed.mem_entries counted.bucketCount_pos held

theorem cacheCreate_counted (cfg : CacheConfig) (hash : CString → Nat) (docBytes : Doc → Nat) :
    (cacheCreate cfg hash docBytes).Counted := by
  have empty := cacheCreate_empty cfg hash docBytes
  have none : (cacheCreate cfg hash docBytes).entries = [] :=
    List.flatMap_eq_nil_iff.mpr fun _ _ => rfl
  refine ⟨cacheCreate_keyed cfg hash docBytes, ⟨fun e held => absurd held (empty e),
    fun e o held => absurd held (empty e)⟩, ?_, ?_, ?_, ?_⟩
  · exact roundUpPow2_power _ _ 0
  · rw [none]
    exact List.nodup_nil
  · rw [none]
    rfl
  · rw [none]
    rfl

theorem Cache.entries_mapEntries (f : CacheEntry Doc → CacheEntry Doc) :
    (cache.mapEntries f).entries = cache.entries.map f := by
  simp only [entries, mapEntries, List.map_flatMap]

theorem Cache.Counted.mapEntries (counted : cache.Counted) {f : CacheEntry Doc → CacheEntry Doc}
    (addr : ∀ e, (f e).addr = e.addr) (key : ∀ e, (f e).normalizedSql = e.normalizedSql)
    (bytes : ∀ e, (f e).entryMemoryBytes = e.entryMemoryBytes) : (cache.mapEntries f).Counted := by
  refine ⟨counted.keyed.mapEntries key, counted.addressed.mapEntries addr, counted.sized, ?_, ?_, ?_⟩
  · rw [Cache.entries_mapEntries]
    apply counted.distinct.map_on
    intro e member o other same
    apply counted.addressed.one e o (Cache.holds_of_mem_entries member)
      (Cache.holds_of_mem_entries other)
    rw [← addr e, ← addr o, same]
  · rw [Cache.entries_mapEntries, List.length_map]
    exact counted.entryCount
  · rw [Cache.entries_mapEntries, List.map_map]
    have same : (fun e : CacheEntry Doc => e.entryMemoryBytes) ∘ f = fun e => e.entryMemoryBytes :=
      funext bytes
    rw [same]
    exact counted.memory

theorem Cache.entries_unlink (victim : CacheEntry Doc) :
    (cache.unlink victim).entries = cache.entries.filter (·.addr != victim.addr) := by
  simp only [entries, unlink, List.filter_flatMap]

/-- What is taken out of a list once. -/
theorem perm_cons_filter {α : Type} {l : List α} {p : α → Bool} {a : α} (distinct : l.Nodup)
    (member : a ∈ l) (only : ∀ b ∈ l, p b = false ↔ b = a) : l.Perm (a :: l.filter p) := by
  apply (List.perm_ext_iff_of_nodup distinct ?_).mpr
  · intro b
    rw [List.mem_cons, List.mem_filter]
    constructor
    · intro inside
      by_cases same : b = a
      · exact .inl same
      · exact .inr ⟨inside, (Bool.not_eq_false _).mp fun out => same ((only b inside).mp out)⟩
    · rintro (rfl | ⟨inside, -⟩)
      · exact member
      · exact inside
  · refine List.nodup_cons.mpr ⟨?_, distinct.filter p⟩
    intro inside
    obtain ⟨-, kept⟩ := List.mem_filter.mp inside
    rw [(only a member).mpr rfl] at kept
    cases kept

theorem Cache.Counted.perm_unlink (counted : cache.Counted) {victim : CacheEntry Doc}
    (held : cache.Holds victim) :
    cache.entries.Perm (victim :: (cache.unlink victim).entries) := by
  rw [Cache.entries_unlink]
  apply perm_cons_filter counted.distinct (counted.mem_entries held)
  intro e member
  rw [bne_eq_false_iff_eq]
  constructor
  · exact counted.addressed.one e victim (Cache.holds_of_mem_entries member) held
  · rintro rfl
    rfl

/-- Unlinking an entry subtracts what the counters hold of it. -/
theorem Cache.Counted.holds_le (counted : cache.Counted) {victim : CacheEntry Doc}
    (held : cache.Holds victim) :
    0 < cache.entryCount ∧ victim.entryMemoryBytes ≤ cache.currentMemoryBytes := by
  have split := counted.perm_unlink held
  rw [counted.entryCount, counted.memory, split.length_eq, (split.map _).sum_eq]
  simp

theorem Cache.Counted.unlink (counted : cache.Counted) {victim : CacheEntry Doc}
    (held : cache.Holds victim) : (cache.unlink victim).Counted := by
  have split := counted.perm_unlink held
  refine ⟨counted.keyed.shrink (Cache.unlink_shrinks victim), counted.addressed.unlink victim,
    counted.sized, ?_, ?_, ?_⟩
  · rw [Cache.entries_unlink]
    exact counted.distinct.filter _
  · have length := split.length_eq
    rw [← counted.entryCount, List.length_cons] at length
    rw [Cache.unlink, length]
    rfl
  · have sum := (split.map (·.entryMemoryBytes)).sum_eq
    rw [← counted.memory, List.map_cons, List.sum_cons] at sum
    rw [Cache.unlink, sum]
    simp only [Nat.add_sub_cancel_left]
    rfl

theorem Cache.Counted.unlinks (counted : cache.Counted) {victims : List (CacheEntry Doc)}
    (distinct : victims.Nodup) (held : ∀ victim ∈ victims, cache.Holds victim) :
    (victims.foldl Cache.unlink cache).Counted := by
  induction victims generalizing cache with
  | nil => exact counted
  | cons victim victims ih =>
    obtain ⟨fresh, distinct⟩ := List.nodup_cons.mp distinct
    have first := held victim List.mem_cons_self
    apply ih (counted.unlink first) distinct
    intro other member
    have heldOther := held other (List.mem_cons_of_mem victim member)
    refine (Cache.holds_unlink victim other).mpr ⟨heldOther, fun same => fresh ?_⟩
    rwa [← counted.addressed.one other victim heldOther first same]

theorem Cache.Counted.evictLru (counted : cache.Counted) {smaller : Cache Doc}
    (evicted : evictLruUnderLock cache = some smaller) : smaller.Counted := by
  rw [evictLruUnderLock, Option.map_eq_some_iff] at evicted
  obtain ⟨victim, found, rfl⟩ := evicted
  exact counted.unlink (Cache.holds_of_mem_entries (lruVictim_evictable found).1)

theorem Cache.Counted.evictWhile (counted : cache.Counted) (exceeds : Cache Doc → Bool)
    (fuel : Nat) : (evictWhile exceeds fuel cache).Counted := by
  induction fuel generalizing cache with
  | zero => exact counted
  | succ fuel ih =>
    rw [Infra.evictWhile]
    split
    · cases evicted : evictLruUnderLock cache with
      | none => exact counted
      | some smaller => exact ih (counted.evictLru evicted)
    · exact counted

theorem Cache.Counted.evictExpired (counted : cache.Counted) (now : Int) :
    (cacheEvictExpired cache now).Counted := by
  have swept : ((cache.entries.filter (fun e => e.expired now && evictable e)).foldl Cache.unlink
      cache).Counted := by
    apply counted.unlinks (counted.distinct.filter _)
    exact fun victim member => Cache.holds_of_mem_entries (List.mem_filter.mp member).1
  exact swept.evictWhile _ _

theorem Cache.Counted.reinit (counted : cache.Counted) : ( cacheReinitialize cache).Counted := by
  apply counted.unlinks (counted.distinct.filter _)
  exact fun victim member => Cache.holds_of_mem_entries (List.mem_filter.mp member).1

theorem perm_flatMap_cons {α : Type} {l : List Nat} {f : Nat → List α} {b : Nat} (a : α)
    (distinct : l.Nodup) (member : b ∈ l) :
    (l.flatMap fun i => if i = b then a :: f b else f i).Perm (a :: l.flatMap f) := by
  induction l with
  | nil => cases member
  | cons i l ih =>
    obtain ⟨fresh, distinct⟩ := List.nodup_cons.mp distinct
    rw [List.flatMap_cons, List.flatMap_cons]
    by_cases here : i = b
    · subst here
      have rest : (l.flatMap fun j => if j = i then a :: f i else f j) = l.flatMap f := by
        apply List.flatMap_congr
        intro j inside
        rw [if_neg]
        rintro rfl
        exact fresh inside
      rw [if_pos rfl, rest, List.cons_append]
    · rw [if_neg here]
      have later : b ∈ l := (List.mem_cons.mp member).resolve_left (Ne.symm here)
      exact ((ih distinct later).append_left (f i)).trans List.perm_middle

theorem allocEntry_addr {key : CString} {doc : Doc} {ttl now : Int}
    {opts : Option (CacheEntryOpts Doc)} {alloc : AllocOutcome} {entry : CacheEntry Doc}
    (made : allocEntry cache key doc ttl now opts alloc = some entry) :
    entry.addr = cache.nextAddr := by
  unfold allocEntry at made
  split at made
  · cases made
    rfl
  · cases made

section Insertion

variable {key : CString} {doc : Doc} {opts : Option (CacheEntryOpts Doc)} {now : Int}
  {alloc : AllocOutcome}

theorem Cache.Counted.link (counted : cache.Counted)
    (absent : ∀ e, cache.Holds e → e.normalizedSql ≠ key) (ttl : Int) :
    (cacheInsert.link key doc opts now alloc cache (cache.bucketOf key) ttl).1.Counted := by
  have keyed : (cacheInsert.link key doc opts now alloc cache (cache.bucketOf key) ttl).1.Keyed :=
    cacheInsert_link_keyed counted.keyed absent ttl
  have addressed := (counted.addressed.link key doc opts now alloc (cache.bucketOf key) ttl).1
  have roomy : (evictToLimits cache
      (sizeofCacheEntry + key.length + 1 + cache.docBytes doc + 1)).Counted :=
    (counted.evictWhile _ _).evictWhile _ _
  have smaller : (evictToLimits cache
      (sizeofCacheEntry + key.length + 1 + cache.docBytes doc + 1)).Shrinks cache :=
    evictToLimits_shrinks _
  simp only [cacheInsert.link] at keyed addressed ⊢
  generalize evictToLimits cache
    (sizeofCacheEntry + key.length + 1 + cache.docBytes doc + 1) = room at *
  cases made : allocEntry room key doc ttl now opts alloc with
  | none => exact roomy
  | some entry =>
    simp only [made] at keyed addressed ⊢
    have inRange : cache.bucketOf key ∈ List.range room.bucketCount := by
      rw [← smaller.bucketOf key]
      exact List.mem_range.mpr (Nat.mod_lt _ roomy.bucketCount_pos)
    have split := perm_flatMap_cons (f := room.buckets) entry List.nodup_range inRange
    have fresh : entry ∉ room.entries := by
      intro member
      have used := roomy.addressed.fresh entry (Cache.holds_of_mem_entries member)
      rw [allocEntry_addr made] at used
      exact Nat.lt_irrefl _ used
    refine ⟨keyed, addressed, roomy.sized, ?_, ?_, ?_⟩
    · exact split.nodup_iff.mpr (List.nodup_cons.mpr ⟨fresh, roomy.distinct⟩)
    · have length := split.length_eq
      rw [List.length_cons] at length
      dsimp only
      rw [roomy.entryCount]
      exact length.symm
    · have sum := (split.map (·.entryMemoryBytes)).sum_eq
      rw [List.map_cons, List.sum_cons, Nat.add_comm] at sum
      dsimp only
      rw [roomy.memory]
      exact sum.symm

theorem Cache.Counted.insert (counted : cache.Counted) :
    (cacheInsert cache key doc opts now alloc).1.Counted := by
  simp only [cacheInsert]
  split
  · exact counted
  split
  next cur found =>
    have held : cache.Holds cur := ⟨_, List.mem_of_find?_eq_some found⟩
    split
    · exact counted
    · apply (counted.unlink held).link
      intro e after same
      obtain ⟨before, other⟩ := (Cache.holds_unlink cur e).mp after
      subst same
      rw [counted.keyed.find before] at found
      cases found
      exact other rfl
  next absent =>
    apply counted.link
    exact fun e held => Cache.find_none counted.keyed absent held

end Insertion

theorem Cache.Counted.lookup (counted : cache.Counted) (key : CString) (now : Int) :
    (cacheLookup cache key now).1.Counted := by
  simp only [cacheLookup]
  split
  · exact counted
  split
  · exact counted
  split
  · exact counted
  · apply counted.mapEntries <;> intro e <;> split <;> rfl

theorem Cache.Counted.release (counted : cache.Counted) (addr : Nat) :
    (cacheRelease cache addr).Counted := by
  apply counted.mapEntries <;> intro e <;> split <;> rfl

theorem Cache.Counted.expireEntry (counted : cache.Counted) (key : CString) (now : Int) :
    (cacheExpireEntry cache key now).1.Counted := by
  simp only [cacheExpireEntry]
  split
  · exact counted
  · apply counted.mapEntries <;> intro e <;> split <;> rfl

theorem Cache.Counted.invalidateByTag (counted : cache.Counted) (tag : CString) (now : Int) :
    (cacheInvalidateByTag cache tag now).Counted := by
  simp only [cacheInvalidateByTag]
  split
  · exact counted
  · apply counted.mapEntries <;> intro e <;> split <;> rfl

/-- What the two counters and the chains of a cache say about each other. -/
structure Cache.Represented (cache : Cache Doc) : Prop where
  entryCount : cache.entryCount = cache.entries.length
  memory : cache.currentMemoryBytes = (cache.entries.map (·.entryMemoryBytes)).sum
  noUnderflow : ∀ e ∈ cache.entries,
    1 ≤ cache.entryCount ∧ e.entryMemoryBytes ≤ cache.currentMemoryBytes
  placed : ∀ b, ∀ e ∈ cache.buckets b,
    b < cache.bucketCount ∧ b = cache.hash e.normalizedSql &&& (cache.bucketCount - 1)
  distinctKeys : (cache.entries.map (·.normalizedSql)).Nodup

theorem Cache.Counted.represented (counted : cache.Counted) : cache.Represented := by
  refine ⟨counted.entryCount, counted.memory, ?_, ?_, ?_⟩
  · exact fun e member => counted.holds_le (Cache.holds_of_mem_entries member)
  · intro b e member
    have placed := counted.keyed.placed b e member
    have small := Nat.mod_lt (cache.hash e.normalizedSql) counted.bucketCount_pos
    obtain ⟨k, size⟩ := counted.sized
    rw [Cache.bucketOf] at placed
    refine ⟨placed ▸ small, ?_⟩
    rw [placed, size, Nat.and_two_pow_sub_one_eq_mod]
  · apply counted.distinct.map_on
    intro e member o other same
    exact counted.keyed.one e o (Cache.holds_of_mem_entries member)
      (Cache.holds_of_mem_entries other) same

namespace Lending

variable {C : Type} [DecidableEq C]

theorem step_counted (s : Lending C Doc) (call : CacheCall C Doc) (counted : s.cache.Counted) :
    (s.step call).cache.Counted := by
  cases call with
  | lookup caller key => exact counted.lookup key s.now
  | release caller addr =>
    simp only [step]
    split
    · exact counted.release addr
    · exact counted
  | insert key doc opts alloc => exact counted.insert
  | expireEntry key => exact counted.expireEntry key s.now
  | invalidateByTag tag => exact counted.invalidateByTag tag s.now
  | evictExpired => exact counted.evictExpired s.now
  | evictLru =>
    simp only [step]
    cases evicted : evictLruUnderLock s.cache with
    | none => exact counted
    | some smaller => exact counted.evictLru evicted
  | reinit => exact counted.reinit
  | tick seconds => exact counted

theorem run_counted (s : Lending C Doc) (counted : s.cache.Counted) (calls : List (CacheCall C Doc)) :
    (calls.foldl step s).cache.Counted := by
  induction calls generalizing s with
  | nil => exact counted
  | cons call calls ih => exact ih (s.step call) (step_counted s call counted)

end Lending

end OciWrapper.Infra
