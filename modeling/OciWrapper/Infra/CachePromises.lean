import OciWrapper.Infra.CacheLimits

namespace OciWrapper.Infra

open OciWrapper.Concurrent
open OciWrapper.Text

variable {C Doc : Type}

/-- What an insertion that returned 0 has put under its key, and until when. -/
structure Promise (Doc : Type) where
  outputDocument : Doc
  outputDocumentJson : Option Doc
  tableDependencyTag : Option CString
  expiryTs : Int

def Promise.expired (now : Int) (p : Promise Doc) : Bool :=
  decide (0 < p.expiryTs) && decide (p.expiryTs ≤ now)

/-- The entry is what was promised. -/
structure Promise.KeptBy (p : Promise Doc) (e : CacheEntry Doc) : Prop where
  outputDocument : e.outputDocument = p.outputDocument
  outputDocumentJson : e.outputDocumentJson = p.outputDocumentJson
  tableDependencyTag : e.tableDependencyTag = p.tableDependencyTag
  expiryTs : e.expiryTs = p.expiryTs

/-- The promises of the insertions so far: none where the key was never inserted, or has
    been expired or invalidated since; and the keys whose entry was evicted or swept. -/
structure Promises (C Doc : Type) where
  lending : Lending C Doc
  promise : CString → Option (Promise Doc)
  evicted : CString → Bool

namespace Promises

def start (cfg : CacheConfig) (hash : CString → Nat) (docBytes : Doc → Nat) (now : Int) :
    Promises C Doc :=
  ⟨Lending.start cfg hash docBytes now, fun _ => none, fun _ => false⟩

def promised (s : Promises C Doc) (doc : Doc) (opts : Option (CacheEntryOpts Doc)) : Promise Doc :=
  let ttl := s.lending.cache.effectiveTtl opts
  { outputDocument := doc
    outputDocumentJson := opts.bind (·.outputDocumentJson)
    tableDependencyTag := opts.bind (·.tableDependencyTag)
    expiryTs := if 0 < ttl then s.lending.now + ttl else 0 }

/-- The keys that have lost their entry to the call. -/
def evictedBy (s : Promises C Doc) (after : Cache Doc) (key : CString) : Bool :=
  s.evicted key || ((s.lending.cache.under key).isSome && (after.under key).isNone)

def step [DecidableEq C] (s : Promises C Doc) (call : CacheCall C Doc) : Promises C Doc :=
  let after := s.lending.step call
  match call with
  | .insert key doc opts alloc =>
    if (cacheInsert s.lending.cache key doc opts s.lending.now alloc).2 then
      { lending := after
        promise := Function.update s.promise key (some (s.promised doc opts))
        evicted := Function.update (s.evictedBy after.cache) key false }
    else
      { s with
        lending := after
        evicted := Function.update (s.evictedBy after.cache) key (s.evicted key) }
  | .expireEntry key =>
    { s with lending := after, promise := Function.update s.promise key none }
  | .invalidateByTag tag =>
    { s with
      lending := after
      promise := fun key => (s.promise key).filter fun p =>
        !(tag != [] && p.tableDependencyTag.any fun text => contains text tag) }
  | .evictExpired | .evictLru | .reinit =>
    { s with lending := after, evicted := s.evictedBy after.cache }
  | _ => { s with lending := after }

/-- A lookup serves what was promised, and misses only what was not, or is not any more. -/
def Faithful (s : Promises C Doc) : Prop :=
  ∀ key, match (cacheLookup s.lending.cache key s.lending.now).2 with
    | some hit => ∃ p, s.promise key = some p ∧ p.KeptBy hit ∧ p.expired s.lending.now = false
    | none => ∀ p, s.promise key = some p →
      p.expired s.lending.now = true ∨ s.evicted key = true

/-- The insertion puts in what it is given, or finds nothing to replace when it fails. -/
def Applied (s : Promises C Doc) : CacheCall C Doc → Prop
  | .insert key _ opts alloc =>
    InsertApplies s.lending.cache key = true ∧
      if alloc.entry then
        (alloc.json = true ∨ opts.bind (·.outputDocumentJson) = none) ∧
          (alloc.tag = true ∨ opts.bind (·.tableDependencyTag) = none)
      else ∀ e ∈ s.lending.cache.under key, e.expired s.lending.now = true
  | _ => True

/-- Every live entry is promised, and every promise that has not expired and was not evicted
    has its entry. -/
structure Kept (s : Promises C Doc) : Prop where
  counted : s.lending.cache.Counted
  clock : 1 < s.lending.now
  enabled : ∀ key, (s.promise key).isSome → s.lending.cache.enabled = true
  lives : ∀ e, s.lending.cache.Holds e → e.expired s.lending.now = false →
    ∃ p, s.promise e.normalizedSql = some p ∧ p.KeptBy e
  kept : ∀ key p, s.promise key = some p → p.expired s.lending.now = false →
    s.evicted key = false →
    ∃ e, s.lending.cache.Holds e ∧ e.normalizedSql = key ∧ e.expired s.lending.now = false

end Promises

section Entries

variable {cache : Cache Doc}

theorem Cache.Counted.under_iff (counted : cache.Counted) {key : CString} {e : CacheEntry Doc} :
    cache.under key = some e ↔ cache.Holds e ∧ e.normalizedSql = key := by
  constructor
  · intro found
    have same : e.normalizedSql = key := by
      simpa [CacheEntry.matches] using List.find?_some found
    exact ⟨⟨_, List.mem_of_find?_eq_some found⟩, same⟩
  · rintro ⟨held, rfl⟩
    exact counted.keyed.find held

/-- The two entries cache the same, for as long. -/
structure CacheEntry.Alike (e o : CacheEntry Doc) : Prop where
  normalizedSql : e.normalizedSql = o.normalizedSql
  outputDocument : e.outputDocument = o.outputDocument
  outputDocumentJson : e.outputDocumentJson = o.outputDocumentJson
  tableDependencyTag : e.tableDependencyTag = o.tableDependencyTag
  expiryTs : e.expiryTs = o.expiryTs

theorem CacheEntry.Alike.refl (e : CacheEntry Doc) : e.Alike e := ⟨rfl, rfl, rfl, rfl, rfl⟩

theorem CacheEntry.Alike.expired {e o : CacheEntry Doc} (alike : e.Alike o) (now : Int) :
    e.expired now = o.expired now := by
  rw [CacheEntry.expired, CacheEntry.expired, alike.expiryTs]

theorem CacheEntry.Alike.keptBy {e o : CacheEntry Doc} (alike : e.Alike o) {p : Promise Doc} :
    p.KeptBy e ↔ p.KeptBy o := by
  constructor
  · intro kept
    exact ⟨alike.outputDocument ▸ kept.outputDocument,
      alike.outputDocumentJson ▸ kept.outputDocumentJson,
      alike.tableDependencyTag ▸ kept.tableDependencyTag, alike.expiryTs ▸ kept.expiryTs⟩
  · intro kept
    exact ⟨alike.outputDocument.trans kept.outputDocument,
      alike.outputDocumentJson.trans kept.outputDocumentJson,
      alike.tableDependencyTag.trans kept.tableDependencyTag,
      alike.expiryTs.trans kept.expiryTs⟩

theorem Promise.KeptBy.expired {p : Promise Doc} {e : CacheEntry Doc} (kept : p.KeptBy e)
    (now : Int) : p.expired now = e.expired now := by
  rw [Promise.expired, CacheEntry.expired, kept.expiryTs]

/-- What a lookup finds is the entry of its key. -/
theorem Cache.Counted.lookup_eq (counted : cache.Counted) (enabled : cache.enabled = true)
    (key : CString) (now : Int) :
    (∀ hit, (cacheLookup cache key now).2 = some hit →
      ∃ e, cache.Holds e ∧ e.normalizedSql = key ∧ e.expired now = false ∧ hit.Alike e) ∧
    ((cacheLookup cache key now).2 = none →
      ∀ e, cache.Holds e → e.normalizedSql = key → e.expired now = true) := by
  have found := @Cache.Counted.under_iff _ _ counted key
  simp only [cacheLookup, enabled, Bool.not_true, Bool.false_eq_true, if_false]
  rw [← Cache.under]
  cases under : cache.under key with
  | none =>
    constructor
    · intro hit served
      cases served
    · intro _ e held same
      rw [found.mpr ⟨held, same⟩] at under
      cases under
  | some cur =>
    obtain ⟨held, same⟩ := found.mp under
    dsimp only
    split
    · rename_i dead
      constructor
      · intro hit served
        cases served
      · intro _ e heldOther sameOther
        rw [counted.keyed.one e cur heldOther held (sameOther.trans same.symm)]
        exact dead
    · rename_i live
      constructor
      · intro hit served
        cases served
        exact ⟨cur, held, same, Bool.eq_false_iff.mpr live, ⟨rfl, rfl, rfl, rfl, rfl⟩⟩
      · intro missed
        cases missed

end Entries

namespace Promises

variable {s : Promises C Doc}

theorem Kept.faithful (kept : s.Kept) : s.Faithful := by
  intro key
  cases promised : s.promise key with
  | none =>
    cases served : (cacheLookup s.lending.cache key s.lending.now).2 with
    | none => exact fun p none => (nomatch none)
    | some hit =>
      obtain ⟨e, held, same, live, -⟩ := cacheLookup_hit served
      obtain ⟨p, promise, -⟩ := kept.lives e held live
      rw [same, promised] at promise
      cases promise
  | some p =>
    have enabled := kept.enabled key (by rw [promised]; rfl)
    obtain ⟨hits, misses⟩ := kept.counted.lookup_eq enabled key s.lending.now
    cases served : (cacheLookup s.lending.cache key s.lending.now).2 with
    | none =>
      intro q same
      cases same
      by_contra neither
      rw [not_or, Bool.not_eq_true, Bool.not_eq_true] at neither
      obtain ⟨e, held, same, live⟩ := kept.kept key p promised neither.1 neither.2
      rw [misses served e held same] at live
      cases live
    | some hit =>
      obtain ⟨e, held, same, live, alike⟩ := hits hit served
      obtain ⟨q, promise, keeps⟩ := kept.lives e held live
      rw [same, promised] at promise
      cases promise
      refine ⟨p, rfl, alike.keptBy.mpr keeps, ?_⟩
      rw [keeps.expired, live]

theorem start_kept (cfg : CacheConfig) (hash : CString → Nat) (docBytes : Doc → Nat) {now : Int}
    (clock : 1 < now) : (start cfg hash docBytes now : Promises C Doc).Kept := by
  have empty := cacheCreate_empty cfg hash docBytes
  exact ⟨cacheCreate_counted cfg hash docBytes, clock, fun key none => (nomatch none),
    fun e held => absurd held (empty e), fun key p none => (nomatch none)⟩

/-- Marks that a lookup or a release sets on the entries. -/
theorem Kept.mark (kept : s.Kept) {lending : Lending C Doc}
    {f : CacheEntry Doc → CacheEntry Doc} (alike : ∀ e, (f e).Alike e)
    (counted : lending.cache.Counted) (now : lending.now = s.lending.now)
    (enabled : lending.cache.enabled = s.lending.cache.enabled)
    (holds : ∀ e, lending.cache.Holds e ↔ ∃ o, s.lending.cache.Holds o ∧ f o = e) :
    Kept { s with lending } := by
  constructor
  · exact counted
  · exact now ▸ kept.clock
  · exact fun key some => enabled.trans (kept.enabled key some)
  · intro e held live
    obtain ⟨o, old, rfl⟩ := (holds e).mp held
    rw [now, (alike o).expired] at live
    obtain ⟨p, promise, keeps⟩ := kept.lives o old live
    refine ⟨p, ?_, (alike o).keptBy.mpr keeps⟩
    rw [(alike o).normalizedSql]
    exact promise
  · intro key p promise live notEvicted
    rw [now] at live ⊢
    obtain ⟨o, old, same, alive⟩ := kept.kept key p promise live notEvicted
    refine ⟨f o, (holds _).mpr ⟨o, old, rfl⟩, (alike o).normalizedSql.trans same, ?_⟩
    rw [(alike o).expired]
    exact alive

/-- Entries that are marked expired, with what becomes of their promises. -/
theorem Kept.expire (kept : s.Kept) {lending : Lending C Doc}
    {promise : CString → Option (Promise Doc)} (dead : CacheEntry Doc → Bool)
    (counted : lending.cache.Counted) (now : lending.now = s.lending.now)
    (enabled : lending.cache.enabled = s.lending.cache.enabled)
    (holds : ∀ e, lending.cache.Holds e ↔ ∃ o, s.lending.cache.Holds o ∧
      (if dead o then { o with expiryTs := pastTs s.lending.now } else o) = e)
    (fewer : ∀ key p, promise key = some p → s.promise key = some p)
    (spared : ∀ e, s.lending.cache.Holds e → e.expired s.lending.now = false → dead e = false →
      promise e.normalizedSql = s.promise e.normalizedSql)
    (gone : ∀ e, s.lending.cache.Holds e → e.expired s.lending.now = false → dead e = true →
      promise e.normalizedSql = none) :
    Kept { s with lending, promise } := by
  constructor
  · exact counted
  · exact now ▸ kept.clock
  · intro key isSome
    obtain ⟨p, some⟩ := Option.isSome_iff_exists.mp isSome
    exact enabled.trans (kept.enabled key (by rw [fewer key p some]; rfl))
  · intro e held live
    obtain ⟨o, old, same⟩ := (holds e).mp held
    rw [now] at live
    cases marked : dead o with
    | true =>
      rw [marked, if_pos rfl] at same
      have past := pastTs_expired kept.clock
      rw [← same] at live
      simp only [CacheEntry.expired, Bool.and_eq_false_iff, decide_eq_false_iff_not] at live
      omega
    | false =>
      simp only [marked, Bool.false_eq_true, if_false] at same
      subst same
      obtain ⟨p, promised, keeps⟩ := kept.lives o old live
      exact ⟨p, (spared o old live marked).trans promised, keeps⟩
  · intro key p promised live notEvicted
    rw [now] at live ⊢
    obtain ⟨o, old, same, alive⟩ := kept.kept key p (fewer key p promised) live notEvicted
    subst same
    have unmarked : dead o = false := by
      cases marked : dead o with
      | false => rfl
      | true => cases (gone o old alive marked).symm.trans promised
    refine ⟨o, (holds o).mpr ⟨o, old, ?_⟩, rfl, alive⟩
    simp only [unmarked, Bool.false_eq_true, if_false]

theorem evictedBy_false {after : Cache Doc} (counted : s.lending.cache.Counted)
    (countedAfter : after.Counted) {key : CString} (spared : s.evictedBy after key = false)
    {e : CacheEntry Doc} (held : s.lending.cache.Holds e) (same : e.normalizedSql = key) :
    s.evicted key = false ∧ ∃ o, after.Holds o ∧ o.normalizedSql = key := by
  rw [evictedBy, Bool.or_eq_false_iff] at spared
  refine ⟨spared.1, ?_⟩
  rw [counted.under_iff.mpr ⟨held, same⟩] at spared
  cases found : after.under key with
  | none =>
    rw [found] at spared
    simp at spared
  | some o => exact ⟨o, countedAfter.under_iff.mp found⟩

/-- Entries that are unlinked, with what becomes of the keys that lose them. -/
theorem Kept.shrink (kept : s.Kept) {lending : Lending C Doc}
    (counted : lending.cache.Counted) (now : lending.now = s.lending.now)
    (smaller : lending.cache.Shrinks s.lending.cache) :
    Kept { s with lending, evicted := s.evictedBy lending.cache } := by
  constructor
  · exact counted
  · exact now ▸ kept.clock
  · exact fun key promised => smaller.enabled.trans (kept.enabled key promised)
  · intro e held live
    rw [now] at live
    exact kept.lives e (smaller.holds held) live
  · intro key p promised live spared
    rw [now] at live ⊢
    have notEvicted : s.evicted key = false := (Bool.or_eq_false_iff.mp spared).1
    obtain ⟨e, held, same, alive⟩ := kept.kept key p promised live notEvicted
    obtain ⟨-, o, after, sameAfter⟩ := evictedBy_false kept.counted counted spared held same
    have one := kept.counted.keyed.one o e (smaller.holds after) held (sameAfter.trans same.symm)
    exact ⟨o, after, sameAfter, one ▸ alive⟩

section Insertion

variable [DecidableEq C] {key : CString} {doc : Doc} {opts : Option (CacheEntryOpts Doc)}
  {alloc : AllocOutcome}

/-- An insertion that fails had nothing to lose under its key. -/
theorem Kept.insertFails (kept : s.Kept) (applied : s.Applied (.insert key doc opts alloc))
    (unmade : alloc.entry = false) : (s.step (.insert key doc opts alloc)).Kept := by
  obtain ⟨applies, absent⟩ := applied
  have counted := s.lending.step_counted (.insert key doc opts alloc) kept.counted
  have result := @cacheInsert_applies _ _ key doc opts s.lending.now alloc applies
  rw [cacheInsert_link_unmade _ unmade] at result
  simp only [unmade, Bool.false_eq_true, if_false] at absent
  have smaller : (s.lending.step (.insert key doc opts alloc)).cache.Shrinks s.lending.cache := by
    simp only [Lending.step, result]
    exact (evictToLimits_shrinks _).trans (Cache.without_shrinks key)
  have shrunk := kept.shrink counted rfl smaller
  have next : s.step (.insert key doc opts alloc) =
      { s with
        lending := s.lending.step (.insert key doc opts alloc)
        evicted := Function.update (s.evictedBy (s.lending.step (.insert key doc opts alloc)).cache)
          key (s.evicted key) } := by
    simp only [step, result, Bool.false_eq_true, if_false]
  rw [next]
  refine ⟨shrunk.counted, shrunk.clock, shrunk.enabled, shrunk.lives, ?_⟩
  intro other p promised live spared
  by_cases own : other = key
  · subst own
    have notEvicted : s.evicted other = false := by simpa using spared
    obtain ⟨e, held, same, alive⟩ := kept.kept other p promised live notEvicted
    rw [absent e (kept.counted.under_iff.mpr ⟨held, same⟩)] at alive
    cases alive
  · apply shrunk.kept other p promised live
    simpa [own] using spared

/-- An insertion that succeeds links in what it promises. -/
theorem Kept.insertMade (kept : s.Kept) (applied : s.Applied (.insert key doc opts alloc))
    (made : alloc.entry = true) : (s.step (.insert key doc opts alloc)).Kept := by
  obtain ⟨applies, whole⟩ := applied
  rw [if_pos made] at whole
  have counted := s.lending.step_counted (.insert key doc opts alloc) kept.counted
  have result := @cacheInsert_applies _ _ key doc opts s.lending.now alloc applies
  obtain ⟨entry, after, linked, allocated, holds, -, -, -, -, enabledAfter⟩ :=
    @cacheInsert_link_made _ (s.lending.cache.without key) key doc opts s.lending.now alloc
    (s.lending.cache.effectiveTtl opts) made _ rfl
  rw [linked] at result
  obtain ⟨entryKey, document, json, tag, -, expiry⟩ := allocEntry_fields allocated
  have room : ∀ e, (evictToLimits (s.lending.cache.without key)
      ((s.lending.cache.without key).estimated key doc)).Holds e →
      s.lending.cache.Holds e ∧ e.normalizedSql ≠ key := by
    intro e held
    have base := (evictToLimits_shrinks _).holds held
    exact ⟨(Cache.without_shrinks key).holds base, kept.counted.without_absent base⟩
  have next : s.step (.insert key doc opts alloc) =
      { lending := s.lending.step (.insert key doc opts alloc)
        promise := Function.update s.promise key (some (s.promised doc opts))
        evicted := Function.update (s.evictedBy after) key false } := by
    simp only [step, result, if_true, Lending.step]
  have cache : (s.lending.step (.insert key doc opts alloc)).cache = after := by
    simp only [Lending.step, result]
  have promise : (s.promised doc opts).KeptBy entry := by
    refine ⟨document, json.trans ?_, tag.trans ?_, expiry⟩
    · rcases whole.1 with copied | absent
      · rw [if_pos copied]
        rfl
      · simp only [absent, ite_self, promised]
    · rcases whole.2 with copied | absent
      · rw [if_pos copied]
        rfl
      · simp only [absent, ite_self, promised]
  have fresh : entry.expired s.lending.now = false := by
    rw [CacheEntry.expired, expiry, Bool.and_eq_false_iff, decide_eq_false_iff_not,
      decide_eq_false_iff_not]
    split <;> omega
  rw [next]
  constructor
  · exact counted
  · exact kept.clock
  · intro other promised
    have enabled : s.lending.cache.enabled = true := by
      rw [InsertApplies, Bool.and_eq_true] at applies
      exact applies.1
    have base := (@Cache.without_shrinks _ s.lending.cache key).enabled.trans enabled
    simp only [cache]
    exact enabledAfter.trans ((evictToLimits_shrinks _).enabled.trans base)
  · intro e held live
    rw [cache] at held
    rcases (holds e).mp held with rfl | old
    · rw [entryKey]
      exact ⟨_, Function.update_self .., promise⟩
    · obtain ⟨before, other⟩ := room e old
      obtain ⟨p, promised, keeps⟩ := kept.lives e before live
      exact ⟨p, (Function.update_of_ne other _ _).trans promised, keeps⟩
  · intro other p promised live spared
    simp only [cache]
    by_cases own : other = key
    · subst own
      exact ⟨entry, (holds entry).mpr (.inl rfl), entryKey, fresh⟩
    · simp only [Function.update_of_ne own] at promised spared
      have notEvicted : s.evicted other = false := (Bool.or_eq_false_iff.mp spared).1
      obtain ⟨e, held, same, alive⟩ := kept.kept other p promised live notEvicted
      obtain ⟨-, o, inAfter, sameAfter⟩ :=
        evictedBy_false kept.counted (cache ▸ counted) spared held same
      rcases (holds o).mp inAfter with rfl | old
      · exact absurd (sameAfter.symm.trans entryKey) own
      · have one := kept.counted.keyed.one o e (room o old).1 held (sameAfter.trans same.symm)
        exact ⟨o, inAfter, sameAfter, one ▸ alive⟩

theorem Kept.insert (kept : s.Kept) (applied : s.Applied (.insert key doc opts alloc)) :
    (s.step (.insert key doc opts alloc)).Kept := by
  cases made : alloc.entry with
  | false => exact kept.insertFails applied made
  | true => exact kept.insertMade applied made

end Insertion

section Runs

variable [DecidableEq C]

theorem Kept.expireEntry (kept : s.Kept) (key : CString) : (s.step (.expireEntry key)).Kept := by
  have counted := s.lending.step_counted (.expireEntry key) kept.counted
  have under := @Cache.Counted.under_iff _ _ kept.counted key
  have others : ∀ other p, Function.update s.promise key none other = some p →
      s.promise other = some p := by
    intro other p promised
    by_cases own : other = key
    · subst own
      simp at promised
    · rwa [Function.update_of_ne own] at promised
  cases found : s.lending.cache.under key with
  | none =>
    have same : (cacheExpireEntry s.lending.cache key s.lending.now).1 = s.lending.cache := by
      rw [Cache.under] at found
      simp only [cacheExpireEntry, found]
    apply kept.expire (fun _ => false) counted rfl
    · simp only [Lending.step, same]
    · intro e
      simp [Lending.step, same]
    · exact others
    · intro e held live spared
      apply Function.update_of_ne
      intro own
      rw [under.mpr ⟨held, own⟩] at found
      cases found
    · intro e held live marked
      cases marked
  | some cur =>
    obtain ⟨heldCur, sameCur⟩ := under.mp found
    have marked : (cacheExpireEntry s.lending.cache key s.lending.now).1 =
        s.lending.cache.mapEntries fun e =>
          if e.addr = cur.addr then { e with expiryTs := pastTs s.lending.now } else e := by
      rw [Cache.under] at found
      simp only [cacheExpireEntry, found]
    apply kept.expire (fun e => decide (e.addr = cur.addr)) counted rfl
    · simp only [Lending.step, marked]
      rfl
    · intro e
      simp only [Lending.step, marked, Cache.holds_mapEntries, decide_eq_true_eq]
    · exact others
    · intro e held live spared
      apply Function.update_of_ne
      intro own
      have one := kept.counted.keyed.one e cur held heldCur (own.trans sameCur.symm)
      simp [one] at spared
    · intro e held live hit
      have one := kept.counted.addressed.one e cur held heldCur (of_decide_eq_true hit)
      rw [one, sameCur, Function.update_self]

theorem Kept.invalidateByTag (kept : s.Kept) (tag : CString) :
    (s.step (.invalidateByTag tag)).Kept := by
  have counted := s.lending.step_counted (.invalidateByTag tag) kept.counted
  apply kept.expire (fun e => tag != [] && !e.expired s.lending.now && tagged tag e)
    counted rfl
  · simp only [Lending.step, cacheInvalidateByTag]
    split <;> rfl
  · intro e
    simp only [Lending.step, cacheInvalidateByTag]
    split
    · rename_i empty
      simp [empty]
    · rename_i name
      have nonempty : (tag != []) = true := by simpa using name
      simp only [Cache.holds_mapEntries, nonempty, Bool.true_and]
  · intro key p promised
    exact (Option.filter_eq_some_iff.mp promised).1
  · intro e held live spared
    obtain ⟨p, promised, keeps⟩ := kept.lives e held live
    simp only [live, tagged, keeps.tableDependencyTag, Bool.not_false, Bool.and_true] at spared
    simp only [promised, Option.filter_some, spared, Bool.not_false, if_true]
  · intro e held live marked
    obtain ⟨p, promised, keeps⟩ := kept.lives e held live
    simp only [live, tagged, keeps.tableDependencyTag, Bool.not_false, Bool.and_true] at marked
    simp only [promised, Option.filter_some, marked, Bool.not_true, Bool.false_eq_true, if_false]

theorem step_kept (s : Promises C Doc) (call : CacheCall C Doc) (kept : s.Kept)
    (applied : s.Applied call) : (s.step call).Kept := by
  have counted := s.lending.step_counted call kept.counted
  cases call with
  | lookup caller key =>
    have marks : ∃ f : CacheEntry Doc → CacheEntry Doc, (∀ e, (f e).Alike e) ∧
        (s.lending.step (.lookup caller key)).cache = s.lending.cache.mapEntries f := by
      have unchanged : s.lending.cache = s.lending.cache.mapEntries id := by
        simp [Cache.mapEntries]
      simp only [Lending.step, cacheLookup]
      split
      · exact ⟨id, CacheEntry.Alike.refl, unchanged⟩
      split
      · exact ⟨id, CacheEntry.Alike.refl, unchanged⟩
      split
      · exact ⟨id, CacheEntry.Alike.refl, unchanged⟩
      · refine ⟨_, fun e => ?_, rfl⟩
        split <;> exact ⟨rfl, rfl, rfl, rfl, rfl⟩
    obtain ⟨f, alike, same⟩ := marks
    apply kept.mark alike counted rfl
    · rw [same]
      rfl
    · rw [same]
      exact s.lending.cache.holds_mapEntries f
  | release caller addr =>
    simp only [step, Lending.step] at counted ⊢
    split at counted
    · rw [if_pos ‹_›]
      apply kept.mark (f := fun e => if e.addr = addr then { e with inUse := false } else e)
        (fun e => ?_) counted rfl rfl (s.lending.cache.holds_mapEntries _)
      split <;> exact ⟨rfl, rfl, rfl, rfl, rfl⟩
    · rw [if_neg ‹_›]
      exact kept
  | insert key doc opts alloc => exact kept.insert applied
  | expireEntry key => exact kept.expireEntry key
  | invalidateByTag tag => exact kept.invalidateByTag tag
  | evictExpired => exact kept.shrink counted rfl (cacheEvictExpired_shrinks s.lending.now)
  | evictLru =>
    apply kept.shrink counted rfl
    simp only [Lending.step]
    cases evicted : evictLruUnderLock s.lending.cache with
    | none => exact .refl _
    | some smaller =>
      rw [evictLruUnderLock, Option.map_eq_some_iff] at evicted
      obtain ⟨victim, -, rfl⟩ := evicted
      exact Cache.unlink_shrinks victim
  | reinit => exact kept.shrink counted rfl (Cache.unlinks_shrinks _)
  | tick seconds =>
    have later : ∀ n : Int, (decide (0 < n) && decide (n ≤ s.lending.now + seconds)) = false →
        (decide (0 < n) && decide (n ≤ s.lending.now)) = false := by
      intro n
      simp only [Bool.and_eq_false_iff, decide_eq_false_iff_not]
      omega
    refine ⟨counted, ?_, kept.enabled, ?_, ?_⟩
    · have clock := kept.clock
      simp only [step, Lending.step]
      omega
    · exact fun e held live => kept.lives e held (later _ live)
    · intro key p promised live notEvicted
      simp only [step] at promised
      obtain ⟨e, held, same, alive⟩ := kept.kept key p promised (later _ live) notEvicted
      obtain ⟨q, promisedEntry, keeps⟩ := kept.lives e held alive
      rw [same, promised] at promisedEntry
      cases promisedEntry
      refine ⟨e, held, same, ?_⟩
      rw [← keeps.expired]
      exact live

end Runs

def promisesStart : Promises Bool Nat := start Lending.oneBucket List.length id 10

end Promises

end OciWrapper.Infra
