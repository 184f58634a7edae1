import OciWrapper.Infra.KeyedCache

namespace OciWrapper.Infra

open OciWrapper.Text

variable {Doc : Type} {cache old : Cache Doc} {now : Int} {good : CString → Doc → Prop}

/-- A cache in which every live document suits the key that it lies under. -/
structure Cache.Serves (cache : Cache Doc) (now : Int) (good : CString → Doc → Prop) : Prop where
  keyed : cache.Keyed
  active : ∀ e, cache.Holds e → cache.enabled = true
  live : ∀ e, cache.Holds e → e.expired now = false → ∀ doc, e.Offers doc →
    good e.normalizedSql doc

theorem cacheCreate_serves (cfg : CacheConfig) (hash : CString → Nat) (docBytes : Doc → Nat)
    (now : Int) (good : CString → Doc → Prop) :
    (cacheCreate cfg hash docBytes).Serves now good := by
  have empty := cacheCreate_empty cfg hash docBytes
  exact ⟨cacheCreate_keyed cfg hash docBytes, fun e held => absurd held (empty e),
    fun e held => absurd held (empty e)⟩

theorem CacheEntry.live_before {e : CacheEntry Doc} {later : Int} (le : now ≤ later)
    (alive : e.expired later = false) : e.expired now = false := by
  simp only [CacheEntry.expired, Bool.and_eq_false_iff, decide_eq_false_iff_not] at alive ⊢
  omega

/-- Time passes, and what suited a key suits it still. -/
theorem Cache.Serves.later {better : CString → Doc → Prop} {after : Int}
    (serves : cache.Serves now good) (le : now ≤ after)
    (suits : ∀ e, cache.Holds e → e.expired after = false → ∀ doc, e.Offers doc →
      good e.normalizedSql doc → better e.normalizedSql doc) :
    cache.Serves after better := by
  refine ⟨serves.keyed, serves.active, fun e held alive doc offered => ?_⟩
  exact suits e held alive doc offered
    (serves.live e held (CacheEntry.live_before le alive) doc offered)

theorem Cache.Serves.ages (serves : old.Serves now good) (keyed : cache.Keyed)
    (enabled : cache.enabled = old.enabled) (ages : cache.Ages now old) :
    cache.Serves now good := by
  refine ⟨keyed, fun e held => ?_, fun e held alive doc offered => ?_⟩
  · obtain ⟨o, heldOld, -⟩ := ages e held
    exact enabled.trans (serves.active o heldOld)
  · obtain ⟨o, heldOld, stems⟩ := ages e held
    rw [stems.normalizedSql]
    exact serves.live o heldOld (stems.live (Int.le_refl now) alive) doc
      (stems.offers.mp offered)

theorem Cache.Serves.lookup (serves : cache.Serves now good) (key : CString) :
    (cacheLookup cache key now).1.Serves now good := by
  refine serves.ages (cacheLookup_keyed serves.keyed key now) ?_ (cacheLookup_ages cache key now)
  simp only [cacheLookup]
  split
  · rfl
  · split
    · rfl
    · split <;> rfl

theorem Cache.Serves.release (serves : cache.Serves now good) (addr : Nat) :
    (cacheRelease cache addr).Serves now good :=
  serves.ages (cacheRelease_keyed serves.keyed addr) rfl (cacheRelease_ages cache addr now)

theorem Cache.Serves.expireEntry (serves : cache.Serves now good) (clock : 1 < now)
    (key : CString) : (cacheExpireEntry cache key now).1.Serves now good := by
  refine serves.ages (cacheExpireEntry_keyed serves.keyed key now) ?_
    (cacheExpireEntry_ages clock cache key)
  simp only [cacheExpireEntry]
  split <;> rfl

theorem Cache.Serves.invalidateByTag (serves : cache.Serves now good) (clock : 1 < now)
    (tag : CString) : (cacheInvalidateByTag cache tag now).Serves now good := by
  have ages := cacheInvalidateByTag_ages clock cache tag
  simp only [cacheInvalidateByTag] at ages ⊢
  split
  · exact serves
  · next named =>
    rw [if_neg named] at ages
    refine serves.ages (serves.keyed.mapEntries fun e => ?_) rfl ages
    split <;> rfl

theorem Cache.Serves.evictExpired (serves : cache.Serves now good) :
    (cacheEvictExpired cache now).Serves now good := by
  have smaller : (cacheEvictExpired cache now).Shrinks cache := cacheEvictExpired_shrinks now
  exact serves.ages (serves.keyed.shrink smaller) smaller.enabled (smaller.ages now)

section Insertion

variable {key : CString} {doc : Doc} {opts : Option (CacheEntryOpts Doc)} {alloc : AllocOutcome}

theorem cacheInsert_link_enabled (base : Cache Doc) (bucket : Nat) (ttl : Int) :
    (cacheInsert.link key doc opts now alloc base bucket ttl).1.enabled = base.enabled := by
  have smaller := @evictToLimits_shrinks _ base
    (sizeofCacheEntry + key.length + 1 + base.docBytes doc + 1)
  simp only [cacheInsert.link]
  split
  · exact smaller.enabled
  · exact smaller.enabled

theorem cacheInsert_enabled :
    (cacheInsert cache key doc opts now alloc).1.enabled = cache.enabled := by
  simp only [cacheInsert]
  split
  · rfl
  · split
    · split
      · rfl
      · exact cacheInsert_link_enabled _ _ _
    · exact cacheInsert_link_enabled _ _ _

theorem cacheInsert_disabled (off : cache.enabled = false) :
    (cacheInsert cache key doc opts now alloc).1 = cache := by
  simp [cacheInsert, off]

theorem Cache.Serves.insert (serves : cache.Serves now good)
    (suits : ∀ stored, stored = doc ∨ opts.bind (·.outputDocumentJson) = some stored →
      good key stored) :
    (cacheInsert cache key doc opts now alloc).1.Serves now good := by
  refine ⟨cacheInsert_keyed serves.keyed, fun e held => ?_, fun e held alive out offered => ?_⟩
  · cases off : cache.enabled with
    | true => exact cacheInsert_enabled.trans off
    | false =>
      rw [cacheInsert_disabled off] at held
      exact absurd (serves.active e held) (by simp [off])
  · rcases cacheInsert_holds held with ⟨o, heldOld, stems⟩ | new
    · rw [stems.normalizedSql]
      exact serves.live o heldOld (stems.live (Int.le_refl now) alive) out
        (stems.offers.mp offered)
    · rw [new.normalizedSql]
      apply suits
      rcases offered with rfl | json
      · exact Or.inl new.outputDocument
      · exact Or.inr (new.outputDocumentJson out json)

end Insertion

/-- What a lookup hands out suits its key. -/
theorem Cache.Serves.hit (serves : cache.Serves now good) {key : CString} {hit : CacheEntry Doc}
    (served : (cacheLookup cache key now).2 = some hit) {doc : Doc} (offered : hit.Offers doc) :
    good key doc := by
  obtain ⟨e, held, rfl, alive, stems⟩ := cacheLookup_hit served
  exact serves.live e held alive doc (stems.offers.mp offered)

/-- A live entry is handed out by a lookup of its key. -/
theorem Cache.Serves.found (serves : cache.Serves now good) {e : CacheEntry Doc}
    (held : cache.Holds e) (alive : e.expired now = false) :
    ∃ hit, (cacheLookup cache e.normalizedSql now).2 = some hit ∧
      hit.outputDocument = e.outputDocument := by
  refine ⟨{ e with inUse := true, lastAccessTs := now }, ?_, rfl⟩
  simp [cacheLookup, serves.active e held, serves.keyed.find held, alive]

end OciWrapper.Infra
