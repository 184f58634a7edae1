import OciWrapper.Concurrent.Runs
import OciWrapper.Infra.CacheBorrows

namespace OciWrapper.Infra

open OciWrapper.Concurrent
open OciWrapper.Text

variable {C Doc : Type} [DecidableEq C]

/-- A call on the cache; each runs under the lock of the cache. -/
inductive CacheCall (C Doc : Type) where
  | lookup (caller : C) (key : CString)
  | release (caller : C) (addr : Nat)
  | insert (key : CString) (doc : Doc) (opts : Option (CacheEntryOpts Doc)) (alloc : AllocOutcome)
  | expireEntry (key : CString)
  | invalidateByTag (tag : CString)
  | evictExpired
  | evictLru
  | reinit
  | tick (seconds : Nat)

/-- The cache with the entries that each caller has looked up and not yet released. -/
structure Lending (C Doc : Type) where
  cache : Cache Doc
  now : Int
  borrowed : C → List (CacheEntry Doc)

namespace Lending

def start (cfg : CacheConfig) (hash : CString → Nat) (docBytes : Doc → Nat) (now : Int) :
    Lending C Doc :=
  ⟨cacheCreate cfg hash docBytes, now, fun _ => []⟩

/-- The borrows once the caller has given one of them back. -/
def returned (s : Lending C Doc) (caller : C) (addr : Nat) : C → List (CacheEntry Doc) :=
  Function.update s.borrowed caller ((s.borrowed caller).eraseP (·.addr == addr))

/-- A caller releases only what a lookup gave to it. -/
def step (s : Lending C Doc) : CacheCall C Doc → Lending C Doc
  | .lookup caller key =>
    let (cache, hit) := cacheLookup s.cache key s.now
    { s with cache, borrowed := Function.update s.borrowed caller (hit.toList ++ s.borrowed caller) }
  | .release caller addr =>
    if (s.borrowed caller).any (·.addr == addr) then
      { s with cache := cacheRelease s.cache addr, borrowed := s.returned caller addr }
    else s
  | .insert key doc opts alloc =>
    { s with cache := (cacheInsert s.cache key doc opts s.now alloc).1 }
  | .expireEntry key => { s with cache := (cacheExpireEntry s.cache key s.now).1 }
  | .invalidateByTag tag => { s with cache := cacheInvalidateByTag s.cache tag s.now }
  | .evictExpired => { s with cache := cacheEvictExpired s.cache s.now }
  | .evictLru => { s with cache := (evictLruUnderLock s.cache).getD s.cache }
  | .reinit => { s with cache := cacheReinitialize s.cache }
  | .tick seconds => { s with now := s.now + seconds }

/-- What was looked up and not released is in the cache, with its payload. -/
def Intact (s : Lending C Doc) : Prop :=
  ∀ caller, ∀ lent ∈ s.borrowed caller, ∃ e, s.cache.Holds e ∧ e.SamePayload lent

/-- No entry is released that another lookup still holds, and the cache is
    reinitialized only when what is borrowed is pinned. -/
def GivesBack (s : Lending C Doc) : CacheCall C Doc → Prop
  | .release caller addr =>
    (s.borrowed caller).any (·.addr == addr) = true →
      ∀ other, ∀ lent ∈ s.returned caller addr other, lent.addr ≠ addr
  | .reinit => ∀ caller, ∀ lent ∈ s.borrowed caller, lent.pinned = true
  | _ => True

/-- Every borrow has its flag. -/
structure Flagged (s : Lending C Doc) : Prop where
  addressed : s.cache.Addressed
  flagged : ∀ caller, ∀ lent ∈ s.borrowed caller,
    ∃ e, s.cache.Holds e ∧ e.SamePayload lent ∧ e.inUse = true

omit [DecidableEq C] in
theorem Flagged.intact {s : Lending C Doc} (flagged : s.Flagged) : s.Intact := by
  intro caller lent member
  obtain ⟨e, held, same, -⟩ := flagged.flagged caller lent member
  exact ⟨e, held, same⟩

omit [DecidableEq C] in
theorem start_flagged (cfg : CacheConfig) (hash : CString → Nat) (docBytes : Doc → Nat)
    (now : Int) : (start cfg hash docBytes now : Lending C Doc).Flagged := by
  have empty := cacheCreate_empty cfg hash docBytes
  refine ⟨⟨fun e held => absurd held (empty e), fun e o held => absurd held (empty e)⟩, ?_⟩
  intro caller lent member
  cases member

omit [DecidableEq C] in
/-- A call that keeps the checked-out entries keeps the borrows. -/
theorem Flagged.retain {s : Lending C Doc} (flagged : s.Flagged) {cache : Cache Doc} {now : Int}
    (after : cache.Addressed ∧ cache.Retains s.cache) :
    Flagged (C := C) ⟨cache, now, s.borrowed⟩ := by
  refine ⟨after.1, fun caller lent member => ?_⟩
  obtain ⟨o, held, same, used⟩ := flagged.flagged caller lent member
  obtain ⟨e, heldAfter, sameAfter, usedAfter⟩ := after.2 o held used
  exact ⟨e, heldAfter, sameAfter.trans same, usedAfter⟩

theorem Flagged.lookup {s : Lending C Doc} (flagged : s.Flagged) (caller : C) (key : CString) :
    (s.step (.lookup caller key)).Flagged := by
  obtain ⟨addressed, kept, hit⟩ := flagged.addressed.lookup key s.now
  have before : Flagged (C := C) ⟨_, s.now, s.borrowed⟩ := flagged.retain ⟨addressed, kept⟩
  refine ⟨addressed, fun other lent member => ?_⟩
  simp only [step, Function.update_apply] at member
  split at member
  · rename_i own
    subst own
    rcases List.mem_append.mp member with new | old
    · obtain ⟨held, used⟩ := hit lent (Option.mem_toList.mp new)
      exact ⟨lent, held, .refl lent, used⟩
    · exact before.flagged other lent old
  · exact before.flagged other lent member

theorem returned_subset (s : Lending C Doc) (caller : C) (addr : Nat) {other : C}
    {lent : CacheEntry Doc} (member : lent ∈ s.returned caller addr other) :
    lent ∈ s.borrowed other := by
  simp only [returned, Function.update_apply] at member
  split at member
  · rename_i own
    subst own
    exact List.mem_of_mem_eraseP member
  · exact member

theorem Flagged.release {s : Lending C Doc} (flagged : s.Flagged) {caller : C} {addr : Nat}
    (last : s.GivesBack (.release caller addr)) : (s.step (.release caller addr)).Flagged := by
  simp only [step]
  split
  · rename_i held
    refine ⟨flagged.addressed.release addr, fun other lent member => ?_⟩
    obtain ⟨e, inCache, same, used⟩ :=
      flagged.flagged other lent (s.returned_subset caller addr member)
    have different : e.addr ≠ addr := by
      rw [same.addr]
      exact last held other lent member
    exact ⟨e, cacheRelease_retains inCache different, same, used⟩
  · exact flagged

theorem Flagged.reinit {s : Lending C Doc} (flagged : s.Flagged)
    (pinned : s.GivesBack .reinit) : (s.step .reinit).Flagged := by
  refine ⟨flagged.addressed.reinit, fun caller lent member => ?_⟩
  obtain ⟨e, held, same, used⟩ := flagged.flagged caller lent member
  have keeps : e.pinned = true := same.pinned.trans (pinned caller lent member)
  exact ⟨e, flagged.addressed.reinit_holds held keeps, same, used⟩

theorem step_flagged (s : Lending C Doc) (call : CacheCall C Doc) (flagged : s.Flagged)
    (gives : s.GivesBack call) : (s.step call).Flagged := by
  have addressed := flagged.addressed
  cases call with
  | lookup caller key => exact flagged.lookup caller key
  | release caller addr => exact flagged.release gives
  | insert key doc opts alloc => exact flagged.retain (addressed.insert key doc opts s.now alloc)
  | expireEntry key => exact flagged.retain (addressed.expireEntry key s.now)
  | invalidateByTag tag => exact flagged.retain (addressed.invalidateByTag tag s.now)
  | evictExpired => exact flagged.retain (addressed.evictExpired s.now)
  | evictLru =>
    simp only [step]
    cases evicted : evictLruUnderLock s.cache with
    | none => exact flagged
    | some smaller => exact flagged.retain (addressed.evictLru evicted)
  | reinit => exact flagged.reinit gives
  | tick seconds => exact flagged.retain ⟨addressed, .refl s.cache⟩

/-- In every state of a run in which no shared entry is released early and no borrowed
    one is reinitialized, what a caller holds is intact. -/
theorem borrows_stay_intact (cfg : CacheConfig) (hash : CString → Nat) (docBytes : Doc → Nat)
    (now : Int) (calls : List (CacheCall C Doc))
    (gives : Meets step GivesBack (start cfg hash docBytes now) calls) :
    ∀ reached, reached <+: calls → (reached.foldl step (start cfg hash docBytes now)).Intact := by
  rintro reached ⟨later, rfl⟩
  have met := (Meets.append_iff.mp gives).1
  exact (Meets.invariant step_flagged (start_flagged cfg hash docBytes now) met).intact

def oneBucket : CacheConfig := ⟨1, 0, 0, 0, true⟩

def lendingStart : Lending Bool Nat := start oneBucket List.length id 10

def storeUnderK (doc : Nat) : CacheCall Bool Nat := .insert "K".toList doc none ⟨true, true, true⟩

theorem borrows_stay_intact_in_turn :
    ([storeUnderK 7, .lookup false "K".toList, storeUnderK 8].foldl step lendingStart).Intact := by
  apply borrows_stay_intact oneBucket List.length id 10
    [storeUnderK 7, .lookup false "K".toList, storeUnderK 8, .release false 0, storeUnderK 9, .reinit]
  · refine ⟨trivial, trivial, trivial, ?_, trivial, ?_, trivial⟩
    · unfold GivesBack
      decide
    · unfold GivesBack
      decide
  · exact ⟨[.release false 0, storeUnderK 9, .reinit], rfl⟩

/-- One of two borrowers releases, and an insertion replaces the entry of the other. -/
def releasedByOther : List (CacheCall Bool Nat) :=
  [storeUnderK 7, .lookup false "K".toList, .lookup true "K".toList, .release true 0, storeUnderK 8]

def reinitializedUnderLookup : List (CacheCall Bool Nat) :=
  [storeUnderK 7, .lookup false "K".toList, .reinit]

/-- In both runs the first borrower still holds the entry, and it is freed. -/
theorem freed_under_borrower :
    ∀ calls ∈ [releasedByOther, reinitializedUnderLookup],
      ((calls.foldl step lendingStart).borrowed false).map (·.addr) = [0] ∧
        ¬ (calls.foldl step lendingStart).Intact := by
  have freed : ∀ calls ∈ [releasedByOther, reinitializedUnderLookup], ∀ b,
      ∀ e ∈ (calls.foldl step lendingStart).cache.buckets b, e.addr ≠ 0 := by
    intro calls member b
    cases b with
    | zero => revert calls; decide
    | succ b =>
      have chain : (calls.foldl step lendingStart).cache.buckets (b + 1) = [] := by
        fin_cases member <;> rfl
      simp [chain]
  have lent : ∀ calls ∈ [releasedByOther, reinitializedUnderLookup],
      ((calls.foldl step lendingStart).borrowed false).map (·.addr) = [0] := by decide
  intro calls member
  refine ⟨lent calls member, fun intact => ?_⟩
  obtain ⟨entry, held, addr⟩ := List.mem_map.mp (lent calls member ▸ List.mem_singleton_self 0)
  obtain ⟨e, ⟨b, inBucket⟩, same⟩ := intact false entry held
  exact freed calls member b e inBucket (same.addr.trans addr)

theorem borrowed_entry_is_freed :
    ¬ (releasedByOther.foldl step lendingStart).Intact ∧
      ¬ (reinitializedUnderLookup.foldl step lendingStart).Intact :=
  ⟨(freed_under_borrower _ (by simp)).2, (freed_under_borrower _ (by simp)).2⟩

end Lending

end OciWrapper.Infra
