import OciWrapper.Text.Chars

namespace OciWrapper.Infra

open OciWrapper.Text

/-- `cache_entry_t`; `addr` stands for the pointer a lookup hands out. -/
structure CacheEntry (Doc : Type) where
  addr : Nat
  normalizedSql : CString
  outputDocument : Doc
  outputDocumentJson : Option Doc
  tableDependencyTag : Option CString
  lastAccessTs : Int
  expiryTs : Int
  inUse : Bool
  pinned : Bool
  entryMemoryBytes : Nat

structure CacheEntryOpts (Doc : Type) where
  ttlSeconds : Int
  pinned : Bool
  outputDocumentJson : Option Doc
  tableDependencyTag : Option CString
  tracingBytes : Nat

/-- `cache_t`; `hash` is `compute_hash` and `docBytes` the length of a document. -/
structure Cache (Doc : Type) where
  hash : CString → Nat
  docBytes : Doc → Nat
  bucketCount : Nat
  buckets : Nat → List (CacheEntry Doc)
  entryCount : Nat
  currentMemoryBytes : Nat
  maxEntries : Nat
  maxMemoryBytes : Nat
  ttlSeconds : Int
  enabled : Bool
  nextAddr : Nat

structure CacheConfig where
  bucketCount : Nat
  maxEntries : Nat
  maxMemoryBytes : Nat
  ttlSeconds : Int
  enabled : Bool

/-- `while (pw2 < buckets) pw2 <<= 1`. -/
def roundUpPow2 (buckets : Nat) : Nat → Nat → Nat
  | 0, pw2 => pw2
  | fuel + 1, pw2 => if pw2 < buckets then roundUpPow2 buckets fuel (2 * pw2) else pw2

/-- `cache_create`, once its allocations have succeeded. -/
def cacheCreate {Doc : Type} (cfg : CacheConfig) (hash : CString → Nat) (docBytes : Doc → Nat) :
    Cache Doc :=
  let buckets := if cfg.bucketCount = 0 then 1024 else cfg.bucketCount
  { hash, docBytes
    bucketCount := roundUpPow2 buckets buckets 1
    buckets := fun _ => []
    entryCount := 0
    currentMemoryBytes := 0
    maxEntries := if 0 < cfg.maxEntries then cfg.maxEntries else 10000
    maxMemoryBytes := if 0 < cfg.maxMemoryBytes then cfg.maxMemoryBytes else 256 * 1024 * 1024
    ttlSeconds := if 0 < cfg.ttlSeconds then cfg.ttlSeconds else 300
    enabled := cfg.enabled
    nextAddr := 0 }

/-- Which of the allocations of `alloc_entry` succeed. -/
structure AllocOutcome where
  entry : Bool
  json : Bool
  tag : Bool

/-- `sizeof(cache_entry_t)`. -/
def sizeofCacheEntry : Nat := 176

variable {Doc : Type}

namespace Cache

def bucketOf (cache : Cache Doc) (key : CString) : Nat := cache.hash key % cache.bucketCount

def entries (cache : Cache Doc) : List (CacheEntry Doc) :=
  (List.range cache.bucketCount).flatMap cache.buckets

def Holds (cache : Cache Doc) (e : CacheEntry Doc) : Prop := ∃ b, e ∈ cache.buckets b

def setBucket (cache : Cache Doc) (b : Nat) (chain : List (CacheEntry Doc)) : Cache Doc :=
  { cache with buckets := fun i => if i = b then chain else cache.buckets i }

def mapEntries (cache : Cache Doc) (f : CacheEntry Doc → CacheEntry Doc) : Cache Doc :=
  { cache with buckets := fun i => (cache.buckets i).map f }

end Cache

def CacheEntry.matches (key : CString) (e : CacheEntry Doc) : Bool := e.normalizedSql == key

def CacheEntry.expired (now : Int) (e : CacheEntry Doc) : Bool :=
  decide (0 < e.expiryTs) && decide (e.expiryTs ≤ now)

def entryMemorySize (cache : Cache Doc) (key : CString) (doc : Doc) (json : Option Doc)
    (tracing : Nat) : Nat :=
  sizeofCacheEntry + (key.length + 1) + (cache.docBytes doc + 1) +
    (match json with | some j => cache.docBytes j + 1 | none => 0) + tracing

def allocEntry (cache : Cache Doc) (key : CString) (doc : Doc) (ttl : Int) (now : Int)
    (opts : Option (CacheEntryOpts Doc)) (alloc : AllocOutcome) : Option (CacheEntry Doc) :=
  if alloc.entry then
    let json := if alloc.json then opts.bind (·.outputDocumentJson) else none
    some {
      addr := cache.nextAddr
      normalizedSql := key
      outputDocument := doc
      outputDocumentJson := json
      tableDependencyTag := if alloc.tag then opts.bind (·.tableDependencyTag) else none
      lastAccessTs := now
      expiryTs := if 0 < ttl then now + ttl else 0
      inUse := false
      pinned := opts.any (·.pinned)
      entryMemoryBytes :=
        entryMemorySize cache key doc json ((opts.map (·.tracingBytes)).getD 0) }
  else none

def evictable (e : CacheEntry Doc) : Bool := !e.pinned && !e.inUse

/-- The scan of `evict_lru_under_lock`: the bound starts at `(time_t)UINT64_MAX`, which is -1. -/
def lruVictim (entries : List (CacheEntry Doc)) : Option (CacheEntry Doc) :=
  (entries.foldl
    (fun (found : Option (CacheEntry Doc) × Int) cur =>
      if evictable cur && decide (cur.lastAccessTs < found.2) then (some cur, cur.lastAccessTs)
      else found)
    (none, -1)).1

def Cache.unlink (cache : Cache Doc) (victim : CacheEntry Doc) : Cache Doc :=
  { cache with
    buckets := fun i => (cache.buckets i).filter (·.addr != victim.addr)
    entryCount := cache.entryCount - 1
    currentMemoryBytes := cache.currentMemoryBytes - victim.entryMemoryBytes }

def evictLruUnderLock (cache : Cache Doc) : Option (Cache Doc) :=
  (lruVictim cache.entries).map cache.unlink

/-- `while (over) if (!evict) break`; every round unlinks an entry. -/
def evictWhile (exceeds : Cache Doc → Bool) : Nat → Cache Doc → Cache Doc
  | 0, cache => cache
  | fuel + 1, cache =>
    if exceeds cache then
      match evictLruUnderLock cache with
      | some smaller => evictWhile exceeds fuel smaller
      | none => cache
    else cache

def evictToLimits (cache : Cache Doc) (estimated : Nat) : Cache Doc :=
  let byCount := evictWhile (fun c => decide (c.maxEntries ≤ c.entryCount))
    cache.entries.length cache
  evictWhile (fun c => decide (c.maxMemoryBytes < c.currentMemoryBytes + estimated))
    byCount.entries.length byCount

/-- `cache_insert`; the result 0 is `true`. -/
def cacheInsert (cache : Cache Doc) (key : CString) (doc : Doc)
    (opts : Option (CacheEntryOpts Doc)) (now : Int) (alloc : AllocOutcome) : Cache Doc × Bool :=
  if !cache.enabled then (cache, true)
  else
    let ttl := match opts with
      | some o => if 0 < o.ttlSeconds then o.ttlSeconds else cache.ttlSeconds
      | none => cache.ttlSeconds
    let bucket := cache.bucketOf key
    match (cache.buckets bucket).find? (CacheEntry.matches key) with
    | some cur =>
      -- a checked-out entry stays, and the update is skipped
      if cur.inUse then (cache, true) else link (cache.unlink cur) bucket ttl
    | none => link cache bucket ttl
where
  link (cache : Cache Doc) (bucket : Nat) (ttl : Int) : Cache Doc × Bool :=
    let cache := evictToLimits cache (sizeofCacheEntry + key.length + 1 + cache.docBytes doc + 1)
    match allocEntry cache key doc ttl now opts alloc with
    | none => (cache, false)
    | some entry =>
      ({ cache.setBucket bucket (entry :: cache.buckets bucket) with
          entryCount := cache.entryCount + 1
          currentMemoryBytes := cache.currentMemoryBytes + entry.entryMemoryBytes
          nextAddr := cache.nextAddr + 1 }, true)

def cacheLookup (cache : Cache Doc) (key : CString) (now : Int) :
    Cache Doc × Option (CacheEntry Doc) :=
  if !cache.enabled then (cache, none)
  else
    match (cache.buckets (cache.bucketOf key)).find? (CacheEntry.matches key) with
    | none => (cache, none)
    | some cur =>
      if cur.expired now then (cache, none)
      else
        let checkOut (e : CacheEntry Doc) := { e with inUse := true, lastAccessTs := now }
        (cache.mapEntries (fun e => if e.addr = cur.addr then checkOut e else e),
          some (checkOut cur))

def cacheRelease (cache : Cache Doc) (addr : Nat) : Cache Doc :=
  cache.mapEntries fun e => if e.addr = addr then { e with inUse := false } else e

def pastTs (now : Int) : Int := if 0 < now then now - 1 else 1

/-- `cache_expire_entry`; the result 0 is `true`, 1 is `false`. -/
def cacheExpireEntry (cache : Cache Doc) (key : CString) (now : Int) : Cache Doc × Bool :=
  match (cache.buckets (cache.bucketOf key)).find? (CacheEntry.matches key) with
  | none => (cache, false)
  | some cur =>
    (cache.mapEntries (fun e => if e.addr = cur.addr then { e with expiryTs := pastTs now } else e),
      true)

/-- `strstr(text, part) != NULL`. -/
def contains (text part : CString) : Bool := text.tails.any part.isPrefixOf

def tagged (tag : CString) (e : CacheEntry Doc) : Bool :=
  e.tableDependencyTag.any fun text => contains text tag

/-- `cache_invalidate_by_tag`; an empty tag is refused. -/
def cacheInvalidateByTag (cache : Cache Doc) (tag : CString) (now : Int) : Cache Doc :=
  if tag = [] then cache
  else cache.mapEntries fun e =>
    if !e.expired now && tagged tag e then { e with expiryTs := pastTs now } else e

def cacheEvictExpired (cache : Cache Doc) (now : Int) : Cache Doc :=
  let swept := (cache.entries.filter (fun e => e.expired now && evictable e)).foldl
    Cache.unlink cache
  evictWhile (fun c => decide (c.maxMemoryBytes < c.currentMemoryBytes)) swept.entries.length swept

/-- `cache_reinitialize`; only `pinned` is looked at. -/
def cacheReinitialize (cache : Cache Doc) : Cache Doc :=
  (cache.entries.filter fun e => !e.pinned).foldl Cache.unlink cache

end OciWrapper.Infra
