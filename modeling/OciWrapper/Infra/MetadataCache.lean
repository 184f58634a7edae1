import OciWrapper.Infra.ServedEntries

namespace OciWrapper.Infra

open OciWrapper.Text

variable {Col : Type}

/-- A value in a cache and the number of the request that cached it. -/
structure Stored (α : Type) where
  value : α
  storedAt : Nat
  deriving DecidableEq

def maxTableColumns : Nat := 1024

/-- The sizes of `u_owner` and `u_table`, less the terminator. -/
def metaNameMax : Nat := 127

def metaUpperCopy (src : CString) : CString := (src.take metaNameMax).map Char.toUpper

/-- No key is cut: two names and a dot fit into the 260 bytes of `cache_key`. -/
def metadataCacheMakeKey (owner tableName : CString) : CString :=
  if owner = [] then metaUpperCopy tableName
  else metaUpperCopy owner ++ '.' :: metaUpperCopy tableName

/-- What `get_request_metadata` and the allocations of `metadata_cache_store` bring. -/
structure DescribeOutcome (Col : Type) where
  described : Option (List Col)
  buffer : Bool
  alloc : AllocOutcome

/-- The drivers fail on a table without columns, fill `cols` up to `max_cols` and
    leave the rest out. -/
def getRequestMetadata (outcome : DescribeOutcome Col) : Option (List Col) :=
  (outcome.described.filter (!·.isEmpty)).map (·.take maxTableColumns)

def metadataCacheStore (cache : Cache (Stored (List Col))) (key : CString) (cols : List Col)
    (request : Nat) (now : Int) (outcome : DescribeOutcome Col) : Cache (Stored (List Col)) :=
  if cols = [] then cache
  else if !outcome.buffer then cache
  else (cacheInsert cache key ⟨cols, request⟩ none now outcome.alloc).1

def metadataCacheDeserialise (cached : Stored (List Col)) : Option (Stored (List Col)) :=
  if cached.value = [] ∨ maxTableColumns < cached.value.length then none else some cached

def metadataCacheInvalidate (cache : Cache (Stored (List Col))) (owner tableName : CString)
    (now : Int) : Cache (Stored (List Col)) :=
  (cacheExpireEntry cache (metadataCacheMakeKey owner tableName) now).1

/-- The columns that a caller works with, and whether they come from the cache. -/
inductive Metadata (Col : Type)
  | failed
  | cached (cols : Stored (List Col))
  | fetched (cols : List Col)

def Metadata.ofFetch : Option (List Col) → Metadata Col
  | none => .failed
  | some cols => .fetched cols

/-- `request` numbers the request that asks. -/
def metadataCacheGetOrFetch (cache : Cache (Stored (List Col))) (owner tableName : CString)
    (request : Nat) (now : Int) (outcome : DescribeOutcome Col) :
    Cache (Stored (List Col)) × Metadata Col :=
  let key := metadataCacheMakeKey owner tableName
  match cacheLookup cache key now with
  | (cache, some hit) =>
    let cache := cacheRelease cache hit.addr
    match metadataCacheDeserialise hit.outputDocument with
    | some cols => (cache, .cached cols)
    | none =>
      (metadataCacheInvalidate cache owner tableName now, .ofFetch (getRequestMetadata outcome))
  | (cache, none) =>
    match getRequestMetadata outcome with
    | none => (cache, .failed)
    | some cols => (metadataCacheStore cache key cols request now outcome, .fetched cols)

/-- What a stored column list is like: not empty, and no longer than the caller's array. -/
def Readable (cols : List Col) : Prop := cols ≠ [] ∧ cols.length ≤ maxTableColumns

variable {cache : Cache (Stored (List Col))} {owner tableName : CString} {request : Nat}
  {now : Int} {outcome : DescribeOutcome Col} {good : CString → Stored (List Col) → Prop}

theorem getRequestMetadata_length {cols : List Col}
    (described : getRequestMetadata outcome = some cols) : cols.length ≤ maxTableColumns := by
  obtain ⟨all, -, rfl⟩ := Option.map_eq_some_iff.mp described
  rw [List.length_take]
  exact Nat.min_le_left _ _

theorem metadataCacheDeserialise_readable {cached : Stored (List Col)}
    (readable : Readable cached.value) : metadataCacheDeserialise cached = some cached := by
  obtain ⟨some, fits⟩ := readable
  exact if_neg (not_or.mpr ⟨some, by omega⟩)

/-- The cache keeps suiting its keys if what this request describes would suit its own. -/
theorem metadataCacheGetOrFetch_serves (serves : cache.Serves now good) (clock : 1 < now)
    (suits : ∀ cols, Readable cols →
      good (metadataCacheMakeKey owner tableName) ⟨cols, request⟩) :
    (metadataCacheGetOrFetch cache owner tableName request now outcome).1.Serves now good := by
  have looked := serves.lookup (metadataCacheMakeKey owner tableName)
  unfold metadataCacheGetOrFetch
  dsimp only
  split
  · next after hit found =>
    rw [found] at looked
    split
    · exact looked.release hit.addr
    · exact (looked.release hit.addr).expireEntry clock _
  · next after missed =>
    rw [missed] at looked
    split
    · exact looked
    · next cols described =>
      unfold metadataCacheStore
      split
      · exact looked
      split
      · exact looked
      · next named _ =>
        apply looked.insert
        rintro stored (rfl | none)
        · exact suits cols ⟨named, getRequestMetadata_length described⟩
        · cases none

/-- Columns from the cache suit the key of the request. -/
theorem metadataCacheGetOrFetch_cached (serves : cache.Serves now good)
    {cols : Stored (List Col)}
    (served : (metadataCacheGetOrFetch cache owner tableName request now outcome).2 =
      .cached cols) : good (metadataCacheMakeKey owner tableName) cols := by
  unfold metadataCacheGetOrFetch at served
  dsimp only at served
  split at served
  · next after hit found =>
    have suits := serves.hit (congrArg Prod.snd found) (Or.inl rfl)
    split at served
    · next read =>
      unfold metadataCacheDeserialise at read
      split at read
      · cases read
      · cases read
        cases served
        exact suits
    · cases described : getRequestMetadata outcome <;>
        simp [Metadata.ofFetch, described] at served
  · split at served <;> cases served

/-- A live entry that can be read is what the next request of its key works with. -/
theorem metadataCacheGetOrFetch_found (serves : cache.Serves now good)
    {e : CacheEntry (Stored (List Col))} (held : cache.Holds e) (alive : e.expired now = false)
    (key : e.normalizedSql = metadataCacheMakeKey owner tableName)
    (readable : Readable e.outputDocument.value) (request : Nat) (outcome : DescribeOutcome Col) :
    (metadataCacheGetOrFetch cache owner tableName request now outcome).2 =
      .cached e.outputDocument := by
  obtain ⟨hit, found, same⟩ := serves.found held alive
  rw [key] at found
  unfold metadataCacheGetOrFetch
  dsimp only
  split
  · next after other looked =>
    rw [looked] at found
    cases found
    rw [same, metadataCacheDeserialise_readable readable]
  · next after missed =>
    rw [missed] at found
    cases found

end OciWrapper.Infra
