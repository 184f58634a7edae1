import OciWrapper.Infra.MetadataCache
import OciWrapper.Store.Layout

namespace OciWrapper.Infra

open OciWrapper.Text OciWrapper.Store

/-- `col_metadata_t`. -/
structure ColMetadata where
  colName : Vector Byte 128
  dataType : Vector Byte 128
  dataLength : BitVec 32
  dataPrecision : BitVec 32
  dataScale : BitVec 32
  nullable : Vector Byte 4
  dataDefault : Vector Byte 512
  sourceTable : Vector Byte 128
  deriving DecidableEq

namespace ColMetadata

/-- The 912 bytes of a `col_metadata_t`; no member needs a gap before it. -/
def layout : Layout ColMetadata :=
  (((Layout.chars 128).pair (.chars 128)).pair ((Layout.int32.pair (.pair .int32 .int32)).pair
    ((Layout.chars 4).pair (.pair (.chars 512) (.chars 128))))).members
    (fun c => ((c.colName, c.dataType), (c.dataLength, c.dataPrecision, c.dataScale),
      c.nullable, c.dataDefault, c.sourceTable))
    (fun ((colName, dataType), (dataLength, dataPrecision, dataScale), nullable, dataDefault,
        sourceTable) =>
      { colName, dataType, dataLength, dataPrecision, dataScale, nullable, dataDefault,
        sourceTable })
    fun _ => rfl

theorem size_layout : layout.size = 912 := rfl

end ColMetadata

/-- Columns that an `int` can count. -/
abbrev Columns := { cols : List ColMetadata // cols.length < 2 ^ 31 }

/-- `META_PAYLOAD_HDR_SIZE`. -/
def metaPayloadHdrSize : Nat := 4

def metadataPayload (cols : Columns) : List Byte :=
  Layout.int32.write (BitVec.ofNat 32 cols.1.length) ++ ColMetadata.layout.writeAll cols.1

namespace Payload

/-- `buffer` is the `malloc` of the payload; the result 0 is `true`. -/
def metadataCacheStore (cache : Cache (List Byte)) (key : CString) (cols : Columns) (now : Int)
    (buffer : Bool) (alloc : AllocOutcome) : Cache (List Byte) × Bool :=
  if cols.1 = [] then (cache, false)
  else if !buffer then (cache, false)
  else cacheInsert cache key (metadataPayload cols) none now alloc

def metadataCacheDeserialise (payload : List Byte) (maxCols : Int) :
    Option (List ColMetadata) :=
  if maxCols ≤ 0 then none
  else if payload.length < metaPayloadHdrSize then none
  else
    let storedCount := (Layout.int32.read payload).toInt
    if storedCount ≤ 0 ∨ maxCols < storedCount then none
    else if payload.length < metaPayloadHdrSize + storedCount.toNat * ColMetadata.layout.size then
      none
    else some (ColMetadata.layout.readAll storedCount.toNat (payload.drop metaPayloadHdrSize))

end Payload

section RoundTrip

theorem read_count (cols : Columns) (rest : List Byte) :
    (Layout.int32.read (metadataPayload cols ++ rest)).toInt = cols.1.length := by
  have bound := cols.2
  have value : (BitVec.ofNat 32 cols.1.length).toNat = cols.1.length :=
    Nat.mod_eq_of_lt (by omega)
  rw [metadataPayload, List.append_assoc, Layout.int32.read_write,
    BitVec.toInt_eq_toNat_of_lt (by omega), value]

theorem length_metadataPayload (cols : Columns) :
    (metadataPayload cols).length =
      metaPayloadHdrSize + cols.1.length * ColMetadata.layout.size := by
  rw [metadataPayload, List.length_append, Layout.length_writeAll, Layout.int32.length_write]
  rfl

/-- Every list of columns that the caller's array holds is read back as it was stored. -/
theorem metadataCacheDeserialise_payload (cols : Columns) (filled : cols.1 ≠ []) (maxCols : Int) :
    Payload.metadataCacheDeserialise (metadataPayload cols) maxCols =
      if (cols.1.length : Int) ≤ maxCols then some cols.1 else none := by
  have positive : 0 < cols.1.length := List.length_pos_iff.mpr filled
  have count := read_count cols []
  rw [List.append_nil] at count
  have columns : (metadataPayload cols).drop metaPayloadHdrSize =
      ColMetadata.layout.writeAll cols.1 := List.drop_left' (Layout.int32.length_write _)
  have back := ColMetadata.layout.readAll_writeAll cols.1 []
  rw [List.append_nil] at back
  unfold Payload.metadataCacheDeserialise
  dsimp only
  rw [count, length_metadataPayload, Int.toNat_natCast, columns, back]
  by_cases room : (cols.1.length : Int) ≤ maxCols
  · rw [if_neg (by omega), if_neg (by omega), if_neg (by omega), if_neg (Nat.lt_irrefl _),
      if_pos room]
  · rw [if_neg room]
    split
    · rfl
    · rw [if_neg (by omega), if_pos (Or.inr (by omega))]

end RoundTrip

section Insertion

variable {Doc : Type} {cache : Cache Doc} {key : CString} {doc : Doc} {now : Int}
  {opts : Option (CacheEntryOpts Doc)} {alloc : AllocOutcome}

/-- An insertion that lands leaves no earlier entry of its key. -/
theorem cacheInsert_replaces (keyed : cache.Keyed)
    (lands : InsertLands cache key alloc = true) {e : CacheEntry Doc}
    (held : (cacheInsert cache key doc opts now alloc).1.Holds e) :
    (∃ o, cache.Holds o ∧ o.normalizedSql ≠ key ∧ e.Stems now o) ∨ e.Stored key doc opts alloc := by
  simp only [InsertLands, Bool.and_eq_true, Bool.not_eq_true'] at lands
  obtain ⟨⟨enabled, -⟩, idle⟩ := lands
  simp only [cacheInsert, enabled, Bool.not_true, Bool.false_eq_true, if_false] at held
  cases found : (cache.buckets (cache.bucketOf key)).find? (CacheEntry.matches key) with
  | none =>
    rw [found] at held
    rcases cacheInsert_link (.refl now cache) e held with ⟨o, old, stems⟩ | new
    · exact Or.inl ⟨o, old, Cache.find_none keyed found old, stems⟩
    · exact Or.inr new
  | some cur =>
    rw [found, Option.any_some] at idle
    simp only [found, idle, Bool.false_eq_true, if_false] at held
    rcases cacheInsert_link (.refl now (cache.unlink cur)) e held with ⟨o, ⟨b, member⟩, stems⟩ | new
    · obtain ⟨old, other⟩ := List.mem_filter.mp member
      refine Or.inl ⟨o, ⟨b, old⟩, ?_, stems⟩
      rintro rfl
      rw [keyed.find ⟨b, old⟩] at found
      cases found
      simp at other
    · exact Or.inr new

theorem Cache.Serves.replace {good better : CString → Doc → Prop} (serves : cache.Serves now good)
    (lands : InsertLands cache key alloc = true) (suits : better key doc)
    (keeps : ∀ k d, k ≠ key → good k d → better k d) :
    (cacheInsert cache key doc none now alloc).1.Serves now better := by
  have enabled : cache.enabled = true := by
    simp only [InsertLands, Bool.and_eq_true] at lands
    exact lands.1.1
  refine ⟨cacheInsert_keyed serves.keyed, fun e held => cacheInsert_enabled.trans enabled, ?_⟩
  intro e held alive out offered
  rcases cacheInsert_replaces serves.keyed lands held with ⟨o, heldOld, other, stems⟩ | new
  · rw [stems.normalizedSql]
    exact keeps _ _ other (serves.live o heldOld (stems.live (Int.le_refl now) alive) out
      (stems.offers.mp offered))
  · rw [new.normalizedSql]
    rcases offered with rfl | json
    · rwa [new.outputDocument]
    · cases new.outputDocumentJson out json

end Insertion

section Runs

/-- What a landed `metadata_cache_store` has put under a key. -/
structure StoredColumns where
  owner : CString
  tableName : CString
  cols : Columns

def StoredColumns.key (w : StoredColumns) : CString := metadataCacheMakeKey w.owner w.tableName

/-- The metadata cache of the threads that share it; `stores` are the landed stores, the last
one first. -/
structure MetaState where
  cache : Cache (List Byte)
  now : Int
  stores : List StoredColumns

/-- The calls of the metadata cache, each under the lock of the cache. -/
inductive MetaStep
  | lookup (owner tableName : CString)
  | release (addr : Nat)
  | store (owner tableName : CString) (cols : Columns) (buffer : Bool) (alloc : AllocOutcome)
  | invalidate (owner tableName : CString)
  | evict
  | wait (seconds : Nat)

namespace MetaState

def start (cfg : CacheConfig) (hash : CString → Nat) (now : Int) : MetaState :=
  ⟨cacheCreate cfg hash List.length, now, []⟩

/-- The store of `cols` puts them in the place of what lies under their key. -/
def Lands (s : MetaState) (owner tableName : CString) (cols : Columns) (buffer : Bool)
    (alloc : AllocOutcome) : Bool :=
  !cols.1.isEmpty && buffer && InsertLands s.cache (metadataCacheMakeKey owner tableName) alloc

def step (s : MetaState) : MetaStep → MetaState
  | .lookup owner tableName =>
    { s with cache := (cacheLookup s.cache (metadataCacheMakeKey owner tableName) s.now).1 }
  | .release addr => { s with cache := cacheRelease s.cache addr }
  | .store owner tableName cols buffer alloc =>
    { s with
      cache := (Payload.metadataCacheStore s.cache (metadataCacheMakeKey owner tableName) cols
        s.now buffer alloc).1
      stores := if s.Lands owner tableName cols buffer alloc then
          ⟨owner, tableName, cols⟩ :: s.stores
        else s.stores }
  | .invalidate owner tableName =>
    { s with
      cache := (cacheExpireEntry s.cache (metadataCacheMakeKey owner tableName) s.now).1 }
  | .evict => { s with cache := cacheEvictExpired s.cache s.now }
  | .wait seconds => { s with now := s.now + seconds }

def run (s : MetaState) (steps : List MetaStep) : MetaState := steps.foldl step s

/-- The last store under a key. -/
def latest (s : MetaState) (key : CString) : Option StoredColumns :=
  s.stores.find? fun w => w.key == key

/-- What lies under a key is the payload of the last store under it. -/
def Current (s : MetaState) : Prop :=
  s.cache.Serves s.now fun key doc =>
    ∃ w, s.latest key = some w ∧ w.cols.1 ≠ [] ∧ doc = metadataPayload w.cols

theorem start_current (cfg : CacheConfig) (hash : CString → Nat) (now : Int) :
    (start cfg hash now).Current := cacheCreate_serves cfg hash List.length now _

theorem latest_landed {s : MetaState} {owner tableName : CString} {cols : Columns} {buffer : Bool}
    {alloc : AllocOutcome} (lands : s.Lands owner tableName cols buffer alloc = true) :
    (s.step (.store owner tableName cols buffer alloc)).latest
      (metadataCacheMakeKey owner tableName) = some ⟨owner, tableName, cols⟩ := by
  have stores : (s.step (.store owner tableName cols buffer alloc)).stores =
      ⟨owner, tableName, cols⟩ :: s.stores := if_pos lands
  rw [latest, stores]
  exact List.find?_cons_of_pos (beq_self_eq_true _)

theorem store_landed {s : MetaState} (current : s.Current) {owner tableName : CString}
    {cols : Columns} {buffer : Bool} {alloc : AllocOutcome}
    (lands : s.Lands owner tableName cols buffer alloc = true) :
    (s.step (.store owner tableName cols buffer alloc)).Current := by
  have stores : (s.step (.store owner tableName cols buffer alloc)).stores =
      ⟨owner, tableName, cols⟩ :: s.stores := if_pos lands
  have last := latest_landed lands
  simp only [Lands, Bool.and_eq_true, Bool.not_eq_true', List.isEmpty_eq_false_iff] at lands
  obtain ⟨⟨filled, rfl⟩, landed⟩ := lands
  have inserted : (s.step (.store owner tableName cols true alloc)).cache =
      (cacheInsert s.cache (metadataCacheMakeKey owner tableName) (metadataPayload cols) none
        s.now alloc).1 := by
    change (Payload.metadataCacheStore _ _ _ _ _ _).1 = _
    rw [Payload.metadataCacheStore, if_neg filled, if_neg (by decide)]
  rw [Current, inserted]
  refine Cache.Serves.replace current landed ?_ ?_
  · exact ⟨⟨owner, tableName, cols⟩, last, filled, rfl⟩
  · rintro key doc other ⟨w, last, rest⟩
    refine ⟨w, ?_, rest⟩
    rw [latest, stores, List.find?_cons_of_neg (by rw [beq_iff_eq]; exact Ne.symm other)]
    exact last

theorem store_skipped {s : MetaState} (current : s.Current) {owner tableName : CString}
    {cols : Columns} {buffer : Bool} {alloc : AllocOutcome}
    (skipped : s.Lands owner tableName cols buffer alloc = false) :
    (s.step (.store owner tableName cols buffer alloc)).Current := by
  have stores : (s.step (.store owner tableName cols buffer alloc)).stores = s.stores :=
    if_neg (by rw [skipped]; decide)
  rw [Current]
  simp only [latest, stores]
  change Cache.Serves (Payload.metadataCacheStore _ _ _ _ _ _).1 _ _
  unfold Payload.metadataCacheStore
  split
  · exact current
  next filled =>
  split
  · exact current
  next made =>
  have absent : InsertLands s.cache (metadataCacheMakeKey owner tableName) alloc = false := by
    rw [Bool.not_eq_true', Bool.not_eq_false] at made
    rw [Lands, made, Bool.and_true, Bool.and_eq_false_iff] at skipped
    rcases skipped with empty | absent
    · rw [Bool.not_eq_false', List.isEmpty_iff] at empty
      exact absurd empty filled
    · exact absent
  have smaller : (cacheInsert s.cache _ (metadataPayload cols) none s.now alloc).1.Shrinks
      s.cache := cacheInsert_shrinks absent
  exact Cache.Serves.ages current (cacheInsert_keyed (Cache.Serves.keyed current))
    smaller.enabled (smaller.ages s.now)

theorem store_current {s : MetaState} (current : s.Current) (owner tableName : CString)
    (cols : Columns) (buffer : Bool) (alloc : AllocOutcome) :
    (s.step (.store owner tableName cols buffer alloc)).Current := by
  cases lands : s.Lands owner tableName cols buffer alloc with
  | true => exact store_landed current lands
  | false => exact store_skipped current lands

theorem step_current {s : MetaState} (current : s.Current) (clock : 1 < s.now) (step : MetaStep) :
    (s.step step).Current ∧ 1 < (s.step step).now := by
  cases step with
  | lookup owner tableName => exact ⟨current.lookup _, clock⟩
  | release addr => exact ⟨current.release addr, clock⟩
  | store owner tableName cols buffer alloc =>
    exact ⟨store_current current owner tableName cols buffer alloc, clock⟩
  | invalidate owner tableName => exact ⟨current.expireEntry clock _, clock⟩
  | evict => exact ⟨current.evictExpired, clock⟩
  | wait seconds =>
    have later : s.now ≤ s.now + seconds := by omega
    exact ⟨Cache.Serves.later current later fun _ _ _ _ _ same => same, by
      change 1 < s.now + (seconds : Int)
      omega⟩

theorem run_current {s : MetaState} (current : s.Current) (clock : 1 < s.now)
    (steps : List MetaStep) : (s.run steps).Current := by
  induction steps generalizing s with
  | nil => exact current
  | cons step steps ih =>
    obtain ⟨kept, ticking⟩ := step_current current clock step
    exact ih kept ticking

/-- What a lookup of a key hands out is read back as the last list stored under it. -/
theorem Current.read {s : MetaState} (current : s.Current) {key : CString}
    {hit : CacheEntry (List Byte)} (found : (cacheLookup s.cache key s.now).2 = some hit) :
    ∃ w, s.latest key = some w ∧ ∀ maxCols,
      Payload.metadataCacheDeserialise hit.outputDocument maxCols =
        if (w.cols.1.length : Int) ≤ maxCols then some w.cols.1 else none := by
  obtain ⟨w, last, filled, same⟩ := Cache.Serves.hit current found (Or.inl rfl)
  refine ⟨w, last, fun maxCols => ?_⟩
  rw [same, metadataCacheDeserialise_payload w.cols filled]

/-- `metadata_cache_get_or_fetch`; `described` is what the driver brings if it is asked. -/
def getOrFetch (s : MetaState) (owner tableName : CString) (maxCols : Int)
    (described : Option Columns) (buffer : Bool) (alloc : AllocOutcome) :
    MetaState × Option (List ColMetadata) :=
  if maxCols ≤ 0 then (s, none)
  else
    match (cacheLookup s.cache (metadataCacheMakeKey owner tableName) s.now).2 with
    | some hit =>
      let read := Payload.metadataCacheDeserialise hit.outputDocument maxCols
      let after := (s.step (.lookup owner tableName)).step (.release hit.addr)
      if read.isSome then (after, read)
      else (after.step (.invalidate owner tableName), described.map (·.1))
    | none =>
      let after := s.step (.lookup owner tableName)
      match described with
      | none => (after, none)
      | some cols => (after.step (.store owner tableName cols buffer alloc), some cols.1)

/-- A request works with the columns that were stored last under its key or with those that the
driver brings. -/
theorem Current.getOrFetch {s : MetaState} (current : s.Current) {owner tableName : CString}
    {maxCols : Int} {described : Option Columns} {buffer : Bool} {alloc : AllocOutcome}
    {cols : List ColMetadata}
    (answered : (s.getOrFetch owner tableName maxCols described buffer alloc).2 = some cols) :
    (∃ w, s.latest (metadataCacheMakeKey owner tableName) = some w ∧ cols = w.cols.1) ∨
      described.map (·.1) = some cols := by
  unfold MetaState.getOrFetch at answered
  split at answered
  · cases answered
  · split at answered
    · next hit found =>
      obtain ⟨w, last, read⟩ := current.read found
      dsimp only at answered
      split at answered
      · dsimp only at answered
        rw [read] at answered
        split at answered
        · exact Or.inl ⟨w, last, (Option.some.inj answered).symm⟩
        · cases answered
      · exact Or.inr answered
    · split at answered
      · cases answered
      · exact Or.inr answered

/-- A landed store is served to the next lookup of its key. -/
theorem found_of_lands {s : MetaState} {owner tableName : CString} {cols : Columns}
    {buffer : Bool} {alloc : AllocOutcome}
    (lands : s.Lands owner tableName cols buffer alloc = true) :
    ∃ hit, (cacheLookup (s.step (.store owner tableName cols buffer alloc)).cache
      (metadataCacheMakeKey owner tableName) s.now).2 = some hit := by
  simp only [Lands, Bool.and_eq_true, Bool.not_eq_true', List.isEmpty_eq_false_iff] at lands
  obtain ⟨⟨filled, rfl⟩, landed⟩ := lands
  apply Option.isSome_iff_exists.mp
  change (cacheLookup (Payload.metadataCacheStore _ _ _ _ _ _).1 _ _).2.isSome = true
  rw [Payload.metadataCacheStore, if_neg filled, if_neg (by decide)]
  exact cacheInsert_lands landed

end MetaState

end Runs

section Keys

/-- Names of which no dot joins others: the owner's, and the table's where it stands alone. -/
def Unambiguous (owner tableName : CString) : Prop :=
  '.' ∉ owner ∧ (owner = [] → '.' ∉ tableName)

theorem toUpper_ne_dot {c : Char} (other : c ≠ '.') : c.toUpper ≠ '.' := by
  intro dot
  cases alpha : c.isAlpha with
  | false => exact other (by rwa [toUpper_of_not_alpha alpha] at dot)
  | true =>
    rw [← Char.isAlpha_toUpper_eq_isAlpha, dot] at alpha
    cases alpha

theorem dot_notMem_metaUpperCopy {name : CString} (dotless : '.' ∉ name) :
    '.' ∉ metaUpperCopy name := by
  intro member
  obtain ⟨c, taken, dot⟩ := List.mem_map.mp member
  exact toUpper_ne_dot (fun same => dotless (same ▸ List.mem_of_mem_take taken)) dot

theorem metaUpperCopy_eq_nil {name : CString} : metaUpperCopy name = [] ↔ name = [] := by
  rw [metaUpperCopy, List.map_eq_nil_iff, List.take_eq_nil_iff]
  exact or_iff_right (by decide)

theorem eq_of_dotted {a b s t : CString} (first : '.' ∉ a) (second : '.' ∉ b)
    (same : a ++ '.' :: s = b ++ '.' :: t) : a = b ∧ s = t := by
  induction a generalizing b with
  | nil =>
    cases b with
    | nil => exact ⟨rfl, (List.cons.inj same).2⟩
    | cons d b =>
      obtain ⟨rfl, -⟩ := List.cons.inj same
      exact absurd List.mem_cons_self second
  | cons c a ih =>
    cases b with
    | nil =>
      obtain ⟨rfl, -⟩ := List.cons.inj same
      exact absurd List.mem_cons_self first
    | cons d b =>
      obtain ⟨rfl, rest⟩ := List.cons.inj same
      obtain ⟨rfl, rfl⟩ := ih (fun member => first (List.mem_cons_of_mem _ member))
        (fun member => second (List.mem_cons_of_mem _ member)) rest
      exact ⟨rfl, rfl⟩

/-- Names without a joining dot share a key only if they differ in case alone. -/
theorem metadataCacheMakeKey_inj {owner tableName owner' tableName' : CString}
    (plain : Unambiguous owner tableName) (plain' : Unambiguous owner' tableName') :
    metadataCacheMakeKey owner tableName = metadataCacheMakeKey owner' tableName' ↔
      metaUpperCopy owner = metaUpperCopy owner' ∧
        metaUpperCopy tableName = metaUpperCopy tableName' := by
  obtain ⟨dotless, bare⟩ := plain
  obtain ⟨dotless', bare'⟩ := plain'
  have joins : ∀ {a b t : CString}, '.' ∉ t → metaUpperCopy t ≠ a ++ '.' :: b := by
    intro a b t noDot same
    refine dot_notMem_metaUpperCopy noDot ?_
    rw [same]
    exact List.mem_append_right a List.mem_cons_self
  rw [metadataCacheMakeKey, metadataCacheMakeKey]
  by_cases none : owner = []
  · by_cases none' : owner' = []
    · rw [if_pos none, if_pos none', none, none']
      exact ⟨fun same => ⟨rfl, same⟩, fun same => same.2⟩
    · rw [if_pos none, if_neg none', none]
      constructor
      · intro same
        exact absurd same (joins (bare none))
      · rintro ⟨empty, -⟩
        exact absurd (metaUpperCopy_eq_nil.mp empty.symm) none'
  · by_cases none' : owner' = []
    · rw [if_neg none, if_pos none', none']
      constructor
      · intro same
        exact absurd same.symm (joins (bare' none'))
      · rintro ⟨empty, -⟩
        exact absurd (metaUpperCopy_eq_nil.mp empty) none
    · rw [if_neg none, if_neg none']
      constructor
      · exact eq_of_dotted (dot_notMem_metaUpperCopy dotless) (dot_notMem_metaUpperCopy dotless')
      · rintro ⟨owners, tables⟩
        rw [owners, tables]

end Keys

/-- In every course of calls, columns are read back as they were stored last under their key, and
tables share a key only if their names differ in case, or in dots, or behind 127 characters. -/
theorem metadata_cache_round_trip (cfg : CacheConfig) (hash : CString → Nat) (now : Int)
    (clock : 1 < now) (steps : List MetaStep) :
    let s := (MetaState.start cfg hash now).run steps
    (∀ key hit, (cacheLookup s.cache key s.now).2 = some hit →
      ∃ w, s.latest key = some w ∧ ∀ maxCols,
        Payload.metadataCacheDeserialise hit.outputDocument maxCols =
          if (w.cols.1.length : Int) ≤ maxCols then some w.cols.1 else none) ∧
    (∀ owner tableName maxCols described buffer alloc cols,
      (s.getOrFetch owner tableName maxCols described buffer alloc).2 = some cols →
      (∃ w, s.latest (metadataCacheMakeKey owner tableName) = some w ∧ cols = w.cols.1) ∨
        described.map (·.1) = some cols) ∧
    (∀ owner tableName cols buffer alloc, s.Lands owner tableName cols buffer alloc = true →
      ∃ hit, (cacheLookup (s.step (.store owner tableName cols buffer alloc)).cache
          (metadataCacheMakeKey owner tableName) s.now).2 = some hit ∧
        ∀ maxCols, (cols.1.length : Int) ≤ maxCols →
          Payload.metadataCacheDeserialise hit.outputDocument maxCols = some cols.1) ∧
    ∀ owner tableName owner' tableName', Unambiguous owner tableName →
      Unambiguous owner' tableName' →
      (metadataCacheMakeKey owner tableName = metadataCacheMakeKey owner' tableName' ↔
        metaUpperCopy owner = metaUpperCopy owner' ∧
          metaUpperCopy tableName = metaUpperCopy tableName') := by
  intro s
  have current : s.Current :=
    MetaState.run_current (MetaState.start_current cfg hash now) clock steps
  refine ⟨fun key hit found => current.read found, ?_, ?_, ?_⟩
  · intro owner tableName maxCols described buffer alloc cols answered
    exact current.getOrFetch answered
  · intro owner tableName cols buffer alloc lands
    obtain ⟨hit, found⟩ := MetaState.found_of_lands lands
    refine ⟨hit, found, fun maxCols room => ?_⟩
    obtain ⟨w, last, read⟩ := (MetaState.store_landed current lands).read found
    rw [MetaState.latest_landed lands] at last
    cases last
    rw [read, if_pos room]
  · intro owner tableName owner' tableName' plain plain'
    exact metadataCacheMakeKey_inj plain plain'

def emptyColumn : ColMetadata where
  colName := .replicate 128 0
  dataType := .replicate 128 0
  dataLength := 0
  dataPrecision := -1
  dataScale := -1
  nullable := .replicate 4 0
  dataDefault := .replicate 512 0
  sourceTable := .replicate 128 0

theorem metadata_cache_round_trip_served :
    let s := (MetaState.start ⟨8, 8, 100000, 60, true⟩ List.length 100).run
      [.lookup [] "EMP".toList, .wait 5]
    ∃ hit, (cacheLookup (s.step (.store "HR".toList "EMP".toList
        ⟨[emptyColumn, emptyColumn], by decide +kernel⟩ true ⟨true, true, true⟩)).cache
        (metadataCacheMakeKey "HR".toList "EMP".toList) s.now).2 = some hit ∧
      ∀ maxCols, 2 ≤ maxCols →
        Payload.metadataCacheDeserialise hit.outputDocument maxCols =
          some [emptyColumn, emptyColumn] :=
  (metadata_cache_round_trip ⟨8, 8, 100000, 60, true⟩ List.length 100 (by decide)
    [.lookup [] "EMP".toList, .wait 5]).2.2.1 "HR".toList "EMP".toList
    ⟨[emptyColumn, emptyColumn], by decide +kernel⟩ true ⟨true, true, true⟩ (by decide +kernel)

/-- Names that differ in case share a key, as do names with dots; an empty list of columns and one
that is longer than the caller's array are not read back. -/
theorem metadata_cache_shares_entries :
    ¬(∀ owner tableName owner' tableName',
      metadataCacheMakeKey owner tableName = metadataCacheMakeKey owner' tableName' →
      owner = owner' ∧ tableName = tableName') ∧
    metadataCacheMakeKey "HR".toList "EMP.OLD".toList =
      metadataCacheMakeKey "HR.EMP".toList "OLD".toList ∧
    ¬∀ (cols : Columns) maxCols,
      Payload.metadataCacheDeserialise (metadataPayload cols) maxCols = some cols.1 := by
  refine ⟨fun keys => ?_, by decide, fun reads => ?_⟩
  · have same := keys "hr".toList "emp".toList "HR".toList "EMP".toList (by decide)
    exact absurd same.1 (by decide)
  · have read := reads ⟨[], by decide⟩ 1024
    exact absurd read (by decide +kernel)

end OciWrapper.Infra
