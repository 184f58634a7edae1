import OciWrapper.Infra.KeyedCache
import OciWrapper.Text.Numerals
import OciWrapper.Text.Search

namespace OciWrapper.Infra

open OciWrapper.Text

inductive SessionStatus
  | created | active | expired | loggedOut | expiredOrphan
  deriving DecidableEq

structure SessionRecord where
  sessionId : CString
  status : SessionStatus
  createdTs : Int
  lastActivityTs : Int
  ttlSeconds : Int
  clientId : CString
  clientIp : CString
  clientHost : CString
  applicationName : CString
  deriving DecidableEq

def sessionStatusStr : SessionStatus → CString
  | .created => "CREATED".toList
  | .active => "ACTIVE".toList
  | .expired => "EXPIRED".toList
  | .loggedOut => "LOGGED_OUT".toList
  | .expiredOrphan => "EXPIRED_ORPHAN".toList

def sessionStatusFromStr (s : CString) : SessionStatus :=
  if strcasecmp s "ACTIVE".toList then .active
  else if strcasecmp s "EXPIRED".toList then .expired
  else if strcasecmp s "LOGGED_OUT".toList then .loggedOut
  else if strcasecmp s "EXPIRED_ORPHAN".toList then .expiredOrphan
  else .created

def encodingVersion : CString := "SC1".toList

def encodedMax : Nat := 1024

def orDash (s : CString) : CString := if s = [] then ['-'] else s

/-- `session_cache_encode`, once its buffer is allocated. -/
def sessionCacheEncode (rec : SessionRecord) : Option CString :=
  let text := ['|'].intercalate
    [encodingVersion, rec.sessionId, sessionStatusStr rec.status, Text.decimal rec.createdTs,
      Text.decimal rec.lastActivityTs, Text.decimal rec.ttlSeconds, orDash rec.clientId,
      orDash rec.clientIp, orDash rec.clientHost, orDash rec.applicationName]
  if encodedMax ≤ text.length then none else some text

/-- A token copied into an optional field of `size` bytes. -/
def optionalField (tokens : List CString) (i size : Nat) : CString :=
  match tokens[i]? with
  | some token => if token = ['-'] then [] else token.take (size - 1)
  | none => []

def sessionCacheDecode (encoded : CString) : Option SessionRecord :=
  match strtokAll '|' (encoded.take (encodedMax - 1)) with
  | version :: sessionId :: status :: created :: lastActivity :: ttl :: rest =>
    if version = encodingVersion then
      some {
        sessionId := sessionId.take 36
        status := sessionStatusFromStr status
        createdTs := atol created
        lastActivityTs := atol lastActivity
        ttlSeconds := atol ttl
        clientId := optionalField rest 0 128
        clientIp := optionalField rest 1 64
        clientHost := optionalField rest 2 128
        applicationName := optionalField rest 3 128 }
    else none
  | _ => none

/-- What `entry_memory_size` counts for a tracing field that is set. -/
def tracingField (s : CString) : Nat := if s = [] then 0 else s.length + 1

def sessionEntryOpts (rec : SessionRecord) : CacheEntryOpts CString where
  ttlSeconds := rec.ttlSeconds
  pinned := false
  outputDocumentJson := none
  tableDependencyTag := none
  tracingBytes :=
    tracingField rec.clientIp + tracingField rec.clientHost + tracingField rec.clientId

/-- `session_cache_store`; `buffer` tells whether the buffer of the encoding is allocated. -/
def sessionCacheStore (cache : Cache CString) (rec : SessionRecord) (now : Int) (buffer : Bool)
    (alloc : AllocOutcome) : Cache CString × Bool :=
  if rec.sessionId = [] then (cache, false)
  else
    match (if buffer then sessionCacheEncode rec else none) with
    | none => (cache, false)
    | some doc => cacheInsert cache rec.sessionId doc (some (sessionEntryOpts rec)) now alloc

/-- Whether a store of the record puts an entry into the cache. -/
def StoreLands (cache : Cache CString) (rec : SessionRecord) (buffer : Bool)
    (alloc : AllocOutcome) : Bool :=
  decide (rec.sessionId ≠ []) && buffer && (sessionCacheEncode rec).isSome &&
    InsertLands cache rec.sessionId alloc

section Store

variable {cache : Cache CString} {rec : SessionRecord} {now : Int} {buffer : Bool}
  {alloc : AllocOutcome}

theorem sessionCacheStore_keyed (keyed : cache.Keyed) :
    (sessionCacheStore cache rec now buffer alloc).1.Keyed := by
  simp only [sessionCacheStore]
  split
  · exact keyed
  · split
    · exact keyed
    · exact cacheInsert_keyed keyed

theorem sessionCacheStore_holds {e : CacheEntry CString}
    (held : (sessionCacheStore cache rec now buffer alloc).1.Holds e) :
    (∃ o, cache.Holds o ∧ e.Stems now o) ∨ e.normalizedSql = rec.sessionId := by
  simp only [sessionCacheStore] at held
  split at held
  · exact .inl ⟨e, held, .refl now e⟩
  · split at held
    · exact .inl ⟨e, held, .refl now e⟩
    · rcases cacheInsert_holds held with old | stored
      · exact .inl old
      · exact .inr stored.normalizedSql

theorem sessionCacheStore_shrinks (fails : StoreLands cache rec buffer alloc = false) :
    (sessionCacheStore cache rec now buffer alloc).1.Shrinks cache := by
  simp only [StoreLands, Bool.and_eq_false_iff] at fails
  simp only [sessionCacheStore]
  split
  · exact .refl cache
  · rename_i name
    split
    · exact .refl cache
    · rename_i doc encoded
      rcases fails with ((unnamed | off) | unencoded) | skipped
      · simp [name] at unnamed
      · simp [off] at encoded
      · split at encoded
        · simp [encoded] at unencoded
        · cases encoded
      · exact cacheInsert_shrinks skipped

/-- A record that lands is served by the next lookup of its session. -/
theorem sessionCacheStore_lands (lands : StoreLands cache rec buffer alloc = true) :
    ((cacheLookup (sessionCacheStore cache rec now buffer alloc).1 rec.sessionId now).2).isSome =
      true := by
  simp only [StoreLands, Bool.and_eq_true, decide_eq_true_eq] at lands
  obtain ⟨⟨⟨name, allocated⟩, encoded⟩, lands⟩ := lands
  obtain ⟨doc, text⟩ := Option.isSome_iff_exists.mp encoded
  simp only [sessionCacheStore, if_neg name, allocated, if_true, text]
  exact cacheInsert_lands lands

end Store

end OciWrapper.Infra
