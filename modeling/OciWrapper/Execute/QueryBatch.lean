import OciWrapper.Core.SqlDependencyExtractor
import OciWrapper.Infra.CacheKey
import OciWrapper.Infra.CacheEntries

namespace OciWrapper.Execute

open OciWrapper.Text OciWrapper.Core OciWrapper.Infra

/-- The part of `execute_config_t` that decides how a SELECT runs. -/
structure ExecuteConfig where
  sql : CString
  wantJson : Bool
  isAsync : Bool

/-- A rendered result: the rows and the text they answer. -/
structure ResultDoc (Rows : Type) where
  sql : CString
  rows : Rows

/-- What the database and the allocator do for one SELECT: whether the count
    query fits its buffer, what counting and fetching bring, whether the JSON
    rendering succeeds. -/
structure QueryOutcome (Rows : Type) where
  countFits : Bool
  fetched : Option Rows
  jsonRendered : Bool
  alloc : AllocOutcome

def skipLeadingBlanks : CString → CString
  | [] => []
  | [c] => if c.toNat ≤ 0x20 then [] else [c]
  | c :: d :: s =>
    if c.toNat ≤ 0x20 then skipLeadingBlanks (d :: s)
    else if c.toNat = 0xC2 ∧ d.toNat = 0xA0 then skipLeadingBlanks s
    else c :: d :: s

/-- The backward scan of `trim_sql_inplace`, on the reversed text. -/
def skipTrailingBlanks : CString → CString
  | [] => []
  | [c] => if c.toNat ≤ 0x20 ∨ c.toNat = 0xA0 then [] else [c]
  | c :: d :: s =>
    if c.toNat ≤ 0x20 then skipTrailingBlanks (d :: s)
    else if c.toNat = 0xA0 then
      if d.toNat = 0xC2 then skipTrailingBlanks s else skipTrailingBlanks (d :: s)
    else c :: d :: s

def trimSqlInplace (sql : CString) : CString :=
  (skipTrailingBlanks (skipLeadingBlanks sql).reverse).reverse

/-- `sizeof(table_tag)`. -/
def tableTagSize : Nat := 512

def appendTag (tag : CString) (object : ObjectRef) : CString :=
  if object.objectName = [] then tag
  else
    let tag := if 0 < tag.length ∧ tag.length < tableTagSize - 1 then tag ++ [','] else tag
    tag ++ object.objectName.take (tableTagSize - 1 - tag.length)

def tableTag (deps : DependencyList) : CString := deps.objects.foldl appendTag []

variable {Rows : Type}

/-- Block A: an asynchronous request is never served from the cache, and a JSON
    request is not served a document that has no JSON. -/
def cacheServe (cache : Cache (ResultDoc Rows)) (cfg : ExecuteConfig) (now : Int) :
    Cache (ResultDoc Rows) × Option (ResultDoc Rows) :=
  if cfg.isAsync then (cache, none)
  else
    match resultsetCacheMakeKey cfg.sql cacheKeySize with
    | none => (cache, none)
    | some key =>
      match cacheLookup cache key now with
      | (cache, none) => (cache, none)
      | (cache, some hit) =>
        (cacheRelease cache hit.addr,
          if cfg.wantJson then hit.outputDocumentJson else some hit.outputDocument)

/-- `response_writer_cache_store`, as `execute_query_batch` calls it. -/
def cacheStore (cache : Cache (ResultDoc Rows)) (cfg : ExecuteConfig) (deps : DependencyList)
    (rows : Rows) (now : Int) (outcome : QueryOutcome Rows) : Cache (ResultDoc Rows) :=
  if cfg.isAsync || !outcome.jsonRendered then cache
  else
    match resultsetCacheMakeKey cfg.sql cacheKeySize with
    | none | some [] => cache
    | some key =>
      let opts : CacheEntryOpts (ResultDoc Rows) := {
        ttlSeconds := 0
        pinned := false
        outputDocumentJson := some ⟨cfg.sql, rows⟩
        tableDependencyTag := if tableTag deps = [] then none else some (tableTag deps)
        tracingBytes := 0 }
      (cacheInsert cache key ⟨cfg.sql, rows⟩ (some opts) now outcome.alloc).1

inductive QueryResult (Rows : Type)
  | failed
  | served (doc : ResultDoc Rows)
  | executed (doc : ResultDoc Rows)

def executeQueryBatch (cache : Cache (ResultDoc Rows)) (request : ExecuteConfig) (now : Int)
    (outcome : QueryOutcome Rows) : Cache (ResultDoc Rows) × QueryResult Rows :=
  let cfg := { request with sql := trimSqlInplace request.sql }
  match extractSqlDependencies cfg.sql with
  | none => (cache, .failed)
  | some deps =>
    match cacheServe cache cfg now with
    | (cache, some doc) => (cache, .served doc)
    | (cache, none) =>
      if !outcome.countFits then (cache, .failed)
      else
        match outcome.fetched with
        | none => (cache, .failed)
        | some rows => (cacheStore cache cfg deps rows now outcome, .executed ⟨cfg.sql, rows⟩)

end OciWrapper.Execute
