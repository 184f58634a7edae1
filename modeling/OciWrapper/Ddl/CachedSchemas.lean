import OciWrapper.Concurrent.Runs
import OciWrapper.Ddl.DdlExecuteModule
import OciWrapper.Execute.ServedSelects
import OciWrapper.Infra.MetadataCache

namespace OciWrapper.Ddl

open OciWrapper.Text OciWrapper.Core OciWrapper.Infra OciWrapper.Execute OciWrapper.Concurrent

variable {T Col Rows : Type}

/-- How names stand for the tables of the database: the owner and the table name
    of a request, and the tables that the text of a SELECT reads. -/
structure Names (T : Type) where
  table : CString → CString → T
  reads : CString → T → Prop

inductive DdlOperation
  | createTable
  | dropTable
  | createView

inductive DmlOperation
  | insert
  | update
  | delete

/-- A request with what the database and the allocator bring to it. `checked`
    tells whether the checks before the metadata lookup pass; `written` is an
    insert, update or delete that succeeded. -/
inductive Request (T Col Rows : Type)
  | ddl (operation : DdlOperation) (table : T) (result : DdlExecutionResult)
  | validate (operation : DmlOperation) (owner tableName : CString) (checked : Bool)
    (outcome : DescribeOutcome Col)
  | select (request : ExecuteConfig) (outcome : QueryOutcome Rows)
  | written (operation : DmlOperation) (tableName : CString)
  | evictExpired
  | tick (seconds : Nat)

/-- The two caches and the clock; `requests` numbers the requests, and `ddls` are
    the DDL requests that succeeded, each with its number. -/
structure Gateway (T Col Rows : Type) where
  metadata : Cache (Stored (List Col))
  results : Cache (ResultDoc (Stored Rows))
  now : Int
  requests : Nat
  ddls : List (T × Nat)

/-- The rows that a SELECT fetches are numbered with its request. -/
def numbered (outcome : QueryOutcome Rows) (request : Nat) : QueryOutcome (Stored Rows) :=
  { outcome with fetched := outcome.fetched.map fun rows => ⟨rows, request⟩ }

namespace Gateway

def start (metadataCfg resultsCfg : CacheConfig) (hash : CString → Nat)
    (colBytes : Stored (List Col) → Nat) (docBytes : ResultDoc (Stored Rows) → Nat) (now : Int) :
    Gateway T Col Rows :=
  ⟨cacheCreate metadataCfg hash colBytes, cacheCreate resultsCfg hash docBytes, now, 0, []⟩

/-- The metadata step of `level2_validate_insert`, `_update` and `_delete`. -/
def level2Metadata (g : Gateway T Col Rows) (owner tableName : CString) (checked : Bool)
    (outcome : DescribeOutcome Col) : Cache (Stored (List Col)) × Metadata Col :=
  if !checked then (g.metadata, .failed)
  else metadataCacheGetOrFetch g.metadata owner tableName g.requests g.now outcome

def query (g : Gateway T Col Rows) (request : ExecuteConfig) (outcome : QueryOutcome Rows) :
    Cache (ResultDoc (Stored Rows)) × QueryResult (Stored Rows) :=
  executeQueryBatch g.results request g.now (numbered outcome g.requests)

/-- What a request does to the caches; a DDL request does nothing to them. -/
def handle (g : Gateway T Col Rows) : Request T Col Rows → Gateway T Col Rows
  | .ddl _ table result =>
    if result.success then { g with ddls := (table, g.requests) :: g.ddls } else g
  | .validate _ owner tableName checked outcome =>
    { g with metadata := (g.level2Metadata owner tableName checked outcome).1 }
  | .select request outcome => { g with results := (g.query request outcome).1 }
  | .written _ tableName => { g with results := cacheInvalidateByTag g.results tableName g.now }
  | .evictExpired =>
    { g with
      metadata := cacheEvictExpired g.metadata g.now
      results := cacheEvictExpired g.results g.now }
  | .tick seconds => { g with now := g.now + seconds }

def step (g : Gateway T Col Rows) (request : Request T Col Rows) : Gateway T Col Rows :=
  { g.handle request with requests := g.requests + 1 }

/-- The request works with columns, or is served a result, that was cached before
    a DDL request on its table succeeded. -/
def Outdated (names : Names T) (g : Gateway T Col Rows) : Request T Col Rows → Prop
  | .validate _ owner tableName checked outcome =>
    ∃ cols, (g.level2Metadata owner tableName checked outcome).2 = .cached cols ∧
      ∃ number, (names.table owner tableName, number) ∈ g.ddls ∧ cols.storedAt < number
  | .select request outcome =>
    ∃ doc, (g.query request outcome).2 = .served doc ∧
      ∃ table number, names.reads (trimSqlInplace request.sql) table ∧
        (table, number) ∈ g.ddls ∧ doc.rows.storedAt < number
  | _ => False

/-- No request that comes next can be answered from what a DDL request has outdated. -/
def UpToDate (names : Names T) (g : Gateway T Col Rows) : Prop :=
  ∀ next, ¬ g.Outdated names next

/-- The key of the metadata cache is one of this table's. -/
def MetadataKey (names : Names T) (table : T) (key : CString) : Prop :=
  ∃ owner tableName, metadataCacheMakeKey owner tableName = key ∧
    names.table owner tableName = table

/-- The key of the resultset cache is that of a SELECT that reads the table. -/
def ResultKey (names : Names T) (table : T) (key : CString) : Prop :=
  ∃ sql, names.reads (trimSqlInplace sql) table ∧
    (extractSqlDependencies (trimSqlInplace sql)).isSome = true ∧
    resultsetCacheMakeKey (trimSqlInplace sql) cacheKeySize = some key

/-- When a DDL request succeeds, neither cache has a live entry under a key of its table. -/
def NothingCached (names : Names T) (g : Gateway T Col Rows) : Request T Col Rows → Prop
  | .ddl _ table result => result.success = true →
    (∀ e, g.metadata.Holds e → MetadataKey names table e.normalizedSql →
        e.expired g.now = true) ∧
      ∀ e, g.results.Holds e → ResultKey names table e.normalizedSql → e.expired g.now = true
  | _ => True

/-- What the live entries of the caches are like between two requests. -/
def SuitsMetadata (names : Names T) (requests : Nat) (ddls : List (T × Nat)) (key : CString)
    (cols : Stored (List Col)) : Prop :=
  Readable cols.value ∧ cols.storedAt < requests ∧
    ∀ table number, (table, number) ∈ ddls → MetadataKey names table key → number < cols.storedAt

def SuitsResults (names : Names T) (requests : Nat) (ddls : List (T × Nat)) (key : CString)
    (doc : ResultDoc (Stored Rows)) : Prop :=
  doc.rows.storedAt < requests ∧
    ∀ table number, (table, number) ∈ ddls → ResultKey names table key →
      number < doc.rows.storedAt

structure Current (names : Names T) (g : Gateway T Col Rows) : Prop where
  clock : 1 < g.now
  past : ∀ table number, (table, number) ∈ g.ddls → number < g.requests
  metadata : g.metadata.Serves g.now (SuitsMetadata names g.requests g.ddls)
  results : g.results.Serves g.now (SuitsResults names g.requests g.ddls)

variable {names : Names T} {g : Gateway T Col Rows}

theorem SuitsMetadata.later {requests : Nat} {ddls : List (T × Nat)} {key : CString}
    {cols : Stored (List Col)} (suits : SuitsMetadata names requests ddls key cols) :
    SuitsMetadata names (requests + 1) ddls key cols :=
  ⟨suits.1, Nat.lt_succ_of_lt suits.2.1, suits.2.2⟩

theorem SuitsResults.later {requests : Nat} {ddls : List (T × Nat)} {key : CString}
    {doc : ResultDoc (Stored Rows)} (suits : SuitsResults names requests ddls key doc) :
    SuitsResults names (requests + 1) ddls key doc :=
  ⟨Nat.lt_succ_of_lt suits.1, suits.2⟩

theorem Current.lookahead (current : g.Current names) :
    g.metadata.Serves g.now (SuitsMetadata names (g.requests + 1) g.ddls) ∧
      g.results.Serves g.now (SuitsResults names (g.requests + 1) g.ddls) :=
  ⟨current.metadata.later (Int.le_refl _) fun _ _ _ _ _ suits => suits.later,
    current.results.later (Int.le_refl _) fun _ _ _ _ _ suits => suits.later⟩

/-- What this request describes or fetches is newer than every DDL request before it. -/
theorem Current.metadata_suits (current : g.Current names) (key : CString) {cols : List Col}
    (readable : Readable cols) :
    SuitsMetadata names (g.requests + 1) g.ddls key ⟨cols, g.requests⟩ :=
  ⟨readable, Nat.lt_succ_self _, fun table number earlier _ => current.past table number earlier⟩

theorem Current.results_suit (current : g.Current names) (key sql : CString) (rows : Rows) :
    SuitsResults names (g.requests + 1) g.ddls key ⟨sql, ⟨rows, g.requests⟩⟩ :=
  ⟨Nat.lt_succ_self _, fun table number earlier _ => current.past table number earlier⟩

theorem Current.level2 (current : g.Current names) (owner tableName : CString) (checked : Bool)
    (outcome : DescribeOutcome Col) :
    (g.level2Metadata owner tableName checked outcome).1.Serves g.now
      (SuitsMetadata names (g.requests + 1) g.ddls) := by
  unfold level2Metadata
  split
  · exact current.lookahead.1
  · exact metadataCacheGetOrFetch_serves current.lookahead.1 current.clock fun cols readable =>
      current.metadata_suits _ readable

theorem Current.query (current : g.Current names) (request : ExecuteConfig)
    (outcome : QueryOutcome Rows) :
    (g.query request outcome).1.Serves g.now (SuitsResults names (g.requests + 1) g.ddls) := by
  apply executeQueryBatch_serves current.lookahead.2
  intro key rows fetched made
  obtain ⟨plain, -, rfl⟩ := Option.map_eq_some_iff.mp fetched
  exact current.results_suit key _ plain

/-- Where nothing of its table is cached, a DDL request outdates no live entry. -/
theorem Current.ddl (current : g.Current names) {operation : DdlOperation} {table : T}
    {result : DdlExecutionResult} (nothing : g.NothingCached names (.ddl operation table result))
    (succeeded : result.success = true) :
    g.metadata.Serves g.now
        (SuitsMetadata names (g.requests + 1) ((table, g.requests) :: g.ddls)) ∧
      g.results.Serves g.now
        (SuitsResults names (g.requests + 1) ((table, g.requests) :: g.ddls)) := by
  obtain ⟨noMetadata, noResults⟩ := nothing succeeded
  constructor
  · refine current.metadata.later (Int.le_refl _) fun e held alive cols _ suits => ?_
    refine ⟨suits.1, Nat.lt_succ_of_lt suits.2.1, fun other number member key => ?_⟩
    rcases List.mem_cons.mp member with new | earlier
    · cases new
      have dead := noMetadata e held key
      rw [alive] at dead
      contradiction
    · exact suits.2.2 other number earlier key
  · refine current.results.later (Int.le_refl _) fun e held alive doc _ suits => ?_
    refine ⟨Nat.lt_succ_of_lt suits.1, fun other number member key => ?_⟩
    rcases List.mem_cons.mp member with new | earlier
    · cases new
      have dead := noResults e held key
      rw [alive] at dead
      contradiction
    · exact suits.2 other number earlier key

theorem Current.step (current : g.Current names) (request : Request T Col Rows)
    (nothing : g.NothingCached names request) : (g.step request).Current names := by
  have past : ∀ table number, (table, number) ∈ g.ddls → number < g.requests + 1 :=
    fun table number member => Nat.lt_succ_of_lt (current.past table number member)
  obtain ⟨metadata, results⟩ := current.lookahead
  cases request with
  | ddl operation table result =>
    cases succeeded : result.success with
    | false =>
      simp only [Gateway.step, handle, succeeded, Bool.false_eq_true, if_false]
      exact ⟨current.clock, past, metadata, results⟩
    | true =>
      obtain ⟨metadataAfter, resultsAfter⟩ := current.ddl nothing succeeded
      simp only [Gateway.step, handle, succeeded, if_true]
      refine ⟨current.clock, fun other number member => ?_, metadataAfter, resultsAfter⟩
      rcases List.mem_cons.mp member with new | earlier
      · cases new
        exact Nat.lt_succ_self _
      · exact past other number earlier
  | validate operation owner tableName checked outcome =>
    exact ⟨current.clock, past, current.level2 owner tableName checked outcome, results⟩
  | select request outcome =>
    exact ⟨current.clock, past, metadata, current.query request outcome⟩
  | written operation tableName =>
    exact ⟨current.clock, past, metadata, results.invalidateByTag current.clock tableName⟩
  | evictExpired =>
    exact ⟨current.clock, past, metadata.evictExpired, results.evictExpired⟩
  | tick seconds =>
    have le : g.now ≤ g.now + (seconds : Int) := by omega
    exact ⟨Int.lt_of_lt_of_le current.clock le, past,
      metadata.later le fun _ _ _ _ _ suits => suits,
      results.later le fun _ _ _ _ _ suits => suits⟩

theorem Current.upToDate (current : g.Current names) : g.UpToDate names := by
  intro request
  cases request with
  | validate operation owner tableName checked outcome =>
    rintro ⟨cols, served, number, member, older⟩
    unfold level2Metadata at served
    split at served
    · cases served
    · have suits := metadataCacheGetOrFetch_cached current.metadata served
      have newer := suits.2.2 _ number member ⟨owner, tableName, rfl, rfl⟩
      omega
  | select request outcome =>
    rintro ⟨doc, served, table, number, reads, member, older⟩
    obtain ⟨extracted, key, made, suits⟩ := executeQueryBatch_suits current.results served
    have newer := suits.2 table number member ⟨request.sql, reads, extracted, made⟩
    omega
  | ddl operation table result => exact id
  | written operation tableName => exact id
  | evictExpired => exact id
  | tick seconds => exact id

/-- A live entry under a key of the table is put to use by some next request. -/
theorem Current.nothingCached (current : g.Current names) (request : Request T Col Rows)
    (upToDate : (g.step request).UpToDate names) :
    g.NothingCached names request := by
  cases request with
  | ddl operation table result =>
    intro succeeded
    have after : g.step (.ddl operation table result) =
        { g with ddls := (table, g.requests) :: g.ddls, requests := g.requests + 1 } := by
      simp [Gateway.step, handle, succeeded]
    rw [after] at upToDate
    constructor
    · rintro e held ⟨owner, tableName, made, same⟩
      by_contra alive
      rw [Bool.not_eq_true] at alive
      have suits := current.metadata.live e held alive _ (Or.inl rfl)
      apply upToDate (.validate .insert owner tableName true ⟨none, true, ⟨true, true, true⟩⟩)
      refine ⟨e.outputDocument, ?_, g.requests, ?_, suits.2.1⟩
      · exact metadataCacheGetOrFetch_found current.metadata held alive made.symm suits.1
          (g.requests + 1) _
      · rw [same]
        exact List.mem_cons_self
    · rintro e held ⟨sql, reads, extracted, made⟩
      by_contra alive
      rw [Bool.not_eq_true] at alive
      have suits := current.results.live e held alive _ (Or.inl rfl)
      apply upToDate (.select ⟨sql, false, false⟩ ⟨true, none, true, ⟨true, true, true⟩⟩)
      refine ⟨e.outputDocument, ?_, table, g.requests, reads, List.mem_cons_self, suits.1⟩
      exact executeQueryBatch_found current.results extracted made held alive rfl _
  | _ => trivial

theorem start_current (names : Names T) (metadataCfg resultsCfg : CacheConfig)
    (hash : CString → Nat) (colBytes : Stored (List Col) → Nat)
    (docBytes : ResultDoc (Stored Rows) → Nat) {now : Int} (clock : 1 < now) :
    (start metadataCfg resultsCfg hash colBytes docBytes now : Gateway T Col Rows).Current
      names :=
  ⟨clock, (by simp [start]), cacheCreate_serves _ _ _ _ _, cacheCreate_serves _ _ _ _ _⟩

/-- In a run of requests none can be answered from what was cached before a DDL
    request on its table exactly if, whenever a DDL request succeeds, neither
    cache has a live entry under a key of its table. -/
theorem ddl_outdates_nothing_iff (names : Names T) (metadataCfg resultsCfg : CacheConfig)
    (hash : CString → Nat) (colBytes : Stored (List Col) → Nat)
    (docBytes : ResultDoc (Stored Rows) → Nat) (now : Int) (clock : 1 < now)
    (requests : List (Request T Col Rows)) :
    (∀ reached, reached <+: requests →
        (reached.foldl Gateway.step
          (start metadataCfg resultsCfg hash colBytes docBytes now)).UpToDate names) ↔
      Meets Gateway.step (NothingCached names)
        (start metadataCfg resultsCfg hash colBytes docBytes now) requests := by
  have keeps : ∀ (g : Gateway T Col Rows) request, g.Current names →
      g.NothingCached names request → (g.step request).Current names :=
    fun _ request current nothing => current.step request nothing
  exact Meets.lawful_iff keeps (fun _ current => current.upToDate)
    (fun _ request current upToDate => current.nothingCached request upToDate)
    (start_current names metadataCfg resultsCfg hash colBytes docBytes clock)

def unquotedNames : Names CString where
  table _ tableName := tableName.map Char.toUpper
  reads sql table := contains (sql.map Char.toUpper) table = true

def smallGateway : Gateway CString Nat Nat :=
  start ⟨4, 8, 0, 60, true⟩ ⟨4, 8, 0, 60, true⟩ List.length (fun _ => 0) (fun _ => 0) 10

def executed : DdlExecutionResult := ⟨true, []⟩

/-- An insert into `T` is validated; the table has these columns when it is described. -/
def validateT (cols : List Nat) : Request CString Nat Nat :=
  .validate .insert [] "T".toList true ⟨some cols, true, ⟨true, true, true⟩⟩

def selectT (rows : Nat) : Request CString Nat Nat :=
  .select ⟨"SELECT * FROM T".toList, false, false⟩ ⟨true, some rows, true, ⟨true, true, true⟩⟩

theorem ddl_outdates_nothing_created :
    ([.ddl .createTable "T".toList executed, validateT [1, 2]].foldl Gateway.step
      smallGateway).UpToDate unquotedNames :=
  (ddl_outdates_nothing_iff unquotedNames ⟨4, 8, 0, 60, true⟩ ⟨4, 8, 0, 60, true⟩ List.length
    (fun _ => 0) (fun _ => 0) 10 (by decide)
    [.ddl .createTable "T".toList executed, validateT [1, 2]]).mpr
    ⟨fun _ => ⟨fun e held => absurd held (cacheCreate_empty _ _ _ e),
      fun e held => absurd held (cacheCreate_empty _ _ _ e)⟩, trivial, trivial⟩
    _ (List.prefix_refl _)

/-- After a table is dropped, an insert is validated against its old columns and a
    SELECT is served its old rows. -/
theorem dropped_table_is_remembered :
    Outdated unquotedNames
        ([validateT [1, 2], .ddl .dropTable "T".toList executed].foldl Gateway.step smallGateway)
        (validateT [3]) ∧
      Outdated unquotedNames
        ([selectT 7, .ddl .dropTable "T".toList executed].foldl Gateway.step smallGateway)
        (selectT 8) := by
  have reads : contains ((trimSqlInplace "SELECT * FROM T".toList).map Char.toUpper) "T".toList =
      true := by
    decide +kernel
  constructor
  · exact ⟨⟨[1, 2], 0⟩, rfl, 1, List.mem_cons_self, by decide⟩
  · exact ⟨⟨"SELECT * FROM T".toList, ⟨7, 0⟩⟩, rfl, "T".toList, 1, reads,
      List.mem_cons_self, by decide⟩

end Gateway

end OciWrapper.Ddl
