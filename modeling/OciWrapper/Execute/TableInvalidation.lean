import OciWrapper.Execute.QueryBatch
import OciWrapper.Execute.SharedCache
import OciWrapper.Text.Buffers
import OciWrapper.Text.Search

namespace OciWrapper.Execute

open OciWrapper.Text OciWrapper.Core OciWrapper.Infra

/-- `resultset_cache_invalidate_by_table`: the name as the writer's request spells it. -/
def resultsetCacheInvalidateByTable {Doc : Type} (cache : Cache Doc) (tableName : CString)
    (now : Int) : Cache Doc :=
  cacheInvalidateByTag cache tableName now

/-- The names of a dependency list that go into the tag. -/
def tableNames (deps : DependencyList) : List CString :=
  (deps.objects.map (·.objectName)).filter (· ≠ [])

/-- A table is read whichever case its name is written in, with or without its owner. -/
def ReadsTable (deps : DependencyList) (tableName : CString) : Prop :=
  ∃ object ∈ deps.objects, strcasecmp object.objectName tableName = true ∨
    object.owner ≠ [] ∧ strcasecmp (object.owner ++ '.' :: object.objectName) tableName = true

/-- The name, in this spelling, stands in the first 511 characters of the list. -/
def Shows (deps : DependencyList) (tableName : CString) : Prop :=
  tableName ≠ [] ∧ tableName <:+: (joined [','] (tableNames deps)).take (tableTagSize - 1)

theorem contains_iff (text part : CString) : contains text part = true ↔ part <:+: text := by
  rw [contains, List.any_eq_true, List.infix_iff_prefix_suffix]
  constructor
  · rintro ⟨rest, member, starts⟩
    exact ⟨rest, List.isPrefixOf_iff_prefix.mp starts, (List.mem_tails rest text).mp member⟩
  · rintro ⟨rest, starts, ends⟩
    exact ⟨rest, (List.mem_tails rest text).mpr ends, List.isPrefixOf_iff_prefix.mpr starts⟩

theorem appendTag_take (text : CString) {object : ObjectRef} (named : object.objectName ≠ []) :
    appendTag (text.take (tableTagSize - 1)) object =
      (text ++ (if text = [] then [] else [',']) ++ object.objectName).take (tableTagSize - 1) := by
  have comma : (if 0 < (text.take (tableTagSize - 1)).length ∧
      (text.take (tableTagSize - 1)).length < tableTagSize - 1 then
        text.take (tableTagSize - 1) ++ [','] else text.take (tableTagSize - 1)) =
      (text ++ (if text = [] then [] else [','])).take (tableTagSize - 1) := by
    by_cases empty : text = []
    · simp [empty]
    · have some : 0 < text.length := List.length_pos_iff.mpr empty
      rw [if_neg empty, List.length_take, List.take_append]
      rcases Nat.lt_or_ge text.length (tableTagSize - 1) with room | full
      · have one : ([','] : CString).take (tableTagSize - 1 - text.length) = [','] :=
          List.take_of_length_le (by rw [List.length_singleton]; omega)
        rw [if_pos (by rw [tableTagSize] at *; omega), one]
      · rw [if_neg (by omega), Nat.sub_eq_zero_of_le full, List.take_zero, List.append_nil]
  rw [appendTag, if_neg named, comma]
  have copied := strncat_take tableTagSize (text ++ if text = [] then [] else [',']) object.objectName
  rw [strncat, Nat.sub_right_comm] at copied
  exact copied

theorem foldl_appendTag (objects : List ObjectRef) (text : CString) :
    objects.foldl appendTag (text.take (tableTagSize - 1)) =
      (text ++ joinFrom [','] (text ≠ [])
        ((objects.map (·.objectName)).filter (· ≠ []))).take (tableTagSize - 1) := by
  induction objects generalizing text with
  | nil => simp [joinFrom]
  | cons object objects ih =>
    by_cases named : object.objectName = []
    · have skipped : appendTag (text.take (tableTagSize - 1)) object =
          text.take (tableTagSize - 1) := by
        rw [appendTag, if_pos named]
      rw [List.foldl_cons, skipped, ih]
      simp [named]
    · have longer : text ++ (if text = [] then [] else [',']) ++ object.objectName ≠ [] := by
        simp [named]
      rw [List.foldl_cons, appendTag_take text named, ih]
      by_cases empty : text = [] <;> simp [named, empty, joinFrom]

/-- The tag is the list of the names, cut at the end of its buffer. -/
theorem tableTag_eq (deps : DependencyList) :
    tableTag deps = (joined [','] (tableNames deps)).take (tableTagSize - 1) := by
  have whole := foldl_appendTag deps.objects []
  simpa [tableTag, joined, tableNames] using whole

theorem tagged_iff {Doc : Type} {e : CacheEntry Doc} {deps : DependencyList}
    {alloc : AllocOutcome} (tag : e.tableDependencyTag = entryTag deps alloc)
    {tableName : CString} (name : tableName ≠ []) :
    tagged tableName e = true ↔ alloc.tag = true ∧ Shows deps tableName := by
  rw [tagged, tag, entryTag]
  split
  · rename_i copied
    rw [Shows, ← tableTag_eq]
    split
    · rename_i empty
      simp [empty, copied, name]
    · simp [contains_iff, copied, name]
  · rename_i lost
    simp [lost]

/-- A SELECT whose result is stored. -/
structure CachedSelect (Rows : Type) where
  cfg : ExecuteConfig
  deps : DependencyList
  rows : Rows
  storedAt : Int
  outcome : QueryOutcome Rows

variable {Rows : Type}

def CachedSelect.storeIn (cache : Cache (ResultDoc Rows)) (r : CachedSelect Rows) :
    Cache (ResultDoc Rows) :=
  cacheStore cache r.cfg r.deps r.rows r.storedAt r.outcome

/-- The entry is the one that the SELECT has stored: its key, its document and its tag. -/
structure CachedSelect.Made (r : CachedSelect Rows) (e : CacheEntry (ResultDoc Rows)) : Prop where
  key : resultsetCacheMakeKey r.cfg.sql cacheKeySize = some e.normalizedSql
  document : e.outputDocument = ⟨r.cfg.sql, r.rows⟩
  tag : e.tableDependencyTag = entryTag r.deps r.outcome.alloc

theorem storeIn_holds {cache : Cache (ResultDoc Rows)} {r : CachedSelect Rows}
    {e : CacheEntry (ResultDoc Rows)} (held : (r.storeIn cache).Holds e) :
    (∃ o, cache.Holds o ∧ e.Stems r.storedAt o) ∨ r.Made e := by
  simp only [CachedSelect.storeIn, cacheStore] at held
  split at held
  · exact .inl ⟨e, held, .refl _ e⟩
  · split at held
    · exact .inl ⟨e, held, .refl _ e⟩
    · exact .inl ⟨e, held, .refl _ e⟩
    · rename_i key keyed
      rcases cacheInsert_holds held with old | new
      · exact .inl old
      · exact .inr ⟨keyed.trans (congrArg some new.normalizedSql.symm), new.outputDocument,
          new.tableDependencyTag⟩

/-- Every entry is that of one of the SELECTs. -/
theorem stored_made {cfg : CacheConfig} {hash : CString → Nat} {docBytes : ResultDoc Rows → Nat}
    (results : List (CachedSelect Rows)) {e : CacheEntry (ResultDoc Rows)}
    (held : (results.foldl (fun cache r => r.storeIn cache) (cacheCreate cfg hash docBytes)).Holds e) :
    ∃ r ∈ results, r.Made e := by
  induction results using List.reverseRecOn generalizing e with
  | nil => exact absurd held (cacheCreate_empty cfg hash docBytes e)
  | append_singleton results r ih =>
    rw [List.foldl_append] at held
    rcases storeIn_holds held with ⟨o, old, stems⟩ | made
    · obtain ⟨before, member, made⟩ := ih old
      refine ⟨before, List.mem_append_left _ member, ?_⟩
      exact ⟨made.key.trans (congrArg some stems.normalizedSql.symm),
        stems.outputDocument.trans made.document, stems.tableDependencyTag.trans made.tag⟩
    · exact ⟨r, List.mem_append_right _ (List.mem_singleton_self r), made⟩

/-- A name of the list that begins early enough shows in its own spelling. -/
theorem shows_of_placed {deps : DependencyList} {tableName : CString} {before after : List CString}
    (name : tableName ≠ []) (placed : tableNames deps = before ++ tableName :: after)
    (early : (joined [','] before).length + 1 + tableName.length ≤ tableTagSize - 1) :
    Shows deps tableName := by
  have split : ∀ (started : Bool) (pieces : List CString),
      joinFrom [','] started (pieces ++ tableName :: after) =
        joinFrom [','] started pieces ++
          ((if started || !pieces.isEmpty then [','] else []) ++
            (tableName ++ joinFrom [','] true after)) := by
    intro started pieces
    induction pieces generalizing started with
    | nil => simp [joinFrom]
    | cons piece pieces ih => simp [joinFrom, ih, List.append_assoc]
  refine ⟨name, ?_⟩
  rw [placed, joined, split, ← List.append_assoc, ← List.append_assoc, List.take_append]
  have fits : (joinFrom [','] false before ++
      (if false || !before.isEmpty then [','] else []) ++ tableName).length ≤ tableTagSize - 1 := by
    have comma : (if false || !before.isEmpty then ([','] : CString) else []).length ≤ 1 := by
      split <;> simp
    rw [joined] at early
    simp only [List.length_append]
    omega
  rw [List.take_of_length_le fits]
  exact ⟨_, _, rfl⟩

theorem mem_joinFrom {separator : CString} {pieces : List CString} {started : Bool} {c : Char}
    (member : c ∈ joinFrom separator started pieces) :
    c ∈ separator ∨ ∃ piece ∈ pieces, c ∈ piece := by
  induction pieces generalizing started with
  | nil => cases member
  | cons piece pieces ih =>
    simp only [joinFrom, List.mem_append] at member
    rcases member with (before | own) | later
    · refine .inl ?_
      split at before
      · exact before
      · cases before
    · exact .inr ⟨piece, List.mem_cons_self, own⟩
    · rcases ih later with inSeparator | ⟨other, inside, has⟩
      · exact .inl inSeparator
      · exact .inr ⟨other, List.mem_cons_of_mem piece inside, has⟩

/-- The names of a list are in capitals, so no name with a small letter shows. -/
theorem not_shows_of_lower {deps : DependencyList} {tableName : CString}
    (capitals : ∀ object ∈ deps.objects, ∀ c ∈ object.objectName, c.isLower = false) {c : Char}
    (member : c ∈ tableName) (small : c.isLower = true) : ¬ Shows deps tableName := by
  rintro ⟨-, shows⟩
  have inText : c ∈ joined [','] (tableNames deps) :=
    List.mem_of_mem_take (shows.subset member)
  rcases mem_joinFrom inText with comma | ⟨name, inList, has⟩
  · rw [List.mem_singleton.mp comma] at small
    cases small
  · simp only [tableNames, List.mem_filter, List.mem_map] at inList
    obtain ⟨⟨object, listed, rfl⟩, -⟩ := inList
    rw [capitals object listed c has] at small
    cases small

/-- Of the SELECTs whose results are cached, those that read the table lose their entries
    to the invalidation exactly when every one of their lists shows it. -/
theorem readers_expired_iff (cfg : CacheConfig) (hash : CString → Nat)
    (docBytes : ResultDoc Rows → Nat) (results : List (CachedSelect Rows)) (tableName : CString)
    (now : Int) (clock : 1 < now) :
    let cache := results.foldl (fun cache r => r.storeIn cache) (cacheCreate cfg hash docBytes)
    (∀ e, cache.Holds e → ∃ r ∈ results, r.Made e) ∧
      ((∀ e, (resultsetCacheInvalidateByTable cache tableName now).Holds e →
          ∀ r ∈ results, r.Made e → ReadsTable r.deps tableName → e.expired now = true) ↔
        ∀ e, cache.Holds e → e.expired now = false →
          ∀ r ∈ results, r.Made e → ReadsTable r.deps tableName →
            r.outcome.alloc.tag = true ∧ Shows r.deps tableName) := by
  intro cache
  refine ⟨fun e held => stored_made results held, ?_⟩
  constructor
  · intro expires e held live r member made reads
    by_cases name : tableName = []
    · have same : resultsetCacheInvalidateByTable cache tableName now = cache := if_pos name
      rw [expires e (same.symm ▸ held) r member made reads] at live
      cases live
    · rw [← tagged_iff made.tag name]
      by_contra unmarked
      have spared : (resultsetCacheInvalidateByTable cache tableName now).Holds e := by
        rw [resultsetCacheInvalidateByTable, cacheInvalidateByTag, if_neg name,
          Cache.holds_mapEntries]
        exact ⟨e, held, by simp [unmarked]⟩
      rw [expires e spared r member made reads] at live
      cases live
  · intro shown e held r member made reads
    obtain ⟨o, old, stems⟩ := cacheInvalidateByTag_ages clock cache tableName e held
    cases live : e.expired now with
    | true => rfl
    | false =>
      have madeOld : r.Made o :=
        ⟨made.key.trans (congrArg some stems.normalizedSql),
          stems.outputDocument.symm.trans made.document,
          stems.tableDependencyTag.symm.trans made.tag⟩
      obtain ⟨copied, shows⟩ :=
        shown o old (stems.live (Int.le_refl now) live) r member madeOld reads
      have marked := (tagged_iff made.tag shows.1).mpr ⟨copied, shows⟩
      rw [← live]
      exact cacheInvalidateByTag_expires clock (Int.le_refl now) shows.1 held marked

def readsTables (names : List CString) : CachedSelect Nat :=
  { cfg := ⟨"select * from emp".toList, true, false⟩
    deps := ⟨names.map (fun name => ⟨[], name, []⟩), [], true⟩
    rows := 1
    storedAt := 10
    outcome := ⟨true, some 1, true, ⟨true, true, true⟩⟩ }

theorem readsTables_reads {names : List CString} {name tableName : CString} (member : name ∈ names)
    (same : strcasecmp name tableName = true) : ReadsTable (readsTables names).deps tableName :=
  ⟨⟨[], name, []⟩, List.mem_map.mpr ⟨name, member, rfl⟩, .inl same⟩

def cacheOfSelect (names : List CString) : Cache (ResultDoc Nat) :=
  (readsTables names).storeIn (cacheCreate ⟨1, 0, 0, 0, true⟩ List.length (fun _ => 1))

theorem readers_expired_capitals :
    Shows (readsTables ["EMP".toList]).deps "EMP".toList ∧
      ∀ e, (resultsetCacheInvalidateByTable (cacheOfSelect ["EMP".toList]) "EMP".toList 10).Holds e →
        (readsTables ["EMP".toList]).Made e → e.expired 10 = true := by
  have shows : Shows (readsTables ["EMP".toList]).deps "EMP".toList :=
    ⟨by decide, by decide⟩
  have all := (readers_expired_iff ⟨1, 0, 0, 0, true⟩ List.length (fun _ => 1)
    [readsTables ["EMP".toList]] "EMP".toList 10 (by decide)).2.mpr
      fun e held live r member made reads => by
        rw [List.mem_singleton.mp member]
        exact ⟨rfl, shows⟩
  refine ⟨shows, fun e held made => ?_⟩
  exact all e held _ (List.mem_singleton_self _) made
    (readsTables_reads (List.mem_singleton_self _) (by decide))

/-- Neither a name in small letters nor one behind 511 characters of other names is found. -/
theorem readers_stay_live :
    (ReadsTable (readsTables ["EMP".toList]).deps "emp".toList ∧
      (resultsetCacheInvalidateByTable (cacheOfSelect ["EMP".toList]) "emp".toList
        10).entries.map (·.expired 10) = [false]) ∧
    (ReadsTable (readsTables [List.replicate 511 'A', "EMP".toList]).deps "EMP".toList ∧
      (resultsetCacheInvalidateByTable (cacheOfSelect [List.replicate 511 'A', "EMP".toList])
        "EMP".toList 10).entries.map (·.expired 10) = [false]) := by
  refine ⟨⟨readsTables_reads (List.mem_singleton_self _) (by decide), ?_⟩,
    ⟨readsTables_reads (List.mem_cons_of_mem _ (List.mem_singleton_self _)) (by decide), ?_⟩⟩
  · decide +kernel
  · decide +kernel

end OciWrapper.Execute
