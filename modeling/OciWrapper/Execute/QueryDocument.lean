import OciWrapper.Execute.RenderedFields
import OciWrapper.Execute.RowWrappers
import OciWrapper.Audit.OldValues
import OciWrapper.Execute.QueryBatch

namespace OciWrapper.Execute

open OciWrapper.Text OciWrapper.Core OciWrapper.Markup
open OciWrapper.Dml (digit_range Vendor)
open OciWrapper.Audit (xmlAppends xmlTempSize xmlAppends_whole QueryFigures headAppends endAppends
  sqlPiece truncatedText headAppends_fits)

/-- What a call of `select_fetch_batch` reports. -/
structure BatchStats where
  blobCount : Nat
  clobCount : Nat

/-- The numbers of a run. -/
structure RunFigures where
  batchSize : Nat
  stats : List BatchStats
  /-- The time the run took, in microseconds. -/
  elapsed : Nat
  batchInt : batchSize < 2 ^ 31
  blobInt : (stats.map (·.blobCount)).sum < 2 ^ 31
  clobInt : (stats.map (·.clobCount)).sum < 2 ^ 31
  time : elapsed < 2 ^ 64

namespace RunFigures

def blobs (figures : RunFigures) : Nat := (figures.stats.map (·.blobCount)).sum

def clobs (figures : RunFigures) : Nat := (figures.stats.map (·.clobCount)).sum

end RunFigures

/-- `%.6f` of a time in microseconds. -/
def fixed6 (microseconds : Nat) : CString :=
  Nat.toDigits 10 (microseconds / 1000000) ++ '.' ::
    (List.replicate (6 - (Nat.toDigits 10 (microseconds % 1000000)).length) '0' ++
      Nat.toDigits 10 (microseconds % 1000000))

/-- What is there of a SELECT behind its fetch loop. -/
structure FetchedSelect where
  truncated : Bool
  rs : Resultset
  numRows : Nat

/-- How many rows are fetched at most, and whether that is fewer than were counted. -/
def limitCount (queryMaxRecordCount counted : Int) : Int × Bool :=
  let recordCount := clampCount counted
  if recordCount < 1 then (recordCount, false)
  else if queryMaxRecordCount < recordCount then (queryMaxRecordCount, true)
  else (recordCount, false)

/-- `execute_query_batch` of a synchronous request, from the count query to the end of the fetch
loop. -/
def fetchSelect (queryMaxRecordCount : Int) (source : SelectSource) : Option FetchedSelect := do
  let counted ← source.counted
  let (recordCount, truncated) := limitCount queryMaxRecordCount counted
  let columns ← source.opened
  let rs ← resultsetCreate recordCount columns
  let (rs, absRownum) ← fetchLoop source.fetched rs 0
  some ⟨truncated, rs, absRownum⟩

/-- The run that `executeSelect` renders. -/
theorem executeSelect_fetch {Json : Type} (fieldXml : ResultsetField → CString)
    (fieldJson : ResultsetField → Json) (queryMaxRecordCount : Int) (source : SelectSource) :
    executeSelect fieldXml fieldJson queryMaxRecordCount source =
      (fetchSelect queryMaxRecordCount source).map fun run =>
        ⟨run.truncated, resultsetXml fieldXml run.rs, resultsetJson fieldJson run.rs,
          run.numRows⟩ := by
  obtain ⟨counted, opened, fetched⟩ := source
  cases counted with
  | none => rfl
  | some counted =>
    cases opened with
    | none => rfl
    | some columns =>
      simp only [executeSelect, fetchSelect, limitCount, Option.bind_eq_bind, Option.bind_some]
      cases resultsetCreate _ _ with
      | none => rfl
      | some rs =>
        simp only [Option.bind_some]
        cases fetchLoop fetched rs 0 with
        | none => rfl
        | some out => rfl

/-- Digits, and points between them. -/
def Numeral (s : CString) : Prop := ∀ c ∈ s, c = '.' ∨ 48 ≤ c.toNat ∧ c.toNat ≤ 57

theorem Numeral.free {s : CString} (numeral : Numeral s) : s.all markFree = true := by
  refine List.all_eq_true.mpr fun c member => ?_
  rcases numeral c member with rfl | range
  · rfl
  · exact digit_free range

theorem Numeral.plain {s : CString} (numeral : Numeral s) : PlainBytes xmlChar s := by
  intro c member
  rcases numeral c member with rfl | ⟨low, high⟩
  · decide
  · refine ⟨by omega, ?_⟩
    simp only [xmlChar, Bool.or_eq_true, Bool.and_eq_true, decide_eq_true_eq]
    omega

theorem numeral_digits (n : Nat) : Numeral (Nat.toDigits 10 n) :=
  fun _ member => .inr (digit_range member)

theorem numeral_fixed6 (microseconds : Nat) : Numeral (fixed6 microseconds) := by
  intro c member
  rw [fixed6, List.mem_append, List.mem_cons, List.mem_append] at member
  rcases member with whole | point | zeros | part
  · exact numeral_digits _ c whole
  · exact .inl point
  · rw [List.eq_of_mem_replicate zeros]
    exact .inr (by decide)
  · exact numeral_digits _ c part

/-- The numbers that the envelopes show. -/
def envelopeFigures (run : FetchedSelect) (figures : RunFigures) : QueryFigures :=
  ⟨run.truncated, run.numRows, fixed6 figures.elapsed, figures.batchSize, figures.blobs,
    figures.clobs, free_bare (numeral_fixed6 figures.elapsed).free rfl⟩

/-- The document that `execute_query_batch` puts together. -/
def queryXml (sql : CString) (run : FetchedSelect) (figures : RunFigures) : CString :=
  xmlAppends (headAppends sql (envelopeFigures run figures)) (run.rs.responseWriteXml ++
    xmlAppends (endAppends (envelopeFigures run figures)) [])

/-- What a synchronous request leaves in `cfg->xml`, and what it stores in the cache. -/
structure QueryOutput where
  outputXml : CString
  stored : Option CString

/-- `execute_query_batch` of a synchronous request that is not served from the cache; `caching` tells
whether there is a cache and a key. -/
def queryBatchXml (vendor : Vendor) (caching : Bool) (request : CString)
    (queryMaxRecordCount : Int) (source : SelectSource) (figures : RunFigures) :
    Option QueryOutput := do
  let sql := trimSqlInplace request
  let _ ← extractSqlDependencies sql
  let _ ← wrapRows vendor .count sql 4096
  let run ← fetchSelect queryMaxRecordCount source
  if run.truncated && (wrapRows vendor (.limit queryMaxRecordCount) sql 4096).isNone then none
  else
    let xml := queryXml sql run figures
    some ⟨xml, if caching then some xml else none⟩

/-- Batches of fields as the drivers fill them. -/
structure DeliveredBatches (columns : Nat) extends FetchedBatches columns where
  delivered : ∀ batch ∈ batches, ∀ row ∈ batch, ∀ field ∈ row, field.Delivered

/-- A document whose elements decode to the SQL text and the numbers of the run, with the element of
the rows. -/
def ShowsRun (sql : CString) (truncated : Bool) (numRows : Nat) (figures : RunFigures)
    (rows : Resultset) (xml : CString) : Prop :=
  ∃ root, ReadsAs xml root ∧
    root.outside "resultset".toList "sql_query".toList = [charNodes sql] ∧
    root.outside "resultset".toList "truncated".toList =
      [charNodes (if truncated then "true".toList else "false".toList)] ∧
    root.outside "resultset".toList "num_rows".toList = [charNodes (Nat.toDigits 10 numRows)] ∧
    root.outside "resultset".toList "blobs_extracted".toList =
      [charNodes (Nat.toDigits 10 figures.blobs)] ∧
    root.outside "resultset".toList "clobs_extracted".toList =
      [charNodes (Nat.toDigits 10 figures.clobs)] ∧
    root.outside "resultset".toList "resultset".toList = [resultsetChildren rows]

section Runs

variable {columns : Nat}

theorem fetchSelect_eq (queryMaxRecordCount counted : Int) (fetched : FetchedBatches columns) :
    fetchSelect queryMaxRecordCount ⟨some counted, some columns, fetched.calls⟩ =
      if 0 ≤ (limitCount queryMaxRecordCount counted).1 ∧
          fetched.rows.length ≤ (limitCount queryMaxRecordCount counted).1.toNat then
        some ⟨(limitCount queryMaxRecordCount counted).2,
          partlyFilled columns (limitCount queryMaxRecordCount counted).1.toNat fetched.rows,
          fetched.rows.length⟩
      else none := by
  simp only [fetchSelect, Option.bind_eq_bind, Option.bind_some]
  generalize limitCount queryMaxRecordCount counted = limit
  obtain ⟨count, truncated⟩ := limit
  by_cases positive : 0 ≤ count
  · have loop := @fetchLoop_spec columns count.toNat fetched.batches fetched.filled fetched.shaped []
      (Nat.zero_le _)
    rw [List.length_nil, Nat.zero_add, List.nil_append] at loop
    rw [resultsetCreate_filled positive]
    simp only [Option.bind_some]
    rw [FetchedBatches.calls, loop, FetchedBatches.rows]
    by_cases room : fetched.batches.flatten.length ≤ count.toNat
    · rw [if_pos room, if_pos ⟨positive, room⟩]
      rfl
    · rw [if_neg room, if_neg fun both => room both.2]
      rfl
  · have refused : resultsetCreate count columns = none := if_pos (.inl (by omega))
    rw [refused, if_neg fun both => positive both.1]
    rfl

theorem limitCount_lt (queryMaxRecordCount counted : Int) :
    (limitCount queryMaxRecordCount counted).1 < 2 ^ 31 := by
  rw [limitCount, clampCount]
  split_ifs <;> dsimp only <;> omega

theorem mem_numbered {rows : List (List ResultsetField)} {row : ResultsetRow}
    (member : row ∈ (numbered rows).records) :
    row.recordNumber ≤ rows.length ∧ row.fields ∈ rows := by
  obtain ⟨⟨fields, number⟩, there, rfl⟩ := List.mem_map.mp member
  have place := List.mem_zipIdx there
  refine ⟨?_, List.fst_mem_of_mem_zipIdx there⟩
  dsimp only
  omega

/-- The result set of a run is filled as the drivers fill it. -/
def DeliveredBatches.resultset (fetched : DeliveredBatches columns) {count : Nat}
    (room : fetched.rows.length ≤ count) (int : count < 2 ^ 31) : DeliveredResultset where
  toResultset := partlyFilled columns count fetched.rows
  numbers := by
    intro row member
    rcases List.mem_append.mp member with filled | empty
    · have place := (mem_numbered filled).1
      omega
    · obtain ⟨i, inside, rfl⟩ := List.mem_map.mp empty
      rw [List.mem_range'_1] at inside
      dsimp only
      omega
  delivered := by
    intro row member field inside
    rcases List.mem_append.mp member with filled | empty
    · obtain ⟨batch, there, place⟩ := List.mem_flatten.mp (mem_numbered filled).2
      exact fetched.delivered batch there row.fields place field inside
    · obtain ⟨i, -, rfl⟩ := List.mem_map.mp empty
      rw [List.eq_of_mem_replicate inside]
      exact trivial

end Runs

section Texts

def lineUnits (name value : CString) : List (CString × CString) :=
  [(startTag name, value), (endTag name, ['\n'])]

def lineNodes (name value : CString) : List Node := [leafNode name value, .char '\n']

/-- The lines of the envelope behind the rows. -/
def endLines (figures : QueryFigures) : List (CString × CString) :=
  [("num_rows".toList, Nat.toDigits 10 figures.numRows),
    ("execution_time_total".toList, figures.elapsed),
    ("fetch_batch_size".toList, Nat.toDigits 10 figures.batchSize),
    ("blobs_extracted".toList, Nat.toDigits 10 figures.blobs),
    ("clobs_extracted".toList, Nat.toDigits 10 figures.clobs)]

def endUnits (figures : QueryFigures) : List (CString × CString) :=
  elementUnits (startTag "execution_envelope".toList) "execution_envelope".toList ['\n'] ['\n']
    ((endLines figures).flatMap fun line => lineUnits line.1 line.2)

/-- What stands between the SQL text and the rows. -/
def middleUnits (figures : QueryFigures) : List (CString × CString) :=
  (endTag "sql_query".toList, ['\n']) ::
    (lineUnits "truncated".toList (truncatedText figures) ++
      [(endTag "execution_envelope".toList, ['\n'])])

/-- What follows the rows. -/
def lastUnits (figures : QueryFigures) : List (CString × CString) :=
  endUnits figures ++ [(endTag "output_xml".toList, ['\n'])]

/-- What stands before the SQL text. -/
def beforeSql : CString :=
  ['\n'] ++ startTag "output_xml".toList ++ ['\n'] ++ startTag "execution_envelope".toList ++
    ['\n'] ++ startTag "sql_query".toList

theorem line_text {first last name value : CString} (opens : first = startTag name)
    (closes : last = endTag name ++ ['\n']) :
    first ++ value ++ last = unitsText (lineUnits name value) := by
  rw [opens, closes]
  simp [lineUnits, unitsText]

theorem endAppends_text (figures : QueryFigures) :
    (endAppends figures).flatten = unitsText (lastUnits figures) := by
  have joins : ∀ {opens l₁ l₂ l₃ l₄ l₅ closes last u₁ u₂ u₃ u₄ u₅ start stop root : CString},
      opens = start ++ ['\n'] → l₁ = u₁ → l₂ = u₂ → l₃ = u₃ → l₄ = u₄ → l₅ = u₅ →
      closes = stop ++ ['\n'] → last = root →
      [opens, l₁, l₂, l₃, l₄, l₅, closes, last].flatten =
        start ++ ['\n'] ++ [u₁, u₂, u₃, u₄, u₅].flatten ++ stop ++ ['\n'] ++ root := by
    rintro opens l₁ l₂ l₃ l₄ l₅ closes last u₁ u₂ u₃ u₄ u₅ start stop root rfl rfl rfl rfl rfl rfl
      rfl rfl
    simp
  rw [lastUnits, unitsText_append, endUnits, unitsText_element, unitsText_flatMap,
    unitsText_single]
  exact joins rfl (line_text rfl rfl) (line_text rfl rfl) (line_text rfl rfl) (line_text rfl rfl)
    (line_text rfl rfl) rfl rfl

theorem headAppends_text (sql : CString) (figures : QueryFigures) (rows : CString) :
    (headAppends sql figures).flatten ++ rows =
      xmlDeclaration ++ (beforeSql ++ (sql ++ (unitsText (middleUnits figures) ++ rows))) := by
  have joins : ∀ {t₁ t₂ t₃ t₄ t₅ t₆ t₇ line decl root envelope start stop stop' : CString},
      t₁ = decl ++ ['\n'] → t₂ = root ++ ['\n'] → t₃ = envelope ++ ['\n'] → t₄ = start →
      t₅ = stop ++ ['\n'] → t₆ = line → t₇ = stop' ++ ['\n'] →
      [t₁, t₂, t₃, t₄ ++ sql ++ t₅, t₆, t₇].flatten ++ rows =
        decl ++ (['\n'] ++ root ++ ['\n'] ++ envelope ++ ['\n'] ++ start ++
          (sql ++ (stop ++ ['\n'] ++ (line ++ (stop' ++ ['\n'])) ++ rows))) := by
    rintro t₁ t₂ t₃ t₄ t₅ t₆ t₇ line decl root envelope start stop stop' rfl rfl rfl rfl rfl rfl rfl
    simp
  rw [middleUnits, unitsText_cons, unitsText_append, unitsText_single]
  exact joins rfl rfl rfl rfl rfl (line_text rfl rfl) rfl

theorem fixed6_length {microseconds : Nat} (int : microseconds < 2 ^ 64) :
    (fixed6 microseconds).length ≤ 27 := by
  have whole : (Nat.toDigits 10 (microseconds / 1000000)).length ≤ 14 :=
    Nat.toDigits_length 10 _ 14 (by decide) (by omega)
  have part : (Nat.toDigits 10 (microseconds % 1000000)).length ≤ 6 :=
    Nat.toDigits_length 10 _ 6 (by decide) (by omega)
  rw [fixed6, List.length_append, List.length_cons, List.length_append, List.length_replicate]
  omega

theorem endAppends_fits {figures : QueryFigures} (time : figures.elapsed.length ≤ 27)
    (rows : figures.numRows < 2 ^ 31) (batch : figures.batchSize < 2 ^ 31)
    (blobs : figures.blobs < 2 ^ 31) (clobs : figures.clobs < 2 ^ 31) :
    ∀ piece ∈ endAppends figures, piece.length < xmlTempSize := by
  have digits : ∀ {n : Nat}, n < 2 ^ 31 → (Nat.toDigits 10 n).length ≤ 27 := fun {n} int =>
    (Nat.toDigits_length 10 n 10 (by decide) (by omega)).trans (by decide)
  have joins : ∀ {first value last : CString}, first.length ≤ 100 → value.length ≤ 27 →
      last.length ≤ 100 → (first ++ value ++ last).length < xmlTempSize := by
    intro first value last before inside after
    rw [List.length_append, List.length_append, xmlTempSize]
    omega
  simp only [endAppends, List.forall_mem_cons, List.not_mem_nil, false_implies, implies_true,
    and_true]
  exact ⟨by decide, joins (by decide) (digits rows) (by decide), joins (by decide) time (by decide),
    joins (by decide) (digits batch) (by decide), joins (by decide) (digits blobs) (by decide),
    joins (by decide) (digits clobs) (by decide), by decide, by decide⟩

/-- The whole document, when the SQL text fits `xml_append`. -/
theorem queryXml_text {sql : CString} {run : FetchedSelect} {figures : RunFigures}
    (fits : sql.length < 4096) (rows : run.numRows < 2 ^ 31) :
    queryXml sql run figures = xmlDeclaration ++ (beforeSql ++
      (sql ++ (unitsText (middleUnits (envelopeFigures run figures)) ++
        (run.rs.responseWriteXml ++ unitsText (lastUnits (envelopeFigures run figures)))))) := by
  have joins : ∀ {first last : CString}, first.length ≤ 100 → last.length ≤ 100 →
      (first ++ sql ++ last).length < xmlTempSize := by
    intro first last before after
    rw [List.length_append, List.length_append, xmlTempSize]
    omega
  have piece : (sqlPiece sql).length < xmlTempSize := joins (by decide) (by decide)
  have head := headAppends_fits sql (envelopeFigures run figures) piece
  have ends := @endAppends_fits (envelopeFigures run figures) (fixed6_length figures.time) rows
    figures.batchInt figures.blobInt figures.clobInt
  rw [queryXml, xmlAppends_whole head, xmlAppends_whole ends, endAppends_text, List.append_nil,
    headAppends_text]

end Texts

section Envelopes

/-- The elements around those of the rows. -/
def envelopeNames : List CString :=
  ["output_xml".toList, "execution_envelope".toList, "sql_query".toList, "truncated".toList,
    "num_rows".toList, "execution_time_total".toList, "fetch_batch_size".toList,
    "blobs_extracted".toList, "clobs_extracted".toList]

theorem envelope_tag {name : CString} (known : name ∈ envelopeNames) : TagName name := by
  have all : envelopeNames.all (fun name => decide (TagName name)) = true := by decide +kernel
  exact of_decide_eq_true (List.all_eq_true.mp all name known)

section Lines

variable {name value : CString}

theorem reads_line (tag : TagName name) (free : value.all markFree = true) :
    Reads (unitsText (lineUnits name value)) (lineNodes name value) := by
  have text : unitsText (lineUnits name value) =
      startTag name ++ value ++ endTag name ++ ['\n'] := by
    simp [unitsText, lineUnits]
  rw [text]
  exact ((content_free free).element tag.named).append reads_newline

theorem marks_line (tag : TagName name) (free : value.all markFree = true) :
    MarkUnits (lineUnits name value) := by
  have bare : '>' ∉ value := free_bare free rfl
  simp [MarkUnits, lineUnits, tag.opening, tag.ending, bare]

theorem normalizedUnits_line (free : value.all markFree = true) :
    normalizedUnits (lineUnits name value) = lineUnits name value := by
  have newline : normalizeLines ['\n'] = ['\n'] := rfl
  simp only [normalizedUnits, lineUnits, List.map_cons, List.map_nil, newline,
    normalizeLines_same (free_bare free rfl : '\r' ∉ value)]

end Lines

variable {figures : QueryFigures}

theorem truncatedText_free (figures : QueryFigures) :
    (truncatedText figures).all markFree = true := by
  rw [truncatedText]
  split <;> rfl

theorem endLines_numeral (time : Numeral figures.elapsed) :
    ∀ line ∈ endLines figures, TagName line.1 ∧ Numeral line.2 := by
  have tag : ∀ {name : CString}, name ∈ envelopeNames → TagName name := envelope_tag
  simp only [endLines, List.forall_mem_cons, List.not_mem_nil, false_implies, implies_true,
    and_true]
  exact ⟨⟨tag (by simp [envelopeNames]), numeral_digits _⟩, ⟨tag (by simp [envelopeNames]), time⟩,
    ⟨tag (by simp [envelopeNames]), numeral_digits _⟩, ⟨tag (by simp [envelopeNames]), numeral_digits _⟩,
    ⟨tag (by simp [envelopeNames]), numeral_digits _⟩⟩

theorem marks_middle (figures : QueryFigures) : MarkUnits (middleUnits figures) := by
  have sql := @envelope_tag "sql_query".toList (by simp [envelopeNames])
  have flag := @envelope_tag "truncated".toList (by simp [envelopeNames])
  have envelope := @envelope_tag "execution_envelope".toList (by simp [envelopeNames])
  have front : MarkUnits [(endTag "sql_query".toList, ['\n'])] :=
    List.forall_mem_singleton.mpr ⟨sql.ending, newline_bare⟩
  have back : MarkUnits [(endTag "execution_envelope".toList, ['\n'])] :=
    List.forall_mem_singleton.mpr ⟨envelope.ending, newline_bare⟩
  exact front.append ((marks_line flag (truncatedText_free figures)).append back)

theorem marks_endUnits (time : Numeral figures.elapsed) :
    MarkUnits (endUnits figures) := by
  have envelope := @envelope_tag "execution_envelope".toList (by simp [envelopeNames])
  refine markUnits_element envelope envelope.opening newline_bare newline_bare
    (MarkUnits.flatMap fun line member => ?_)
  obtain ⟨tag, numeral⟩ := endLines_numeral time line member
  exact marks_line tag numeral.free

theorem marks_last (time : Numeral figures.elapsed) : MarkUnits (lastUnits figures) := by
  have root := @envelope_tag "output_xml".toList (by simp [envelopeNames])
  exact (marks_endUnits time).append (List.forall_mem_singleton.mpr ⟨root.ending, newline_bare⟩)

theorem normalizedUnits_middle (figures : QueryFigures) :
    normalizedUnits (middleUnits figures) = middleUnits figures := by
  have newline : normalizeLines ['\n'] = ['\n'] := rfl
  have line := @normalizedUnits_line "truncated".toList _ (truncatedText_free figures)
  rw [normalizedUnits] at line
  simp only [normalizedUnits, middleUnits, List.map_cons, List.map_append, List.map_nil, newline,
    line]

theorem normalizedUnits_last (time : Numeral figures.elapsed) :
    normalizedUnits (lastUnits figures) = lastUnits figures := by
  have newline : normalizeLines ['\n'] = ['\n'] := rfl
  have lines : normalizedUnits ((endLines figures).flatMap fun line => lineUnits line.1 line.2) =
      (endLines figures).flatMap fun line => lineUnits line.1 line.2 := by
    rw [normalizedUnits, List.map_flatMap]
    refine List.flatMap_congr fun line member => ?_
    exact normalizedUnits_line (endLines_numeral time line member).2.free
  rw [lastUnits, normalizedUnits_append, endUnits, normalizedUnits_element, lines]
  simp only [normalizedUnits, List.map_cons, List.map_nil, newline]

theorem plain_units {units : List (CString × CString)} (marks : MarkUnits units)
    (plain : ∀ u ∈ units, PlainBytes xmlChar u.2) : PlainBytes xmlChar (unitsText units) := by
  intro c member
  obtain ⟨u, there, inside⟩ := List.mem_flatMap.mp member
  rcases List.mem_append.mp inside with tag | text
  · exact (marks u there).1.2.2.2 c tag
  · exact plain u there c text

theorem plain_newline : PlainBytes xmlChar ['\n'] := by decide

theorem plain_line {name value : CString} (plain : PlainBytes xmlChar value) :
    ∀ u ∈ lineUnits name value, PlainBytes xmlChar u.2 := by
  rw [lineUnits, List.forall_mem_cons, List.forall_mem_singleton]
  exact ⟨plain, plain_newline⟩

theorem plain_middle (figures : QueryFigures) :
    PlainBytes xmlChar (unitsText (middleUnits figures)) := by
  have flag : PlainBytes xmlChar (truncatedText figures) := by
    rw [truncatedText]
    split <;> decide
  refine plain_units (marks_middle figures) (List.forall_mem_cons.mpr ⟨plain_newline, ?_⟩)
  exact List.forall_mem_append.mpr
    ⟨plain_line flag, List.forall_mem_singleton.mpr plain_newline⟩

theorem plain_last (time : Numeral figures.elapsed) :
    PlainBytes xmlChar (unitsText (lastUnits figures)) := by
  refine plain_units (marks_last time) (List.forall_mem_append.mpr
    ⟨?_, List.forall_mem_singleton.mpr plain_newline⟩)
  refine List.forall_mem_append.mpr ⟨List.forall_mem_append.mpr
    ⟨List.forall_mem_singleton.mpr plain_newline, ?_⟩, List.forall_mem_singleton.mpr plain_newline⟩
  intro u member
  obtain ⟨line, there, inside⟩ := List.mem_flatMap.mp member
  exact plain_line (endLines_numeral time line there).2.plain u inside

/-- The document around the SQL text and the text of the rows. -/
def documentText (sql : CString) (figures : QueryFigures) (rows : CString) : CString :=
  beforeSql ++ (sql ++ (unitsText (middleUnits figures) ++ (rows ++ unitsText (lastUnits figures))))

theorem middle_head (figures : QueryFigures) (rest : CString) :
    (unitsText (middleUnits figures) ++ rest).head? = some '<' := rfl

theorem last_head (figures : QueryFigures) : (unitsText (lastUnits figures)).head? = some '<' := rfl

theorem encoded_document (time : Numeral figures.elapsed) {sql rows : CString} :
    Encoded xmlChar (xmlDeclaration ++ documentText sql figures rows) ↔
      Encoded xmlChar sql ∧ Encoded xmlChar rows := by
  have declaration : PlainBytes xmlChar xmlDeclaration := by decide +kernel
  have before : PlainBytes xmlChar beforeSql := by decide +kernel
  have middle : unitsText (middleUnits figures) ≠ [] := fun none => nomatch none
  have last : unitsText (lastUnits figures) ≠ [] := fun none => nomatch none
  have ends := @encoded_before_plain xmlChar rows _ [] (plain_last time) last
  rw [List.append_nil, and_iff_left (encoded_nil xmlChar)] at ends
  rw [encoded_after_plain declaration, documentText, encoded_after_plain before,
    encoded_before_plain (plain_middle figures) middle, ends]

theorem normalizeLines_document (time : Numeral figures.elapsed) {sql rows : CString}
    (opens : rows.head? = some '<') : normalizeLines (documentText sql figures rows) =
      documentText (normalizeLines sql) figures (normalizeLines rows) := by
  have before : '\r' ∉ beforeSql := by decide +kernel
  have apart : ∀ {text : CString}, text.head? = some '<' → text.head? ≠ some '\n' := by
    intro text less same
    rw [less] at same
    exact absurd (Option.some.inj same) (by decide)
  have first : (rows ++ unitsText (lastUnits figures)).head? = some '<' := by
    rw [List.head?_append, opens]
    rfl
  have last := @normalizeLines_units _ (marks_last time) [] (by simp)
  rw [List.append_nil, normalizeLines, List.append_nil, normalizedUnits_last time] at last
  rw [documentText, normalizeLines_front before,
    normalizeLines_append (apart (middle_head figures _)),
    normalizeLines_units (marks_middle figures) (apart first), normalizedUnits_middle,
    normalizeLines_append (apart (last_head figures)), last, documentText]

end Envelopes

section Reading

/-- What stands before the rows, within the root. -/
def headText (sql : CString) (figures : QueryFigures) : CString :=
  ['\n'] ++ (startTag "execution_envelope".toList ++ (['\n'] ++
    (startTag "sql_query".toList ++ sql ++ endTag "sql_query".toList) ++ ['\n'] ++
      unitsText (lineUnits "truncated".toList (truncatedText figures))) ++
    endTag "execution_envelope".toList) ++ ['\n']

def headNodes (sql : CString) (figures : QueryFigures) : List Node :=
  [.char '\n', .element "execution_envelope".toList []
    ([.char '\n', leafNode "sql_query".toList sql, .char '\n'] ++
      lineNodes "truncated".toList (truncatedText figures)), .char '\n']

def endNodes (figures : QueryFigures) : List Node :=
  [.element "execution_envelope".toList [] ([.char '\n'] ++
    (endLines figures).flatMap fun line => lineNodes line.1 line.2), .char '\n']

def documentNode (sql : CString) (figures : QueryFigures) (rows : Resultset) : Node :=
  .element "output_xml".toList [] (headNodes sql figures ++
    ([resultsetNode rows, .char '\n'] ++ endNodes figures))

theorem documentText_head (sql : CString) (figures : QueryFigures) (rows : CString) :
    documentText sql figures rows = ['\n'] ++ (startTag "output_xml".toList ++
      (headText sql figures ++ (rows ++ (unitsText (endUnits figures) ++
        (endTag "output_xml".toList ++ ['\n']))))) := by
  have nothing : unitsText [] = [] := rfl
  simp only [documentText, beforeSql, headText, middleUnits, lastUnits, unitsText_cons,
    unitsText_append, nothing, List.append_nil, List.append_assoc]

theorem undeclared_document (text : CString) : undeclared (xmlDeclaration ++ text) = text := by
  rw [undeclared, if_pos (List.isPrefixOf_iff_prefix.mpr (List.prefix_append _ text)),
    List.drop_left]

variable {sql : CString} {figures : QueryFigures}

theorem reads_head (plain : PlainText sql) (figures : QueryFigures) :
    Reads (headText sql figures) (headNodes sql figures) := by
  have envelope := @envelope_tag "execution_envelope".toList (by simp [envelopeNames])
  have query := @envelope_tag "sql_query".toList (by simp [envelopeNames])
  have flag := @envelope_tag "truncated".toList (by simp [envelopeNames])
  have inner := ((reads_newline.append (plain.content.element query.named)).append
    reads_newline).append (reads_line flag (truncatedText_free figures))
  exact (reads_newline.append (inner.content.element envelope.named)).append reads_newline

theorem reads_end (time : Numeral figures.elapsed) :
    Reads (unitsText (endUnits figures)) (endNodes figures) := by
  have envelope := @envelope_tag "execution_envelope".toList (by simp [envelopeNames])
  refine reads_element envelope (fun path inside => run_startTag envelope.named (.inl inside) 0)
    reads_newline ?_ reads_newline
  rw [unitsText_flatMap]
  refine Reads.flatMap fun line member => ?_
  obtain ⟨tag, numeral⟩ := endLines_numeral time line member
  exact reads_line tag numeral.free

theorem reads_resultset {rows : Resultset} (known : rows.Known) :
    Reads (unitsText (resultsetUnits rows)) [resultsetNode rows, .char '\n'] := by
  have tag := @element_tag "resultset".toList (by simp [elementNames])
  exact reads_element tag (fun path inside => run_startTag tag.named (.inl inside) 0)
    reads_newline (reads_rowsUnits known) reads_newline

theorem run_document (plain : PlainText sql) (time : Numeral figures.elapsed) {rows : Resultset}
    (known : rows.Known) :
    run xmlStep .start (documentText sql figures (unitsText (resultsetUnits rows))) =
      some (⟨[], true, .text 0⟩, (documentNode sql figures rows).events) := by
  have root := @envelope_tag "output_xml".toList (by simp [envelopeNames])
  have body := (reads_head plain figures).append ((reads_resultset known).append (reads_end time))
  have blank : run xmlStep .start ['\n'] = some (.start, []) := rfl
  have whole := run_append_some blank (run_root root.named body.content)
  rw [documentText_head]
  simp only [List.append_assoc] at whole ⊢
  exact whole

/-- Up to the SQL text. -/
theorem run_beforeSql : run xmlStep .start beforeSql =
    some (⟨["sql_query".toList, "execution_envelope".toList, "output_xml".toList], true, .text 0⟩,
      [.opened "output_xml".toList [], .char '\n', .opened "execution_envelope".toList [],
        .char '\n', .opened "sql_query".toList []]) := by
  have root := @envelope_tag "output_xml".toList (by simp [envelopeNames])
  have envelope := @envelope_tag "execution_envelope".toList (by simp [envelopeNames])
  have query := @envelope_tag "sql_query".toList (by simp [envelopeNames])
  have blank : run xmlStep .start ['\n'] = some (.start, []) := rfl
  have first : run xmlStep .start (startTag "output_xml".toList) =
      some (⟨["output_xml".toList], true, .text 0⟩, [.opened "output_xml".toList []]) :=
    run_startTag root.named (.inr rfl) 0
  have line := reads_newline ["output_xml".toList] (List.cons_ne_nil _ [])
  have second := @run_startTag ["output_xml".toList] true _ envelope.named (.inl (by simp)) 0
  have line' := reads_newline ["execution_envelope".toList, "output_xml".toList]
    (List.cons_ne_nil _ _)
  have third := @run_startTag ["execution_envelope".toList, "output_xml".toList] true _ query.named
    (.inl (by simp)) 0
  exact run_append_some (run_append_some (run_append_some (run_append_some
    (run_append_some blank first) line) second) line') third

/-- A document that shows the SQL text has it as plain text. -/
theorem plain_of_shown (time : Numeral figures.elapsed) {rows : CString} {root : Node}
    (opens : rows.head? = some '<') (guard : guarded '-' rows = true)
    (reads : ReadsAs (xmlDeclaration ++ documentText sql figures rows) root)
    (shown : root.outside "resultset".toList "sql_query".toList = [charNodes sql]) :
    PlainText sql := by
  obtain ⟨-, last, finished, read⟩ := reads
  have query := @envelope_tag "sql_query".toList (by simp [envelopeNames])
  rw [undeclared_document, normalizeLines_document time opens, documentText] at read
  obtain ⟨_, _, later, head, tail, joined⟩ := run_append_eq_some.mp read
  rw [run_beforeSql] at head
  cases head
  obtain ⟨children, rfl, inRoot⟩ := events_opened joined
  obtain ⟨behindLine, rfl, fromEnvelope⟩ := nodes_char_cons inRoot
  obtain ⟨kids, others, rfl, inEnvelope⟩ := nodes_opened_cons fromEnvelope
  obtain ⟨behindLine', rfl, fromQuery⟩ := nodes_char_cons inEnvelope
  obtain ⟨decoded, more, rfl, inside⟩ := nodes_opened_cons fromQuery
  have same : decoded = charNodes sql := by
    simp [Node.outside, nodesOutside] at shown
    exact shown.1
  rw [same, charNodes, nodesEvents_chars] at inside
  have ended : guarded '-' (unitsText (middleUnits figures) ++
      (normalizeLines rows ++ unitsText (lastUnits figures))) = true :=
    guarded_append (guarded_units (marks_middle figures))
      (guarded_append (guarded_normalizeLines guard) (guarded_units (marks_last time)))
  rw [middleUnits, unitsText_cons, List.append_assoc, List.append_assoc] at ended tail
  exact plain_of_decoded query.named ended tail finished inside.symm

/-- With the element of the rows left open, the end of the document does not finish it. -/
theorem unfinished_last (time : Numeral figures.elapsed) {s last : XmlState} {events : List Event}
    (around : ["resultset".toList, "output_xml".toList] <:+ s.path) (rooted : s.rooted = true)
    (read : run xmlStep s (unitsText (lastUnits figures)) = some (last, events)) :
    ¬last.Finished := by
  have guard := guarded_units (marks_last time)
  by_cases text : ∃ brackets, s.mode = .text brackets
  · obtain ⟨path, _, _⟩ := s
    obtain ⟨brackets, rfl⟩ := text
    cases rooted
    have root := @envelope_tag "output_xml".toList (by simp [envelopeNames])
    have inside : path ≠ [] := by
      rintro rfl
      cases List.suffix_nil.mp around
    have opens : unitsText (lastUnits figures) =
        '<' :: (unitsText (lastUnits figures)).tail := rfl
    rw [opens, run_less, ← opens, lastUnits, unitsText_append, unitsText_single] at read
    obtain ⟨_, _, _, front, closing, -⟩ := run_append_eq_some.mp read
    rw [reads_end time path inside] at front
    cases front
    obtain ⟨_, _, _, tag, newline, -⟩ := run_append_eq_some.mp closing
    obtain ⟨outer, rfl⟩ := run_endTag_named root.named tag
    rw [run_endTag root.named] at tag
    cases tag
    have left : outer ≠ [] := by
      rintro rfl
      exact absurd around.length_le (by simp)
    rw [reads_newline outer left] at newline
    cases newline
    exact fun finished => left finished.1
  · have opens : unitsText (lastUnits figures) =
        '<' :: (unitsText (lastUnits figures)).tail := rfl
    rw [opens] at guard read
    rw [guarded, Bool.and_eq_true] at guard
    exact unfinished_run (fun brackets same => text ⟨brackets, same⟩) guard.2 read

/-- Rows that are broken off leave no document. -/
theorem broken_document (plain : PlainText sql) (time : Numeral figures.elapsed) {rows : Resultset}
    (known : rows.Known) {front : CString} (broken : front <+: unitsText (rowsUnits rows))
    {events : List Event} : ¬ReadsXml (xmlDeclaration ++ documentText sql figures
      (startTag "resultset".toList ++ (['\n'] ++ front))) events := by
  have root := @envelope_tag "output_xml".toList (by simp [envelopeNames])
  have tag := @element_tag "resultset".toList (by simp [elementNames])
  rintro ⟨-, last, finished, read⟩
  have line : normalizeLines (['\n'] ++ front) = ['\n'] ++ normalizeLines front :=
    normalizeLines_front (by decide)
  rw [undeclared_document, normalizeLines_document time rfl, normalizeLines_same plain.line,
    normalizeLines_front tag.opening.2.1, line, documentText_head] at read
  obtain ⟨s, inner, rowsRead, around, rooted⟩ := broken_rows known broken
    (List.cons_ne_nil "resultset".toList ["output_xml".toList])
  have blank : run xmlStep .start ['\n'] = some (.start, []) := rfl
  have first : run xmlStep .start (startTag "output_xml".toList) =
      some (⟨["output_xml".toList], true, .text 0⟩, [.opened "output_xml".toList []]) :=
    run_startTag root.named (.inr rfl) 0
  have head := reads_head plain figures ["output_xml".toList] (List.cons_ne_nil _ [])
  have second := @run_startTag ["output_xml".toList] true _ tag.named (.inl (by simp)) 0
  have all := run_append_some blank (run_append_some first (run_append_some head
    (run_append_some second rowsRead)))
  have last' : unitsText (endUnits figures) ++ (endTag "output_xml".toList ++ ['\n']) =
      unitsText (lastUnits figures) := by
    rw [lastUnits, unitsText_append, unitsText_single]
  rw [last'] at read
  simp only [← List.append_assoc] at all read
  obtain ⟨_, _, _, front', tail, -⟩ := run_append_eq_some.mp read
  rw [all] at front'
  cases front'
  exact unfinished_last time around rooted tail finished

/-- With plain SQL text and fields that fit, the document is read as its elements. -/
theorem reads_document (plain : PlainText sql) (coded : Encoded xmlChar sql)
    (time : Numeral figures.elapsed) {rows : Resultset} (known : rows.Known)
    (texts : ∀ row ∈ rows.records, ∀ field ∈ row.fields, ∀ text ∈ field.texts,
      Encoded xmlChar text) :
    ReadsAs (xmlDeclaration ++ documentText sql figures (unitsText (resultsetUnits rows)))
      (documentNode sql figures rows.normalized) := by
  refine ⟨(encoded_document time).mpr ⟨coded, (encoded_resultset known).mpr texts⟩,
    ⟨[], true, .text 0⟩, ⟨rfl, rfl, 0, rfl⟩, ?_⟩
  rw [undeclared_document, normalizeLines_document time rfl, normalizeLines_same plain.line,
    normalizeLines_resultset known]
  exact run_document plain time known.normalized

theorem outside_charNodes (within name s : CString) : nodesOutside within name (charNodes s) = [] := by
  induction s with
  | nil => rfl
  | cons c s ih => exact ih

/-- The elements of the envelopes, and the one of the rows. -/
theorem outside_document (sql : CString) (figures : QueryFigures) (rows : Resultset) :
    let root := documentNode sql figures rows
    root.outside "resultset".toList "sql_query".toList = [charNodes sql] ∧
      root.outside "resultset".toList "truncated".toList = [charNodes (truncatedText figures)] ∧
      root.outside "resultset".toList "num_rows".toList =
        [charNodes (Nat.toDigits 10 figures.numRows)] ∧
      root.outside "resultset".toList "blobs_extracted".toList =
        [charNodes (Nat.toDigits 10 figures.blobs)] ∧
      root.outside "resultset".toList "clobs_extracted".toList =
        [charNodes (Nat.toDigits 10 figures.clobs)] ∧
      root.outside "resultset".toList "resultset".toList = [resultsetChildren rows] := by
  refine ⟨?_, ?_, ?_, ?_, ?_, ?_⟩ <;>
  simp [documentNode, headNodes, endNodes, endLines, lineNodes, leafNode, resultsetNode, Node.outside,
    nodesOutside, outside_charNodes]

end Reading

section Shown

variable {sql : CString} {run : FetchedSelect} {figures : RunFigures} {rs : DeliveredResultset}

theorem head_of_rows (rs : DeliveredResultset) : rs.responseWriteXml.head? = some '<' := by
  by_cases fits : rs.FieldsFit
  · rw [responseWriteXml_whole fits]
    rfl
  · obtain ⟨front, -, text⟩ := responseWriteXml_broken fits
    rw [text]
    rfl

theorem guard_of_rows (rs : DeliveredResultset) : guarded '-' rs.responseWriteXml = true := by
  have whole := guarded_units (marks_resultsetUnits rs.known)
  by_cases fits : rs.FieldsFit
  · rw [responseWriteXml_whole fits]
    exact whole
  · obtain ⟨front, ⟨rest, rows⟩, text⟩ := responseWriteXml_broken fits
    rw [resultsetUnits_text, ← rows] at whole
    simp only [← List.append_assoc] at whole
    rw [text, ← List.append_assoc]
    exact guarded_front (guarded_front (guarded_front whole))

/-- When the document shows these rows and the run. -/
theorem shows_run_iff (rows : run.rs = rs.toResultset) (short : sql.length < 4096)
    (int : run.numRows < 2 ^ 31) (expected : Resultset) :
    ShowsRun sql run.truncated run.numRows figures expected (queryXml sql run figures) ↔
      PlainText sql ∧ Encoded xmlChar sql ∧ rs.FieldsFit ∧
        (∀ row ∈ rs.records, ∀ field ∈ row.fields, ∀ text ∈ field.texts, Encoded xmlChar text) ∧
        resultsetChildren rs.normalized = resultsetChildren expected := by
  have time : Numeral (envelopeFigures run figures).elapsed := numeral_fixed6 figures.elapsed
  have text := @queryXml_text _ run figures short int
  rw [← documentText, rows] at text
  rw [text]
  constructor
  · rintro ⟨root, reads, shown, -, -, -, -, same⟩
    have plain := plain_of_shown time (head_of_rows rs) (guard_of_rows rs) reads shown
    by_cases fits : rs.FieldsFit
    · rw [responseWriteXml_whole fits] at reads
      obtain ⟨coded, coded'⟩ := (encoded_document time).mp reads.1
      have texts := (encoded_resultset rs.known).mp coded'
      have only := reads.unique (reads_document plain coded time rs.known texts)
      subst only
      obtain ⟨-, -, -, -, -, children⟩ :=
        outside_document sql (envelopeFigures run figures) rs.normalized
      rw [children] at same
      exact ⟨plain, coded, fits, texts, (List.singleton_inj.mp same)⟩
    · obtain ⟨front, broken, cut⟩ := responseWriteXml_broken fits
      rw [cut] at reads
      exact absurd reads (broken_document plain time rs.known broken)
  · rintro ⟨plain, coded, fits, texts, children⟩
    obtain ⟨query, truncated, numRows, blobs, clobs, inside⟩ :=
      outside_document sql (envelopeFigures run figures) rs.normalized
    rw [children] at inside
    rw [responseWriteXml_whole fits]
    exact ⟨_, reads_document plain coded time rs.known texts, query, truncated, numRows, blobs,
      clobs, inside⟩

end Shown

section Outputs

variable {vendor : Vendor} {caching : Bool} {request : CString} {queryMaxRecordCount counted : Int}
  {columns : Nat} {fetched : DeliveredBatches columns} {figures : RunFigures} {out : QueryOutput}

/-- What a request that ends well has left. -/
theorem queryBatchXml_some (ended : queryBatchXml vendor caching request queryMaxRecordCount
      ⟨some counted, some columns, fetched.calls⟩ figures = some out) :
    ∃ count truncated, limitCount queryMaxRecordCount counted = (count, truncated) ∧ 0 ≤ count ∧
      (trimSqlInplace request).length < 4096 ∧ fetched.rows.length ≤ count.toNat ∧
      out.outputXml = queryXml (trimSqlInplace request)
        ⟨truncated, partlyFilled columns count.toNat fetched.rows, fetched.rows.length⟩ figures ∧ ∀ stored ∈ out.stored, stored = out.outputXml := by
  rw [queryBatchXml] at ended
  obtain ⟨deps, extracted, ended⟩ := Option.bind_eq_some_iff.mp ended
  obtain ⟨counting, wrapped, ended⟩ := Option.bind_eq_some_iff.mp ended
  obtain ⟨run, made, ended⟩ := Option.bind_eq_some_iff.mp ended
  rw [fetchSelect_eq] at made
  obtain ⟨fits, -⟩ := wrapRows_some_iff.mp wrapped
  rcases limit : limitCount queryMaxRecordCount counted with ⟨count, truncated⟩
  rw [limit] at made
  split_ifs at made with room
  cases made
  refine ⟨count, truncated, rfl, room.1, ?_, room.2, ?_⟩
  · have total := fits.1
    omega
  · split at ended
    · cases ended
    · cases ended
      refine ⟨rfl, fun stored member => ?_⟩
      cases caching with
      | true => exact (Option.some.inj member).symm
      | false => cases member

theorem exists_numbered {rows : List (List ResultsetField)} {row : List ResultsetField}
    (member : row ∈ rows) : ∃ number, ⟨number, row⟩ ∈ (numbered rows).records := by
  obtain ⟨i, inside, rfl⟩ := List.mem_iff_getElem.mp member
  refine ⟨1 + i, List.mem_map.mpr ⟨(rows[i], 1 + i), ?_, rfl⟩⟩
  rw [List.mk_mem_zipIdx_iff_le_and_getElem?_sub]
  simp

theorem length_rowNodes (rows : List ResultsetRow) :
    (rows.flatMap rowNodes).length = rows.length * 2 := by
  rw [List.length_flatMap]
  simp [rowNodes]

theorem partlyFilled_full (rows : List (List ResultsetField)) :
    partlyFilled columns rows.length rows = numbered rows := by
  rw [partlyFilled, Nat.sub_self]
  simp [numbered]

/-- `execute_query_batch` leaves one document that shows the run when the SQL text needs no escapes,
each field renders, and there are as many rows as were counted, and never otherwise. -/
theorem query_document_iff (ended : queryBatchXml vendor caching request queryMaxRecordCount
      ⟨some counted, some columns, fetched.calls⟩ figures = some out) :
    (ShowsRun (trimSqlInplace request) (limitCount queryMaxRecordCount counted).2
        fetched.rows.length figures (numbered fetched.rows) out.outputXml ∧ ∀ stored ∈ out.stored, stored = out.outputXml) ↔
      PlainText (trimSqlInplace request) ∧ Encoded xmlChar (trimSqlInplace request) ∧
        (∀ row ∈ fetched.rows, ∀ field ∈ row, field.Renders) ∧
        (fetched.rows.length : Int) = (limitCount queryMaxRecordCount counted).1 := by
  obtain ⟨count, truncated, limit, positive, short, room, document, stored⟩ :=
    queryBatchXml_some ended
  have int := limitCount_lt queryMaxRecordCount counted
  rw [limit] at int
  have rows : (fetched.resultset room (by omega)).records.length = count.toNat :=
    length_partlyFilled room
  have core := @shows_run_iff (trimSqlInplace request) ⟨truncated, _, fetched.rows.length⟩ figures
    (fetched.resultset room (by omega)) rfl short (by dsimp only; omega) (numbered fetched.rows)
  rw [and_iff_left stored, limit, document]
  refine core.trans ?_
  refine and_congr_right fun _ => and_congr_right fun _ => ?_
  have filled : count.toNat = fetched.rows.length →
      (fetched.resultset room (by omega)).toResultset = numbered fetched.rows := by
    intro full
    exact (congrArg (partlyFilled columns · fetched.rows) full).trans (partlyFilled_full _)
  constructor
  · rintro ⟨fits, texts, children⟩
    injection children with _ nodes
    have sizes := congrArg List.length nodes
    rw [length_rowNodes, length_rowNodes, length_numbered, Resultset.normalized, List.length_map]
      at sizes
    have same := filled (by omega)
    rw [← same] at nodes
    have lines := texts_of_rows nodes
    refine ⟨fun row member field inside => ?_, by omega⟩
    obtain ⟨number, there⟩ := exists_numbered member
    rw [← same] at there
    exact ⟨fits _ there field inside, fun text shown =>
      ⟨texts _ there field inside text shown, lines _ there field inside text shown⟩⟩
  · rintro ⟨renders, full⟩
    have same := filled (by omega)
    have each : ∀ row ∈ (fetched.resultset room (by omega)).records, ∀ field ∈ row.fields,
        field.Renders := by
      intro row there
      rw [same] at there
      exact renders row.fields (mem_numbered there).2
    refine ⟨fun row there field inside => (each row there field inside).1,
      fun row there field inside text shown => ((each row there field inside).2 text shown).1, ?_⟩
    rw [normalized_same fun row there field inside text shown =>
      ((each row there field inside).2 text shown).2, same]

theorem queryBatchXml_whole {count : Int} {sql : CString} (trimmed : trimSqlInplace request = sql)
    (extracted : (extractSqlDependencies sql).isSome = true) (fits : Fits vendor .count sql 4096)
    (limit : limitCount queryMaxRecordCount counted = (count, false)) (positive : 0 ≤ count)
    (room : fetched.rows.length ≤ count.toNat) : ∃ out,
      queryBatchXml vendor caching request queryMaxRecordCount
        ⟨some counted, some columns, fetched.calls⟩ figures = some out ∧
      out.outputXml = queryXml sql ⟨false, partlyFilled columns count.toNat fetched.rows,
        fetched.rows.length⟩ figures := by
  have wrapped := wrapRows_some_iff.mpr (And.intro fits rfl)
  have made := fetchSelect_eq queryMaxRecordCount counted fetched.toFetchedBatches
  obtain ⟨deps, found⟩ := Option.isSome_iff_exists.mp extracted
  rw [limit, if_pos ⟨positive, room⟩] at made
  rw [queryBatchXml, trimmed, found, wrapped, made]
  exact ⟨_, rfl, rfl⟩

end Outputs

/-- A batch of one row with one number. -/
def oneNumber : DeliveredBatches 1 where
  batches := [[[.text ['N'] ['X'] ['1']]]]
  filled := by simp
  shaped := by simp
  delivered := by simp [ResultsetField.Delivered]

/-- A run of a millisecond with no LOBs. -/
def shortRun : RunFigures := ⟨10, [⟨0, 0⟩], 1000, by decide, by decide, by decide, by decide⟩

theorem query_document_iff_one : ∃ out,
    queryBatchXml .oracle true "SELECT N FROM T".toList 10
      ⟨some 1, some 1, oneNumber.calls⟩ shortRun = some out ∧
    ShowsRun "SELECT N FROM T".toList false 1 shortRun (numbered oneNumber.rows) out.outputXml := by
  have trimmed : trimSqlInplace "SELECT N FROM T".toList = "SELECT N FROM T".toList := rfl
  have extracted : (extractSqlDependencies "SELECT N FROM T".toList).isSome = true := by
    decide +kernel
  have fits : Fits .oracle .count "SELECT N FROM T".toList 4096 := ⟨by decide, nofun⟩
  have room : oneNumber.rows.length ≤ (1 : Int).toNat := by decide
  obtain ⟨out, ended, -⟩ := @queryBatchXml_whole .oracle true _ 10 1 1 oneNumber shortRun 1 _
    trimmed extracted fits rfl (by decide) room
  have plain : PlainText "SELECT N FROM T".toList :=
    ⟨by decide, by decide, by decide, by decide⟩
  have renders : ∀ row ∈ oneNumber.rows, ∀ field ∈ row, field.Renders := by decide +kernel
  exact ⟨out, ended, ((query_document_iff ended).mpr
    ⟨plain, by decide +kernel, renders, by decide⟩).1⟩

/-- A comparison in the SQL text is taken for markup. -/
theorem less_breaks_document : ∃ out,
    queryBatchXml .oracle true "SELECT N FROM T WHERE N<2".toList 10
      ⟨some 1, some 1, oneNumber.calls⟩ shortRun = some out ∧
    ¬ShowsRun "SELECT N FROM T WHERE N<2".toList false 1 shortRun (numbered oneNumber.rows)
      out.outputXml := by
  have trimmed : trimSqlInplace "SELECT N FROM T WHERE N<2".toList =
      "SELECT N FROM T WHERE N<2".toList := rfl
  have extracted : (extractSqlDependencies "SELECT N FROM T WHERE N<2".toList).isSome = true := by
    decide +kernel
  have fits : Fits .oracle .count "SELECT N FROM T WHERE N<2".toList 4096 := ⟨by decide, nofun⟩
  have room : oneNumber.rows.length ≤ (1 : Int).toNat := by decide
  obtain ⟨out, ended, document⟩ := @queryBatchXml_whole .oracle true _ 10 1 1 oneNumber shortRun 1 _
    trimmed extracted fits rfl (by decide) room
  have short : "SELECT N FROM T WHERE N<2".toList.length < 4096 := by decide
  have int : (1 : Nat) < 2 ^ 31 := by decide
  have most : (1 : Int).toNat < 2 ^ 31 := by decide
  refine ⟨out, ended, fun shows => ?_⟩
  rw [document] at shows
  have core := @shows_run_iff _ ⟨false, _, 1⟩ shortRun (oneNumber.resultset room most) rfl short int
    (numbered oneNumber.rows)
  exact absurd (core.mp shows).1.less (by decide)

end OciWrapper.Execute
