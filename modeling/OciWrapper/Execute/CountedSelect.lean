import OciWrapper.Text.Chars

namespace OciWrapper.Execute

open OciWrapper.Text

/-- `resultset_field_t`, as `resultset_set_field` or `resultset_set_blob_field` leaves it. -/
inductive ResultsetField
  | text (fieldName fieldType value : CString)
  | blob (fieldName fileName filePath fileUrl : CString) (fileSize : Nat) (mimeType : CString)

/-- A field as `calloc` leaves it. -/
def ResultsetField.zeroed : ResultsetField := .text [] [] []

structure ResultsetRow where
  recordNumber : Nat
  fields : List ResultsetField

structure Resultset where
  records : List ResultsetRow

/-- `resultset_create`. -/
def resultsetCreate (recordCount fieldsPerRow : Int) : Option Resultset :=
  if recordCount < 0 ∨ fieldsPerRow < 0 then none
  else some ⟨(List.range recordCount.toNat).map fun i =>
    ⟨i + 1, List.replicate fieldsPerRow.toNat .zeroed⟩⟩

/-- `resultset_get_row`. -/
def resultsetGetRow (rs : Resultset) (recordNumber : Int) : Option ResultsetRow :=
  if recordNumber < 1 ∨ rs.records.length < recordNumber then none
  else rs.records[(recordNumber - 1).toNat]?

/-- Both setters; an index behind the row's fields changes nothing. -/
def ResultsetRow.setField (row : ResultsetRow) (fieldIndex : Nat) (field : ResultsetField) :
    ResultsetRow :=
  { row with fields := row.fields.set fieldIndex field }

/-- `for (int f = 0; f < src_row->field_count; f++)`. -/
def copyFields : Nat → List ResultsetField → ResultsetRow → ResultsetRow
  | _, [], dst => dst
  | f, field :: fields, dst => copyFields (f + 1) fields (dst.setField f field)

/-- `for (int r = 0; r < rows_fetched; r++)`. -/
def copyRows : List (List ResultsetField) → Resultset → Nat → Option (Resultset × Nat)
  | [], rs, absRownum => some (rs, absRownum)
  | src :: rows, rs, absRownum =>
    match resultsetGetRow rs (absRownum + 1) with
    | none => none
    | some dst =>
      copyRows rows ⟨rs.records.set absRownum (copyFields 0 src dst)⟩ (absRownum + 1)

/-- The fetch loop of a synchronous request, over what `select_fetch_batch` gives call by call; it
fails when a call does, and is still waiting behind the last one. -/
def fetchLoop : List (Option (List (List ResultsetField))) → Resultset → Nat →
    Option (Resultset × Nat)
  | [], _, _ => none
  | none :: _, _, _ => none
  | some [] :: _, rs, absRownum => some (rs, absRownum)
  | some rows :: later, rs, absRownum =>
    (copyRows rows rs absRownum).bind fun (rs, absRownum) => fetchLoop later rs absRownum

/-- What the driver gives: the result of the count query, the columns of the opened cursor, and the
batches. -/
structure SelectSource where
  counted : Option Int
  opened : Option Nat
  fetched : List (Option (List (List ResultsetField)))

/-- The count, clamped to an `int`. -/
def clampCount (counted : Int) : Int :=
  if 2147483647 < counted then 2147483647 else if counted < 0 then 0 else counted

structure JsonRow (Json : Type) where
  rowNumber : Nat
  fields : List Json

section Writers

variable {Json : Type} (fieldXml : ResultsetField → CString) (fieldJson : ResultsetField → Json)

/-- `xml_add_row_start`, the row's fields and `xml_add_row_end`. -/
def rowXml (row : ResultsetRow) : CString :=
  "<row number=\"".toList ++ Nat.toDigits 10 row.recordNumber ++ "\">\n".toList ++
    row.fields.flatMap fieldXml ++ "</row>\n".toList

/-- `response_write_xml`, with what it writes of a field. -/
def resultsetXml (rs : Resultset) : CString :=
  "<resultset>\n".toList ++ rs.records.flatMap (rowXml fieldXml) ++ "</resultset>\n".toList

/-- The array that `response_write_json` makes. -/
def resultsetJson (rs : Resultset) : List (JsonRow Json) :=
  rs.records.map fun row => ⟨row.recordNumber, row.fields.map fieldJson⟩

/-- What a synchronous SELECT leaves of its run. -/
structure SelectDocument (Json : Type) where
  truncated : Bool
  resultset : CString
  resultsetJson : List (JsonRow Json)
  numRows : Nat

/-- `execute_query_batch` of a synchronous request, from the count query on. -/
def executeSelect (queryMaxRecordCount : Int) (source : SelectSource) :
    Option (SelectDocument Json) := do
  let counted ← source.counted
  let recordCount := clampCount counted
  let (recordCount, truncated) :=
    if recordCount < 1 then (recordCount, false)
    else if queryMaxRecordCount < recordCount then (queryMaxRecordCount, true)
    else (recordCount, false)
  let columns ← source.opened
  let rs ← resultsetCreate recordCount columns
  let (rs, absRownum) ← fetchLoop source.fetched rs 0
  some ⟨truncated, resultsetXml fieldXml rs, resultsetJson fieldJson rs, absRownum⟩

end Writers

/-- The rows, numbered from 1. -/
def numbered (rows : List (List ResultsetField)) : Resultset :=
  ⟨(rows.zipIdx 1).map fun (fields, number) => ⟨number, fields⟩⟩

/-- The batches of a cursor: each has rows, and each row the cursor's columns. -/
structure FetchedBatches (columns : Nat) where
  batches : List (List (List ResultsetField))
  filled : ∀ batch ∈ batches, batch ≠ []
  shaped : ∀ batch ∈ batches, ∀ row ∈ batch, row.length = columns

namespace FetchedBatches

variable {columns : Nat}

def rows (fetched : FetchedBatches columns) : List (List ResultsetField) :=
  fetched.batches.flatten

/-- The calls that give the batches, and the one that finds no more rows. -/
def calls (fetched : FetchedBatches columns) : List (Option (List (List ResultsetField))) :=
  fetched.batches.map some ++ [some []]

end FetchedBatches

/-- The request succeeds, and its document has exactly the fetched rows. -/
def RowsRendered {Json : Type} (fieldXml : ResultsetField → CString)
    (fieldJson : ResultsetField → Json) (queryMaxRecordCount counted : Int) {columns : Nat}
    (fetched : FetchedBatches columns) : Prop :=
  executeSelect fieldXml fieldJson queryMaxRecordCount
      ⟨some counted, some columns, fetched.calls⟩ =
    some ⟨false, resultsetXml fieldXml (numbered fetched.rows),
      resultsetJson fieldJson (numbered fetched.rows), fetched.rows.length⟩

section Filling

variable {columns : Nat}

/-- A result set of `count` rows whose first ones are filled. -/
def partlyFilled (columns count : Nat) (rows : List (List ResultsetField)) : Resultset :=
  ⟨(numbered rows).records ++ (List.range' rows.length (count - rows.length)).map fun i =>
    ⟨i + 1, List.replicate columns .zeroed⟩⟩

theorem length_numbered (rows : List (List ResultsetField)) :
    (numbered rows).records.length = rows.length := by
  rw [numbered, List.length_map, List.length_zipIdx]

theorem numbered_concat (rows : List (List ResultsetField)) (row : List ResultsetField) :
    (numbered (rows ++ [row])).records = (numbered rows).records ++ [⟨rows.length + 1, row⟩] := by
  simp only [numbered, List.zipIdx_append, List.map_append, List.zipIdx_cons, List.zipIdx_nil,
    List.map_cons, List.map_nil, Nat.add_comm]

theorem resultsetCreate_filled {count : Int} (bound : 0 ≤ count) :
    resultsetCreate count columns = some (partlyFilled columns count.toNat []) := by
  rw [resultsetCreate, if_neg (by omega), partlyFilled, List.length_nil, Nat.sub_zero,
    List.range_eq_range']
  rfl

theorem length_partlyFilled {count : Nat} {rows : List (List ResultsetField)}
    (bound : rows.length ≤ count) : (partlyFilled columns count rows).records.length = count := by
  rw [partlyFilled, List.length_append, List.length_map, List.length_range', length_numbered]
  omega

/-- The next row that is not filled. -/
theorem partlyFilled_next {count : Nat} {rows : List (List ResultsetField)}
    (room : rows.length < count) : (partlyFilled columns count rows).records =
      (numbered rows).records ++ ⟨rows.length + 1, List.replicate columns .zeroed⟩ ::
        (List.range' (rows.length + 1) (count - (rows.length + 1))).map fun i =>
          ⟨i + 1, List.replicate columns .zeroed⟩ := by
  obtain ⟨more, rfl⟩ := Nat.exists_eq_add_of_lt room
  have left : rows.length + more + 1 - rows.length = more + 1 := by omega
  have later : rows.length + more + 1 - (rows.length + 1) = more := by omega
  rw [partlyFilled, left, later, List.range'_succ]
  rfl

theorem copyFields_all {number : Nat} {src : List ResultsetField} :
    ∀ {done pending : List ResultsetField}, src.length = pending.length →
      copyFields done.length src ⟨number, done ++ pending⟩ = ⟨number, done ++ src⟩ := by
  induction src with
  | nil =>
    intro done pending size
    rw [copyFields, List.eq_nil_of_length_eq_zero size.symm]
  | cons field src ih =>
    intro done pending size
    cases pending with
    | nil => cases size
    | cons old pending =>
      have step := @ih (done ++ [field]) pending (Nat.succ.inj size)
      rw [List.length_append, List.append_assoc, List.append_assoc] at step
      rw [copyFields, ResultsetRow.setField, List.set_append_right _ _ (Nat.le_refl _),
        Nat.sub_self]
      exact step

/-- A row is copied to the next place, where there is one. -/
theorem copyRows_spec {count : Nat} {rows : List (List ResultsetField)}
    (shaped : ∀ row ∈ rows, row.length = columns) : ∀ {done : List (List ResultsetField)},
    done.length ≤ count →
    copyRows rows (partlyFilled columns count done) done.length =
      if done.length + rows.length ≤ count then
        some (partlyFilled columns count (done ++ rows), done.length + rows.length)
      else none := by
  induction rows with
  | nil =>
    intro done bound
    rw [copyRows, List.length_nil, Nat.add_zero, if_pos bound, List.append_nil]
  | cons row rows ih =>
    intro done bound
    obtain ⟨width, others⟩ := List.forall_mem_cons.mp shaped
    have size := @length_partlyFilled columns count done bound
    by_cases room : done.length < count
    · have inside : ¬((done.length : Int) + 1 < 1 ∨
          ((partlyFilled columns count done).records.length : Int) < done.length + 1) := by
        rw [size]
        omega
      have place : ((done.length : Int) + 1 - 1).toNat = done.length := by omega
      have next := @partlyFilled_next columns count done room
      have found : resultsetGetRow (partlyFilled columns count done) (done.length + 1) =
          some ⟨done.length + 1, List.replicate columns .zeroed⟩ := by
        rw [resultsetGetRow, if_neg inside, place, next]
        exact List.getElem?_append_right (length_numbered done).le |>.trans
          (by rw [length_numbered, Nat.sub_self]; rfl)
      have copied : copyFields 0 row ⟨done.length + 1, List.replicate columns .zeroed⟩ =
          ⟨done.length + 1, row⟩ :=
        @copyFields_all (done.length + 1) row [] _ (by rw [List.length_replicate, width])
      have after : (⟨(partlyFilled columns count done).records.set done.length
          ⟨done.length + 1, row⟩⟩ : Resultset) = partlyFilled columns count (done ++ [row]) := by
        rw [next, List.set_append_right _ _ (length_numbered done).le, length_numbered,
          Nat.sub_self, partlyFilled, numbered_concat, List.length_append, List.append_assoc]
        rfl
      have step := @ih others (done ++ [row]) (by rw [List.length_append]; exact room)
      rw [List.length_append, List.append_assoc] at step
      rw [copyRows, found]
      dsimp only
      rw [copied, after]
      refine step.trans ?_
      simp only [List.length_cons, List.length_nil, List.singleton_append]
      rw [Nat.zero_add, Nat.add_assoc, Nat.add_comm 1 rows.length]
    · have outside : (done.length : Int) + 1 < 1 ∨
          ((partlyFilled columns count done).records.length : Int) < done.length + 1 := by
        rw [size]
        omega
      have missing : resultsetGetRow (partlyFilled columns count done) (done.length + 1) = none :=
        if_pos outside
      rw [copyRows, missing, if_neg]
      rw [List.length_cons]
      omega

/-- The loop succeeds when the rows fit the result set. -/
theorem fetchLoop_spec {count : Nat} {batches : List (List (List ResultsetField))}
    (filled : ∀ batch ∈ batches, batch ≠ [])
    (shaped : ∀ batch ∈ batches, ∀ row ∈ batch, row.length = columns) :
    ∀ {done : List (List ResultsetField)}, done.length ≤ count →
    fetchLoop (batches.map some ++ [some []]) (partlyFilled columns count done) done.length =
      if done.length + batches.flatten.length ≤ count then
        some (partlyFilled columns count (done ++ batches.flatten),
          done.length + batches.flatten.length)
      else none := by
  induction batches with
  | nil =>
    intro done bound
    rw [List.flatten_nil, List.length_nil, Nat.add_zero, if_pos bound, List.append_nil]
    rfl
  | cons batch batches ih =>
    intro done bound
    obtain ⟨rowsThere, filled⟩ := List.forall_mem_cons.mp filled
    obtain ⟨width, shaped⟩ := List.forall_mem_cons.mp shaped
    have loop : fetchLoop ((batch :: batches).map some ++ [some []])
        (partlyFilled columns count done) done.length =
        (copyRows batch (partlyFilled columns count done) done.length).bind
          fun (rs, absRownum) => fetchLoop (batches.map some ++ [some []]) rs absRownum := by
      cases batch with
      | nil => exact absurd rfl rowsThere
      | cons row batch => rfl
    rw [loop, copyRows_spec width bound, List.flatten_cons, List.length_append]
    by_cases room : done.length + batch.length ≤ count
    · have step := @ih filled shaped (done ++ batch) (by rw [List.length_append]; exact room)
      rw [List.length_append, List.append_assoc, Nat.add_assoc] at step
      rw [if_pos room]
      exact step
    · rw [if_neg room, if_neg (by omega)]
      rfl

end Filling

section Rendering

variable {Json : Type} {fieldXml : ResultsetField → CString} {fieldJson : ResultsetField → Json}
  {columns : Nat}

theorem executeSelect_eq {queryMaxRecordCount counted : Int}
    (whole : clampCount counted < 1 ∨ clampCount counted ≤ queryMaxRecordCount)
    (fetched : FetchedBatches columns) :
    executeSelect fieldXml fieldJson queryMaxRecordCount
        ⟨some counted, some columns, fetched.calls⟩ =
      if fetched.rows.length ≤ (clampCount counted).toNat then
        some ⟨false,
          resultsetXml fieldXml (partlyFilled columns (clampCount counted).toNat fetched.rows),
          resultsetJson fieldJson (partlyFilled columns (clampCount counted).toNat fetched.rows),
          fetched.rows.length⟩
      else none := by
  have positive : 0 ≤ clampCount counted := by
    rw [clampCount]
    split_ifs <;> omega
  have limited : (if clampCount counted < 1 then (clampCount counted, false)
      else if queryMaxRecordCount < clampCount counted then (queryMaxRecordCount, true)
      else (clampCount counted, false)) = (clampCount counted, false) := by
    split_ifs <;> first | rfl | omega
  have loop := @fetchLoop_spec columns (clampCount counted).toNat fetched.batches fetched.filled
    fetched.shaped [] (Nat.zero_le _)
  rw [List.length_nil, Nat.zero_add, List.nil_append] at loop
  simp only [executeSelect, limited, Option.bind_eq_bind, Option.bind_some,
    resultsetCreate_filled positive]
  rw [FetchedBatches.calls, loop, FetchedBatches.rows]
  split <;> rfl

theorem framed_inj {a b c d : CString} (same : a ++ b ++ d = a ++ c ++ d) : b = c :=
  List.append_cancel_left (List.append_cancel_right same)

/-- A row that is not filled is rendered, too. -/
theorem partlyFilled_rendered {count : Nat} {rows : List (List ResultsetField)}
    (bound : rows.length ≤ count)
    (same : resultsetXml fieldXml (partlyFilled columns count rows) =
      resultsetXml fieldXml (numbered rows)) : count = rows.length := by
  unfold resultsetXml at same
  have inner := framed_inj same
  rw [partlyFilled, List.flatMap_append] at inner
  have nothing := List.append_right_eq_self.mp inner
  by_contra more
  obtain ⟨others, rfl⟩ := Nat.exists_eq_add_of_lt (Nat.lt_of_le_of_ne bound (Ne.symm more))
  have left : rows.length + others + 1 - rows.length = others + 1 := by omega
  rw [left, List.range'_succ, List.map_cons, List.flatMap_cons] at nothing
  have front := (List.append_eq_nil_iff.mp nothing).1
  unfold rowXml at front
  have last := (List.append_eq_nil_iff.mp front).2
  have filled : "</row>\n".toList ≠ [] := by decide +kernel
  exact filled last

end Rendering

end OciWrapper.Execute
