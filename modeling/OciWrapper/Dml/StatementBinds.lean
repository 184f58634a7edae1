import OciWrapper.Dml.BoundValues
import OciWrapper.Text.Traversals

namespace OciWrapper.Dml

open OciWrapper.Text

variable {vendor : Vendor} {cols : List ColMetadata} {readFile : CString → Option CString}

theorem mem_insertLobWrites {ic : InsertCtx} {count r c : Nat} :
    (∃ w ∈ insertLobWrites cols ic count, w.row = r ∧ w.column = c) ↔
      r < count ∧ ∃ values colName v, ic.rows[r]? = some values ∧ ic.colNames[c]? = some colName ∧
        values[c]? = some v ∧ dbTypeLobKind (dataTypeOf cols colName) ≠ .none ∧ v.isEmpty = false := by
  simp only [insertLobWrites, List.mem_flatMap, List.mem_filterMap, Option.map_eq_some_iff,
    Prod.exists, List.mem_zipIdx_iff_getElem?, List.getElem?_take]
  constructor
  · rintro ⟨w, ⟨values, r', row, colName, v, c', column, isBlob, kind, rfl⟩, rfl, rfl⟩
    split at row
    · rename_i within
      obtain ⟨name, value⟩ := List.getElem?_zip_eq_some.mp column
      exact ⟨within, values, colName, v, row, name, value,
        (lobWriteKind_isSome cols colName v).mp ⟨isBlob, kind⟩⟩
    · cases row
  · rintro ⟨within, values, colName, v, row, name, value, written⟩
    obtain ⟨isBlob, kind⟩ := (lobWriteKind_isSome cols colName v).mpr written
    exact ⟨⟨r, c, isBlob⟩, ⟨values, r, by rw [if_pos within]; exact row, colName, v, c,
      List.getElem?_zip_eq_some.mpr ⟨name, value⟩, isBlob, kind, rfl⟩, rfl, rfl⟩

theorem mem_updateLobWrites {uc : UpdateCtx} {count r c : Nat} :
    (∃ w ∈ updateLobWrites cols uc count, w.row = r ∧ w.column = c) ↔
      r < count ∧ ∃ colName v, uc.colNames[c]? = some colName ∧ uc.values[c]? = some v ∧
        dbTypeLobKind (dataTypeOf cols colName) ≠ .none ∧ v.isEmpty = false := by
  simp only [updateLobWrites, List.mem_flatMap, Prod.exists, List.mem_zipIdx_iff_getElem?]
  constructor
  · rintro ⟨w, ⟨colName, v, c', column, inside⟩, rfl, rfl⟩
    obtain ⟨name, value⟩ := List.getElem?_zip_eq_some.mp column
    split at inside
    · rename_i isBlob kind
      obtain ⟨r', within, rfl⟩ := List.mem_map.mp inside
      exact ⟨List.mem_range.mp within, colName, v, name, value,
        (lobWriteKind_isSome cols colName v).mp ⟨isBlob, kind⟩⟩
    · cases inside
  · rintro ⟨within, colName, v, name, value, written⟩
    obtain ⟨isBlob, kind⟩ := (lobWriteKind_isSome cols colName v).mpr written
    refine ⟨⟨r, c, isBlob⟩, ⟨colName, v, c, List.getElem?_zip_eq_some.mpr ⟨name, value⟩, ?_⟩, rfl, rfl⟩
    rw [kind]
    exact List.mem_map.mpr ⟨r, List.mem_range.mpr within, rfl⟩

/-- Every row of the context has a value for every column. -/
theorem buildInsertCtx_width {heap : Bool} {req : InsertRequest} {ic : InsertCtx}
    (built : buildInsertCtx heap req = some ic) :
    ∀ values ∈ ic.rows, values.length = ic.colNames.length := by
  rw [buildInsertCtx] at built
  split at built
  · cases built
  · split at built
    · cases built
    · obtain ⟨rows, mapped, rfl⟩ := Option.map_eq_some_iff.mp built
      intro values member
      obtain ⟨r, within, same⟩ := List.mem_iff_getElem.mp member
      have related := mapM_forall₂ mapped
      have length := related.length_eq
      have inside : r < rows.length := within
      have row := (List.forall₂_iff_get.mp related).2 r (by omega) inside
      simp only [List.get_eq_getElem, same, insertRow] at row
      split at row
      · cases row
      · exact ((mapM_forall₂ row).length_eq).symm

theorem insert_agrees (reported : ReportedColumns vendor cols) {tableKey : Option (Option CString)}
    {heap : Bool} {req : InsertRequest} {ic : InsertCtx} {sql : CString} {n : Nat}
    (context : buildInsertCtx heap req = some ic)
    (built : buildInsertSql vendor tableKey ic cols = some (sql, n)) :
    ∃ items, InsertAgrees vendor readFile cols ic sql n items := by
  obtain ⟨items, mid, tail, names, placed, same⟩ := buildInsertSql_eq_some built
  have counted := placed.count 0
  rw [Nat.zero_add] at counted
  have width := buildInsertCtx_width context
  refine ⟨items, ⟨mid, tail, same⟩, names, counted, fun rows bindings => ?_, fun count r c => ?_⟩
  · have related := mapM_forall₂ bindings
    refine List.forall₂_iff_get.mpr ⟨related.length_eq, fun r within inside => ?_⟩
    have row := (List.forall₂_iff_get.mp related).2 r within inside
    have wide := width _ (List.get_mem ic.rows ⟨r, within⟩)
    rw [← names, List.length_map] at wide
    rw [← names] at row ⊢
    refine (placed.bound reported 0 wide row).imp fun place value bound => ?_
    obtain ⟨k, same, bound⟩ := bound
    rw [Nat.zero_add] at same
    exact same ▸ bound
  · rw [mem_insertLobWrites]
    constructor
    · rintro ⟨within, values, colName, v, row, name, value, kind, given⟩
      exact ⟨within, (placed.lob_iff reported (by rw [names]; exact name)).mpr kind, values, v, row, value, given⟩
    · rintro ⟨within, lob, values, v, row, value, given⟩
      have columnCount := width values (List.mem_of_getElem? row)
      have inside : c < ic.colNames.length := by
        have := (List.getElem?_eq_some_iff.mp value).1
        omega
      have name := List.getElem?_eq_getElem inside
      exact ⟨within, values, ic.colNames[c], v, row, name, value,
        (placed.lob_iff reported (by rw [names]; exact name)).mp lob, given⟩

theorem update_agrees (reported : ReportedColumns vendor cols) {tableKey : Option (Option CString)}
    {heap : Bool} {req : UpdateRequest} {uc : UpdateCtx} {sql : CString} {pos : Nat}
    (context : buildUpdateCtx heap req = some uc)
    (built : buildUpdateSql vendor tableKey uc cols = some (sql, pos)) :
    ∃ sets wheres, UpdateAgrees vendor readFile cols uc sql pos sets wheres := by
  obtain ⟨sets, wheres, n, mid, tail, names, placed, keys, ⟨m, keysPlaced, position⟩, same⟩ :=
    buildUpdateSql_eq_some context built
  obtain ⟨-, -, -, width⟩ := buildUpdateCtx_bounds context
  have setCount : sets.length = uc.colNames.length := by rw [← names, List.length_map]
  have keyCount : wheres.length = uc.keys.length := by
    have lengths := congrArg List.length keys
    rwa [List.length_map, List.length_map] at lengths
  refine ⟨sets, wheres, ⟨mid, tail, same⟩, names, keys, ?_, fun bound bindings => ?_,
    fun count r c => ?_⟩
  · have first := placed.count 0
    have second := keysPlaced.count (0 + sets.length)
    rw [attached, attachedFrom_append, List.length_append]
    omega
  · rw [updateBindValues, Option.map_eq_some_iff] at bindings
    obtain ⟨values, row, rfl⟩ := bindings
    rw [attached, attachedFrom_append]
    refine List.rel_append ?_ ?_
    · rw [← names] at row ⊢
      refine (placed.bound reported 0 (by omega) row).imp fun place value bound => ?_
      obtain ⟨k, same, bound⟩ := bound
      rw [Nat.zero_add] at same
      exact .inl (same ▸ bound)
    · rw [keysPlaced.attached, keyCount, Nat.zero_add, setCount]
      refine List.forall₂_iff_get.mpr ⟨by simp, fun k within inside => ?_⟩
      simp only [List.length_map, List.length_range] at within
      refine .inr ⟨k, uc.keys[k], ?_, List.getElem?_eq_getElem within, ?_⟩
      · simp
      · simp
  · rw [mem_updateLobWrites]
    constructor
    · rintro ⟨within, colName, v, name, value, kind, given⟩
      exact ⟨within, (placed.lob_iff reported (by rw [names]; exact name)).mpr kind, v, value, given⟩
    · rintro ⟨within, lob, v, value, given⟩
      have inside : c < uc.colNames.length := by
        have := (List.getElem?_eq_some_iff.mp value).1
        omega
      have name := List.getElem?_eq_getElem inside
      exact ⟨within, uc.colNames[c], v, name, value,
        (placed.lob_iff reported (by rw [names]; exact name)).mp lob, given⟩

/-- Every INSERT and UPDATE statement that is built agrees with what is bound for it. -/
theorem statements_agree_with_binds (vendor : Vendor) (readFile : CString → Option CString)
    (cols : List ColMetadata) (reported : ReportedColumns vendor cols)
    (tableKey : Option (Option CString)) (heap : Bool) :
    (∀ req ic sql n, buildInsertCtx heap req = some ic →
      buildInsertSql vendor tableKey ic cols = some (sql, n) →
        ∃ items, InsertAgrees vendor readFile cols ic sql n items) ∧
    (∀ req uc sql pos, buildUpdateCtx heap req = some uc →
      buildUpdateSql vendor tableKey uc cols = some (sql, pos) →
        ∃ sets wheres, UpdateAgrees vendor readFile cols uc sql pos sets wheres) :=
  ⟨fun _ _ _ _ context built => insert_agrees reported context built,
    fun _ _ _ _ context built => update_agrees reported context built⟩

def sampleColumns : List ColMetadata :=
  [⟨"ID".toList, OracleType.number.dataType, 22, 10, 0, ['N'], []⟩,
    ⟨"DOC".toList, OracleType.clob.dataType, 4000, -1, -1, ['Y'], []⟩,
    ⟨"DAY".toList, OracleType.date.dataType, 7, -1, -1, ['Y'], []⟩]

def sampleField (name value : String) : FieldValue := ⟨name.toList, value.toList, none, []⟩

def sampleInsert : InsertRequest :=
  ⟨"T".toList, "O".toList,
    [[sampleField "DAY" "2026-01-02 00:00:00", sampleField "DOC" "text", sampleField "ID" "7"]]⟩

def sampleUpdate : UpdateRequest :=
  ⟨"T".toList, [], [⟨"ID".toList, ['7'], []⟩], [sampleField "DOC" "text", sampleField "DAY" ""]⟩

theorem statements_agree_with_binds_sample :
    (∃ ic items, InsertAgrees .oracle some sampleColumns ic
      (insertText "O.T".toList "DAY, DOC, ID".toList []
        "TO_DATE(:1,'YYYY-MM-DD HH24:MI:SS'), EMPTY_CLOB(), :2".toList
        "RETURNING ROWID INTO :3".toList) 2 items) ∧
    ∃ uc sets wheres, UpdateAgrees .oracle some sampleColumns uc
      (updateText ['T'] "DOC=EMPTY_CLOB(), DAY=TO_DATE(:1,'YYYY-MM-DD HH24:MI:SS')".toList []
        "ID=:2".toList "RETURNING ROWID INTO :3".toList) 3 sets wheres := by
  have reported : ReportedColumns .oracle sampleColumns := by
    intro col member
    simp only [sampleColumns, List.mem_cons, List.not_mem_nil, or_false] at member
    rcases member with rfl | rfl | rfl
    · exact ⟨.number, rfl⟩
    · exact ⟨.clob, rfl⟩
    · exact ⟨.date, rfl⟩
  have agree := statements_agree_with_binds .oracle some sampleColumns reported (some none) true
  exact ⟨⟨_, agree.1 sampleInsert _ _ _ rfl (by decide +kernel)⟩,
    ⟨_, agree.2 sampleUpdate _ _ _ rfl (by decide +kernel)⟩⟩

/-- `sampleInsert` with an empty text for `DOC`. -/
def emptyTextCtx : InsertCtx :=
  ⟨"T".toList, "O".toList, ["ID".toList, "DOC".toList],
    [[⟨['7'], none, false⟩, ⟨[], none, true⟩]]⟩

/-- `DOC` has the LOB placeholder, and nothing is written for its empty value. -/
theorem empty_text_is_not_written :
    buildInsertCtx true ⟨"T".toList, "O".toList, [[sampleField "ID" "7", sampleField "DOC" ""]]⟩ =
      some emptyTextCtx ∧
    (buildInsertSql .oracle (some none) emptyTextCtx sampleColumns).map (·.1) =
      some (insertText "O.T".toList "ID, DOC".toList [] ":1, EMPTY_CLOB()".toList
        "RETURNING ROWID INTO :2".toList) ∧
    Vendor.lobPlaceholder .oracle (dataTypeOf sampleColumns "DOC".toList) =
      some "EMPTY_CLOB()".toList ∧
    ¬ ∃ w ∈ insertLobWrites sampleColumns emptyTextCtx 1, w.row = 0 ∧ w.column = 1 := by
  refine ⟨rfl, by decide +kernel, by decide +kernel, ?_⟩
  decide +kernel

end OciWrapper.Dml
