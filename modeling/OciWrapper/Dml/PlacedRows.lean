import OciWrapper.Dml.SecondValidation
import OciWrapper.Dml.StatementBinds

namespace OciWrapper.Dml

open OciWrapper.Text

/-- A name in one case. -/
def folded (name : CString) : CString := name.map Char.toLower

/-- The columns that a row names, in any case. -/
def columnSet (row : List FieldValue) : Finset CString :=
  (row.map fun field => folded field.fieldName).toFinset

theorem strcasecmp_iff {a b : CString} : strcasecmp a b = true ↔ folded a = folded b := by
  rw [strcasecmp, decide_eq_true_eq]
  rfl

theorem mem_columnSet {row : List FieldValue} {name : CString} :
    folded name ∈ columnSet row ↔ ∃ field ∈ row, strcasecmp field.fieldName name = true := by
  simp only [columnSet, List.mem_toFinset, List.mem_map, strcasecmp_iff]

/-- Each column has the value that the row gives to it, and no value of the row is left out. -/
def PlacedRow (row : List FieldValue) (colNames : List CString) (values : List ColValue) : Prop :=
  List.Forall₂ (fun colName v =>
    (∃ field ∈ row, strcasecmp field.fieldName colName = true) ∧
      ∀ field ∈ row, strcasecmp field.fieldName colName = true → v.get = field.get)
    colNames values ∧
  ∀ field ∈ row, ∃ colName ∈ colNames, strcasecmp field.fieldName colName = true

/-- All rows name the columns of the first, and the context has what each gives to them. -/
def RowsPlaced (heap : Bool) (req : InsertRequest) : Prop :=
  (∀ row ∈ req.rows, columnSet row = columnSet (req.rows.headD [])) ∧
    ∃ ic, buildInsertCtx heap req = some ic ∧
      List.Forall₂ (fun row values => PlacedRow row ic.colNames values) req.rows ic.rows

/-- The rows leave no column out by naming another one again, give no column two values, and fit
the context. -/
structure Placeable (heap : Bool) (rows : List (List FieldValue)) : Prop where
  distinct : ∀ row ∈ rows, (columnSet row).card = (columnSet (rows.headD [])).card
  single : ∀ row ∈ rows, ∀ field ∈ row, ∀ other ∈ row,
    strcasecmp field.fieldName other.fieldName = true → field.get = other.get
  filled : rows.headD [] ≠ []
  fewRows : rows.length ≤ maxInsertRows
  fewColumns : (rows.headD []).length ≤ maxInsertCols
  whole : heap = true ∨ ∀ row ∈ rows, ∀ field ∈ row, field.get.length < maxColValueSize

section Rows

variable {heap : Bool} {row reference : List FieldValue} {colName : CString} {v : ColValue}

theorem rowFieldSetsMatch_iff_subset :
    rowFieldSetsMatch reference row = true ↔
      reference.length = row.length ∧ columnSet reference ⊆ columnSet row := by
  simp only [rowFieldSetsMatch, Bool.and_eq_true, beq_iff_eq, List.all_eq_true, List.any_eq_true]
  refine and_congr_right fun _ => ?_
  constructor
  · intro each name member
    simp only [columnSet, List.mem_toFinset, List.mem_map] at member ⊢
    obtain ⟨field, inside, rfl⟩ := member
    obtain ⟨other, found, same⟩ := each field inside
    exact ⟨other, found, (strcasecmp_iff.mp same).symm⟩
  · intro subset field inside
    have member : folded field.fieldName ∈ columnSet reference :=
      mem_columnSet.mpr ⟨field, inside, strcasecmp_iff.mpr rfl⟩
    obtain ⟨other, found, same⟩ := mem_columnSet.mp (subset member)
    exact ⟨other, found, strcasecmp_iff.mpr (strcasecmp_iff.mp same).symm⟩

/-- The test tells a row with the same columns by their number. -/
theorem rowFieldSetsMatch_eq_iff (matched : rowFieldSetsMatch reference row = true) :
    columnSet row = columnSet reference ↔ (columnSet row).card = (columnSet reference).card := by
  obtain ⟨-, subset⟩ := rowFieldSetsMatch_iff_subset.mp matched
  constructor
  · intro same
    rw [same]
  · intro count
    exact (Finset.eq_of_subset_of_card_le subset (le_of_eq count)).symm

theorem colValue_get (heap : Bool) (real : CString) :
    (colValue heap real).get =
      if heap = true ∨ real.length < maxColValueSize then real
      else real.take (maxColValueSize - 1) := by
  rw [colValue]
  by_cases short : real.length < maxColValueSize
  · simp [short, ColValue.get]
  · cases heap <;> simp [short, ColValue.get]

theorem colValue_get_length (real : CString) :
    (colValue false real).get.length < maxColValueSize := by
  rw [colValue_get]
  split
  next whole =>
    rcases whole with heap | short
    · cases heap
    · exact short
  · have cut := List.length_take_le (maxColValueSize - 1) real
    have some : 0 < maxColValueSize := by decide
    omega

theorem rowValue_eq_some (found : rowValue heap row colName = some v) :
    ∃ field ∈ row, strcasecmp field.fieldName colName = true ∧ v = colValue heap field.get := by
  rw [rowValue, Option.map_eq_some_iff] at found
  obtain ⟨field, first, rfl⟩ := found
  have named := List.find?_some first
  exact ⟨field, List.mem_of_find?_eq_some first, named, rfl⟩

theorem rowValue_eq_none :
    rowValue heap row colName = none ↔
      ¬∃ field ∈ row, strcasecmp field.fieldName colName = true := by
  simp [rowValue]

theorem insertRow_eq_some {colNames : List CString} {values : List ColValue} :
    insertRow heap colNames row = some values →
      row.length = colNames.length ∧
        List.Forall₂ (fun colName v => rowValue heap row colName = some v) colNames values := by
  intro built
  rw [insertRow] at built
  split at built
  · cases built
  next length => exact ⟨of_not_not length, mapM_forall₂ built⟩

end Rows

section Contexts

variable {heap : Bool} {req : InsertRequest} {ic : InsertCtx}

theorem buildInsertCtx_eq_some (built : buildInsertCtx heap req = some ic) :
    req.rows.headD [] ≠ [] ∧ req.rows.length ≤ maxInsertRows ∧
      (req.rows.headD []).length ≤ maxInsertCols ∧
      List.Forall₂ (fun row values => insertRow heap ic.colNames row = some values) req.rows
        ic.rows := by
  rw [buildInsertCtx] at built
  split at built
  · cases built
  next row0 rows shape =>
    split at built
    · cases built
    next within =>
      obtain ⟨values, mapped, rfl⟩ := Option.map_eq_some_iff.mp built
      simp only [not_or, Nat.not_lt] at within
      obtain ⟨fewRows, filled, fewColumns⟩ := within
      rw [shape] at fewRows mapped ⊢
      exact ⟨filled, fewRows, fewColumns, mapM_forall₂ mapped⟩

/-- The context is built of rows that name the same columns. -/
theorem buildInsertCtx_of_rows (filled : req.rows.headD [] ≠ [])
    (fewRows : req.rows.length ≤ maxInsertRows)
    (fewColumns : (req.rows.headD []).length ≤ maxInsertCols)
    (names : ∀ row ∈ req.rows, ∀ field ∈ row, Fits 128 field.fieldName)
    (lengths : ∀ row ∈ req.rows, row.length = (req.rows.headD []).length)
    (sets : ∀ row ∈ req.rows, columnSet row = columnSet (req.rows.headD [])) :
    ∃ ic, buildInsertCtx heap req = some ic ∧
      ic.colNames = (req.rows.headD []).map (·.fieldName) := by
  rw [buildInsertCtx]
  cases shape : req.rows with
  | nil =>
    rw [shape] at filled
    exact (filled rfl).elim
  | cons row0 rows =>
    rw [shape] at filled fewRows fewColumns names lengths sets
    simp only [List.headD_cons] at filled fewColumns lengths sets ⊢
    have within : ¬(maxInsertRows < (row0 :: rows).length ∨ row0 = [] ∨
        maxInsertCols < row0.length) := by
      simp only [not_or, Nat.not_lt]
      exact ⟨fewRows, filled, fewColumns⟩
    have uncut : (row0.map fun field => field.fieldName.take nameMax) =
        row0.map (·.fieldName) := by
      apply List.map_congr_left
      intro field member
      exact List.take_of_length_le (Nat.le_of_lt_succ (names row0 List.mem_cons_self field member))
    rw [if_neg within, uncut]
    cases mapped : (row0 :: rows).mapM (insertRow heap (row0.map (·.fieldName))) with
    | some values => exact ⟨_, rfl, rfl⟩
    | none =>
      obtain ⟨row, member, failed⟩ := mapM_eq_none_iff.mp mapped
      have width : ¬row.length ≠ (row0.map (·.fieldName)).length := by
        rw [List.length_map]
        exact not_not_intro (lengths row member)
      rw [insertRow, if_neg width] at failed
      obtain ⟨colName, listed, missing⟩ := mapM_eq_none_iff.mp failed
      obtain ⟨field, inside, rfl⟩ := List.mem_map.mp listed
      have named : folded field.fieldName ∈ columnSet row0 :=
        mem_columnSet.mpr ⟨field, inside, strcasecmp_iff.mpr rfl⟩
      rw [← sets row member] at named
      exact (rowValue_eq_none.mp missing (mem_columnSet.mp named)).elim

/-- What a row puts into the context, where it gives a column one value only. -/
theorem placedRow_of_built {row : List FieldValue} {colNames : List CString}
    {values : List ColValue} (built : insertRow heap colNames row = some values)
    (single : ∀ field ∈ row, ∀ other ∈ row,
      strcasecmp field.fieldName other.fieldName = true → field.get = other.get)
    (whole : heap = true ∨ ∀ field ∈ row, field.get.length < maxColValueSize)
    (listed : ∀ field ∈ row, ∃ colName ∈ colNames, strcasecmp field.fieldName colName = true) :
    PlacedRow row colNames values := by
  obtain ⟨-, found⟩ := insertRow_eq_some built
  refine ⟨found.imp fun colName v value => ?_, listed⟩
  obtain ⟨field, member, named, rfl⟩ := rowValue_eq_some value
  refine ⟨⟨field, member, named⟩, fun other inside same => ?_⟩
  have uncut : heap = true ∨ field.get.length < maxColValueSize :=
    whole.imp id fun each => each field member
  rw [colValue_get, if_pos uncut]
  apply single field member other inside
  rw [strcasecmp_iff] at named same ⊢
  rw [named, same]

/-- Two values that a row gives to one column are one in the context. -/
theorem PlacedRow.single {row : List FieldValue} {colNames : List CString}
    {values : List ColValue} (placed : PlacedRow row colNames values) {field other : FieldValue}
    (member : field ∈ row) (inside : other ∈ row)
    (same : strcasecmp field.fieldName other.fieldName = true) : field.get = other.get := by
  obtain ⟨colName, listed, named⟩ := placed.2 field member
  obtain ⟨v, -, -, given⟩ := exists_of_forall₂ placed.1 listed
  have alike : strcasecmp other.fieldName colName = true := by
    rw [strcasecmp_iff] at named same ⊢
    rw [← same, named]
  rw [← given field member named, given other inside alike]

theorem PlacedRow.short {row : List FieldValue} {colNames : List CString}
    {values : List ColValue} (placed : PlacedRow row colNames values)
    (built : insertRow false colNames row = some values) :
    ∀ field ∈ row, field.get.length < maxColValueSize := by
  intro field member
  obtain ⟨-, found⟩ := insertRow_eq_some built
  obtain ⟨colName, listed, named⟩ := placed.2 field member
  obtain ⟨v, -, ⟨-, given⟩, value⟩ := exists_of_forall₂ (forall₂_and placed.1 found) listed
  obtain ⟨source, -, -, rfl⟩ := rowValue_eq_some value
  rw [← given field member named]
  exact colValue_get_length source.get

end Contexts

/-- Rows that passed the test of the validator are placed in full exactly when they are placeable. -/
theorem rows_placed_iff {heap : Bool} {req : InsertRequest}
    (names : ∀ row ∈ req.rows, ∀ field ∈ row, Fits 128 field.fieldName)
    (matched : ∀ row ∈ req.rows, rowFieldSetsMatch (req.rows.headD []) row = true) :
    RowsPlaced heap req ↔ Placeable heap req.rows := by
  constructor
  · intro ⟨sets, ic, built, placed⟩
    obtain ⟨filled, fewRows, fewColumns, rows⟩ := buildInsertCtx_eq_some built
    refine ⟨fun row member => congrArg Finset.card (sets row member), ?_, filled, fewRows,
      fewColumns, ?_⟩
    · intro row member field inside other found same
      obtain ⟨values, -, place⟩ := exists_of_forall₂ placed member
      exact place.single inside found same
    · cases heap with
      | true => exact Or.inl rfl
      | false =>
        refine Or.inr fun row member => ?_
        obtain ⟨values, -, place, made⟩ := exists_of_forall₂ (forall₂_and placed rows) member
        exact place.short made
  · intro placeable
    have sets : ∀ row ∈ req.rows, columnSet row = columnSet (req.rows.headD []) := by
      intro row member
      exact (rowFieldSetsMatch_eq_iff (matched row member)).mpr (placeable.distinct row member)
    have lengths : ∀ row ∈ req.rows, row.length = (req.rows.headD []).length := by
      intro row member
      exact (rowFieldSetsMatch_iff_subset.mp (matched row member)).1.symm
    obtain ⟨ic, built, columns⟩ := buildInsertCtx_of_rows placeable.filled placeable.fewRows
      placeable.fewColumns names lengths sets
    obtain ⟨-, -, -, rows⟩ := buildInsertCtx_eq_some built
    refine ⟨sets, ic, built, ?_⟩
    have each : ∀ row ∈ req.rows, ∀ values, insertRow heap ic.colNames row = some values →
        PlacedRow row ic.colNames values := by
      intro row member values made
      apply placedRow_of_built made (placeable.single row member)
      · exact placeable.whole.imp id fun short => short row member
      · intro field inside
        have named : folded field.fieldName ∈ columnSet row :=
          mem_columnSet.mpr ⟨field, inside, strcasecmp_iff.mpr rfl⟩
        rw [sets row member] at named
        obtain ⟨first, listed, same⟩ := mem_columnSet.mp named
        refine ⟨first.fieldName, ?_, ?_⟩
        · rw [columns]
          exact List.mem_map_of_mem listed
        · rw [strcasecmp_iff] at same ⊢
          exact same.symm
    have members : List.Forall₂ (fun row values => row ∈ req.rows ∧
        insertRow heap ic.colNames row = some values) req.rows ic.rows :=
      (List.forall₂_and_left _ _).mpr ⟨fun row member => member, rows⟩
    exact members.imp fun row values made => each row made.1 values made.2

theorem rowFieldSetsMatch_refl (row : List FieldValue) : rowFieldSetsMatch row row = true :=
  rowFieldSetsMatch_iff_subset.mpr ⟨rfl, subset_rfl⟩

/-- An accepted INSERT names the same columns in all of its rows, and the context gets every value
that they give, exactly when the rows are placeable. -/
theorem accepted_rows_placed_iff {ctx : Level2Context} {calendar : Calendar} {req : InsertRequest}
    (heap : Bool) (accepted : (level2ValidateInsert ctx calendar req).1.statusCode = level2Ok)
    (names : ∀ row ∈ req.rows, ∀ field ∈ row, Fits 128 field.fieldName) :
    RowsPlaced heap (level2ValidateInsert ctx calendar req).2 ↔
      Placeable heap (level2ValidateInsert ctx calendar req).2.rows := by
  obtain ⟨cols, shape⟩ := insertShape_of_ok accepted
  have after := shape.after calendar
  have kept : (checkRows ctx calendar req cols).1.map rowNames = req.rows.map rowNames :=
    checkEach_keeps rowNames checkRow_keeps_names 0 req.rows
  rw [level2ValidateInsert_of_shape calendar shape]
  apply rows_placed_iff
  · intro row member field inside
    have listed : rowNames row ∈ req.rows.map rowNames := by
      rw [← kept]
      exact List.mem_map_of_mem member
    obtain ⟨original, found, same⟩ := List.mem_map.mp listed
    have named : field.fieldName ∈ rowNames original := by
      rw [same]
      exact List.mem_map_of_mem inside
    obtain ⟨source, held, alike⟩ := List.mem_map.mp named
    rw [← alike]
    exact names original found source held
  · have sets := List.all_eq_true.mp after.sets
    intro row member
    obtain ⟨first, rest, rows⟩ := List.exists_cons_of_ne_nil after.rows
    rw [rows] at sets member ⊢
    rcases List.mem_cons.mp member with rfl | later
    · exact rowFieldSetsMatch_refl row
    · exact sets row later

/-- Rows that name no column twice, whatever their order, differ in nothing the condition asks for. -/
theorem distinct_of_nodup {rows : List (List FieldValue)}
    (matched : ∀ row ∈ rows, rowFieldSetsMatch (rows.headD []) row = true)
    (once : ((rows.headD []).map fun field => folded field.fieldName).Nodup) :
    ∀ row ∈ rows, (columnSet row).card = (columnSet (rows.headD [])).card := by
  intro row member
  obtain ⟨length, subset⟩ := rowFieldSetsMatch_iff_subset.mp (matched row member)
  have most : (columnSet row).card ≤ row.length := by
    have bound := List.toFinset_card_le (row.map fun field => folded field.fieldName)
    rwa [List.length_map] at bound
  have all : (columnSet (rows.headD [])).card = (rows.headD []).length := by
    have count := List.toFinset_card_of_nodup once
    rwa [List.length_map] at count
  have least := Finset.card_le_card subset
  omega

def twoColumns : Level2Context where
  maxBulkInserts := 100
  metadata := fun _ _ => some [⟨"ID".toList, "NUMBER".toList, 22, 10, 0, ['Y'], []⟩,
    ⟨"NAME".toList, "VARCHAR2".toList, 40, -1, -1, ['Y'], []⟩]
  validateField := fun _ => .ok ()

def given (name value : String) : FieldValue := ⟨name.toList, value.toList, none, []⟩

def reorderedRows : InsertRequest where
  tableName := "T".toList
  owner := []
  rows := [[given "ID" "1", given "NAME" "a"], [given "name" "b", given "id" "2"]]

def repeatedRows : InsertRequest where
  tableName := "T".toList
  owner := []
  rows := [[given "ID" "1", given "ID" "1"], [given "ID" "2", given "NAME" "b"]]

theorem accepted_rows_placed_reordered :
    (level2ValidateInsert twoColumns (fun _ _ => ⟨2026, 10⟩) reorderedRows).1.statusCode = level2Ok ∧
      (RowsPlaced true (level2ValidateInsert twoColumns (fun _ _ => ⟨2026, 10⟩) reorderedRows).2 ↔
        Placeable true
          (level2ValidateInsert twoColumns (fun _ _ => ⟨2026, 10⟩) reorderedRows).2.rows) := by
  have accepted : (level2ValidateInsert twoColumns (fun _ _ => ⟨2026, 10⟩)
      reorderedRows).1.statusCode = level2Ok := by
    decide +kernel
  exact ⟨accepted, accepted_rows_placed_iff true accepted (by decide)⟩

/-- The first row repeats a column, and the name of the second is lost. -/
theorem repeated_column_loses_value :
    (level2ValidateInsert twoColumns (fun _ _ => ⟨2026, 10⟩) repeatedRows) =
      (setOk, repeatedRows) ∧ ¬RowsPlaced true repeatedRows := by
  refine ⟨by decide +kernel, fun placed => ?_⟩
  have same := placed.1 [given "ID" "2", given "NAME" "b"] (by simp [repeatedRows])
  exact absurd same (by decide +kernel)

end OciWrapper.Dml
