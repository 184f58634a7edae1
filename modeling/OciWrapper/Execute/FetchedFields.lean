import OciWrapper.Execute.OracleClobs
import OciWrapper.Text.Traversals

namespace OciWrapper.Execute

open OciWrapper.Text OciWrapper.Core

/-- `buf_sizes` of a scalar column. -/
def oracleBufSize (dataSize : Nat) : Nat := max 64 (dataSize + 32)

/-- A cell of a row as Oracle returns it, with what writing its file comes to. -/
inductive OracleCell where
  | scalar (colName typeName : CString) (dataSize : Nat) (value : Option CString)
      (fits : ∀ text ∈ value, text.length < oracleBufSize dataSize)
  | clob (colName clobUrl : CString) (fileWritten : Bool) (value : Option (List Char))
  | blob (fetched : Option FetchedField)

structure OracleCursor where
  oci : OciLobs
  documented : oci.Documented
  chunkReadSize : Nat
  textLobsInline : Bool
  exhausted : Bool

/-- `OCIStmtFetch2`. -/
inductive OciFetch where
  | failed
  | fetched (noData : Bool) (rows : List (List OracleCell))

def oracleField (cur : OracleCursor) : OracleCell → Option FetchedField
  | .scalar colName typeName _ value _ =>
    some ⟨resultsetSetField colName typeName (value.getD []), none, 0⟩
  | .clob colName clobUrl fileWritten value =>
    oracleFetchClobField cur.oci cur.chunkReadSize cur.textLobsInline fileWritten colName clobUrl
      value
  | .blob fetched => fetched

def oracleSelectFetchBatch (cur : OracleCursor) (fetch : OciFetch) :
    OracleCursor × Option (List (List FetchedField)) :=
  if cur.exhausted then (cur, some [])
  else match fetch with
    | .failed => (cur, none)
    | .fetched noData rows =>
      ({ cur with exhausted := noData }, rows.mapM fun row => row.mapM (oracleField cur))

/-- The SQL types `ms_buf_size` tells apart. -/
inductive MsType where
  | character
  | binary
  | other

def msBufSize (type : MsType) (colsize : Nat) : Nat :=
  let n := match type with
    | .character => colsize * 4 + 1
    | .binary => colsize * 2 + 1
    | .other => colsize + 3
  min 16004 (max 64 n)

/-- A bound column of one row; `totalKnown` when the driver can tell the length of a value that does
not fit. -/
structure MsScalar where
  colName : CString
  fieldType : CString
  type : MsType
  colsize : Nat
  value : Option CString
  totalKnown : Bool

def MsScalar.bufSize (s : MsScalar) : Nat := msBufSize s.type s.colsize

/-- The length indicator: `SQL_NULL_DATA` is -1 and `SQL_NO_TOTAL` is -4. -/
def MsScalar.ind (s : MsScalar) : Int :=
  match s.value with
  | none => -1
  | some text => if text.length < s.bufSize ∨ s.totalKnown then text.length else -4

/-- The bytes of the fetch buffer before its terminator. -/
def MsScalar.buf (s : MsScalar) : CString := (s.value.getD []).take (s.bufSize - 1)

def msScalarField (s : MsScalar) : Option FetchedField :=
  let set := fun value => ⟨resultsetSetField s.colName s.fieldType value, none, 0⟩
  if s.ind = -1 then some (set [])
  else if s.ind = -4 ∨ s.ind < 0 ∨ s.bufSize ≤ s.ind then none
  else some (set s.buf)

/-- A cell of a row with a long column. `value` of a text is what `ms_read_long` makes of it, `none`
when it fails. -/
inductive MsCell where
  | scalar (column : MsScalar)
  | text (colName clobUrl : CString) (fileWritten : Bool) (value : Option (Option CString))
  | blob (fetched : Option FetchedField)

/-- `ms_clob_field`. -/
def msClobField (textLobsInline fileWritten : Bool) (colName clobUrl : CString)
    (value : Option CString) : Option FetchedField :=
  let text := value.getD []
  clobField textLobsInline (fileWritten && decide (text.length < 2 ^ 32)) colName clobUrl text

def msField (textLobsInline : Bool) : MsCell → Option FetchedField
  | .scalar column => msScalarField column
  | .text colName clobUrl fileWritten value =>
    value.bind (msClobField textLobsInline fileWritten colName clobUrl)
  | .blob fetched => fetched

structure MssqlCursor where
  textLobsInline : Bool
  exhausted : Bool

/-- A row of the bound buffers; `rowError` is `SQL_ROW_ERROR`. -/
structure MsBoundRow where
  rowError : Bool
  columns : List MsScalar

def msBoundRow (row : MsBoundRow) : Option (List FetchedField) :=
  if row.rowError then none else row.columns.mapM msScalarField

/-- What `SQLFetch` gives: bound rows, or for a result with a long column the rows until the batch is
full, the result ends or a call fails. -/
inductive MsFetch where
  | failed
  | bound (rows : List MsBoundRow)
  | long (rows : List (List MsCell)) (noData broken : Bool)

def mssqlSelectFetchBatch (cur : MssqlCursor) (fetch : MsFetch) :
    MssqlCursor × Option (List (List FetchedField)) :=
  if cur.exhausted then (cur, some [])
  else match fetch with
    | .failed => (cur, none)
    | .bound rows => ({ cur with exhausted := rows.isEmpty }, rows.mapM msBoundRow)
    | .long rows noData broken =>
      ({ cur with exhausted := noData },
        (rows.mapM fun row : List MsCell => row.mapM (msField cur.textLobsInline)).bind fun fetched =>
          if broken then none else some fetched)

/-- A call of `select_fetch_batch` of either driver. -/
inductive SelectFetch where
  | oracle (cur : OracleCursor) (fetch : OciFetch)
  | mssql (cur : MssqlCursor) (fetch : MsFetch)

def SelectFetch.result : SelectFetch → Option (List (List FetchedField))
  | .oracle cur fetch => (oracleSelectFetchBatch cur fetch).2
  | .mssql cur fetch => (mssqlSelectFetchBatch cur fetch).2

inductive SelectCell where
  | oracle (cur : OracleCursor) (cell : OracleCell)
  | mssql (textLobsInline : Bool) (cell : MsCell)

def SelectCell.field : SelectCell → Option FetchedField
  | .oracle cur cell => oracleField cur cell
  | .mssql textLobsInline cell => msField textLobsInline cell

/-- The rows that the call gets from the database. -/
def SelectFetch.rows : SelectFetch → List (List SelectCell)
  | .oracle cur (.fetched _ rows) => if cur.exhausted then [] else rows.map (·.map (.oracle cur))
  | .mssql cur (.bound rows) =>
    if cur.exhausted then []
    else rows.map (·.columns.map fun column => .mssql cur.textLobsInline (.scalar column))
  | .mssql cur (.long rows _ _) =>
    if cur.exhausted then [] else rows.map (·.map (.mssql cur.textLobsInline))
  | _ => []

/-- The call meets an error of the database. -/
def SelectFetch.broken : SelectFetch → Bool
  | .oracle cur .failed => !cur.exhausted
  | .mssql cur .failed => !cur.exhausted
  | .mssql cur (.bound rows) => !cur.exhausted && rows.any (·.rowError)
  | .mssql cur (.long _ _ broken) => !cur.exhausted && broken
  | _ => false

theorem mapM_rows_map {α β γ : Type} (cell : α → β) (field : β → Option γ) (rows : List (List α)) :
    (rows.map fun row => row.map cell).mapM (fun row => row.mapM field) =
      rows.mapM fun row => row.mapM fun x => field (cell x) := by
  simp only [List.mapM_map, Function.comp_def]

theorem mapM_msBoundRow (textLobsInline : Bool) (rows : List MsBoundRow) :
    rows.mapM msBoundRow =
      if rows.any (·.rowError) then none
      else (rows.map fun row => row.columns.map fun column =>
        SelectCell.mssql textLobsInline (.scalar column)).mapM
          fun row => row.mapM SelectCell.field := by
  induction rows with
  | nil => rfl
  | cons row rows ih =>
    rw [List.mapM_cons, ih, List.any_cons, msBoundRow]
    cases row.rowError with
    | true => rfl
    | false =>
      have columns : (row.columns.map fun column => SelectCell.mssql textLobsInline
          (.scalar column)).mapM SelectCell.field = row.columns.mapM msScalarField := by
        rw [List.mapM_map]
        rfl
      rw [Bool.false_or, List.map_cons, List.mapM_cons, columns]
      cases rows.any (·.rowError) with
      | true => cases row.columns.mapM msScalarField <;> rfl
      | false => rfl

theorem SelectFetch.result_eq (fetch : SelectFetch) :
    fetch.result =
      if fetch.broken then none else fetch.rows.mapM fun row => row.mapM SelectCell.field := by
  cases fetch with
  | oracle cur fetch =>
    simp only [SelectFetch.result, oracleSelectFetchBatch]
    cases done : cur.exhausted with
    | true => cases fetch <;> simp [SelectFetch.broken, SelectFetch.rows, done]
    | false =>
      cases fetch with
      | failed => simp [SelectFetch.broken, done]
      | fetched noData rows =>
        simp only [SelectFetch.broken, SelectFetch.rows, done, Bool.false_eq_true, if_false,
          mapM_rows_map]
        rfl
  | mssql cur fetch =>
    simp only [SelectFetch.result, mssqlSelectFetchBatch]
    cases done : cur.exhausted with
    | true => cases fetch <;> simp [SelectFetch.broken, SelectFetch.rows, done]
    | false =>
      cases fetch with
      | failed => simp [SelectFetch.broken, done]
      | bound rows =>
        simp only [SelectFetch.broken, SelectFetch.rows, done, Bool.false_eq_true, if_false,
          Bool.not_false, Bool.true_and, mapM_msBoundRow cur.textLobsInline]
      | long rows noData broken =>
        simp only [SelectFetch.broken, SelectFetch.rows, done, Bool.false_eq_true, if_false,
          Bool.not_false, Bool.true_and, mapM_rows_map]
        cases broken with
        | true => cases rows.mapM fun row => row.mapM (msField cur.textLobsInline) <;> rfl
        | false => exact Option.bind_fun_some _

/-- The text of a cell, empty for NULL. -/
def SelectCell.text : SelectCell → Option CString
  | .oracle _ (.scalar _ _ _ value _) => some (value.getD [])
  | .oracle _ (.clob _ _ _ value) => some (utf8 (value.getD []))
  | .mssql _ (.scalar column) => some (column.value.getD [])
  | .mssql _ (.text _ _ _ value) => some ((value.join).getD [])
  | _ => none

/-- A text with no file of its own is in the field, complete. -/
def SelectCell.Delivered (cell : SelectCell) (fetched : FetchedField) : Prop :=
  ∀ text ∈ cell.text, fetched.file = none → fetched.field.value = text

/-- The fetch refuses this value. -/
def SelectCell.Refused : SelectCell → Prop
  | .oracle _ (.scalar ..) => False
  | .oracle cur (.clob _ _ _ value) => ∃ clob ∈ value,
    ¬(Ascii clob ∧ clob.length + 1 < 2 ^ 32 ∧ (clob ≠ [] → ub4 cur.chunkReadSize ≠ 0)) ∨
      (cur.textLobsInline = true ∧ 4095 < clob.length)
  | .mssql _ (.scalar column) => ∃ text ∈ column.value, column.bufSize ≤ text.length
  | .mssql textLobsInline (.text _ _ _ value) =>
    value = none ∨ (textLobsInline = true ∧ 4095 < ((value.join).getD []).length)
  | .oracle _ (.blob fetched) => fetched = none
  | .mssql _ (.blob fetched) => fetched = none

/-- The text, where it is put in the field, is no longer than the field and has no NUL byte. -/
def SelectCell.Fits (cell : SelectCell) : Prop :=
  let inField := match cell with
    | .oracle cur (.clob _ _ fileWritten _) => cur.textLobsInline || !fileWritten
    | .mssql textLobsInline (.text _ _ fileWritten value) =>
      textLobsInline || !fileWritten || decide (2 ^ 32 ≤ ((value.join).getD []).length)
    | _ => true
  ∀ text ∈ cell.text, inField = true → text.length ≤ 4095 ∧ '\x00' ∉ text

theorem clobField_eq_none_iff {textLobsInline fileWritten : Bool} {colName clobUrl text : CString} :
    clobField textLobsInline fileWritten colName clobUrl text = none ↔
      textLobsInline = true ∧ 4095 < text.length := by
  rw [clobField]
  by_cases empty : text = []
  · simp [empty]
  · cases textLobsInline <;> cases fileWritten <;> simp [empty]

theorem clobField_delivers {textLobsInline fileWritten : Bool} {colName clobUrl text : CString}
    {fetched : FetchedField}
    (placed : clobField textLobsInline fileWritten colName clobUrl text = some fetched) :
    (fetched.file = none → fetched.field.value = text) ↔
      ((textLobsInline || !fileWritten) = true → text.length ≤ 4095 ∧ '\x00' ∉ text) := by
  have kept := strncpyField_eq_self_iff 4096 text
  rw [clobField] at placed
  by_cases empty : text = []
  · simp only [empty, if_true, Option.some.injEq] at placed
    subst placed
    simp [empty, resultsetSetField, strncpyField]
  · cases textLobsInline with
    | true =>
      simp only [empty, if_false, if_true] at placed
      split at placed
      · cases placed
      · cases placed
        simpa [resultsetSetField] using kept
    | false =>
      cases fileWritten with
      | true =>
        simp only [empty, if_false, Bool.false_eq_true, if_true, Option.some.injEq] at placed
        subst placed
        simp
      | false =>
        simp only [empty, if_false, Bool.false_eq_true, Option.some.injEq] at placed
        subst placed
        simpa [resultsetSetField] using kept

theorem msScalarField_eq (s : MsScalar) :
    msScalarField s =
      if ∃ text ∈ s.value, s.bufSize ≤ text.length then none
      else some ⟨resultsetSetField s.colName s.fieldType (s.value.getD []), none, 0⟩ := by
  have large : 64 ≤ s.bufSize := by
    simp only [MsScalar.bufSize, msBufSize]
    omega
  rw [msScalarField, MsScalar.ind, MsScalar.buf]
  cases value : s.value with
  | none => simp
  | some text =>
    by_cases fits : text.length < s.bufSize
    · have whole : text.take (s.bufSize - 1) = text := List.take_of_length_le (by omega)
      have short : ¬s.bufSize ≤ text.length := by omega
      have known : (text.length : Int) ≠ -1 ∧ (text.length : Int) ≠ -4 ∧
          ¬(text.length : Int) < 0 := by omega
      simp [fits, whole, short, known]
    · have long := Nat.not_lt.mp fits
      have known : (text.length : Int) ≠ -1 := by omega
      cases s.totalKnown with
      | true => simp [long, known]
      | false => simp [fits, long]

theorem SelectCell.field_eq_none_iff (cell : SelectCell) : cell.field = none ↔ cell.Refused := by
  cases cell with
  | oracle cur cell =>
    cases cell with
    | scalar colName typeName dataSize value fits => simp [SelectCell.field, oracleField, Refused]
    | blob fetched => simp [SelectCell.field, oracleField, Refused]
    | clob colName clobUrl fileWritten value =>
      cases value with
      | none => simp [SelectCell.field, oracleField, oracleFetchClobField, Refused]
      | some clob =>
        simp only [SelectCell.field, oracleField, oracleFetchClobField, Refused, Option.mem_def,
          Option.some.injEq, exists_eq_left']
        have readable : ∀ out, oracleReadClob cur.oci cur.chunkReadSize clob = some out ↔ _ :=
          fun out => oracleReadClob_eq_some_iff cur.documented
        cases read : oracleReadClob cur.oci cur.chunkReadSize clob with
        | none =>
          have unread : ¬(Ascii clob ∧ clob.length + 1 < 2 ^ 32 ∧
              (clob ≠ [] → ub4 cur.chunkReadSize ≠ 0)) := fun fine => by
            have answer := (readable clob).mpr ⟨rfl, fine⟩
            rw [read] at answer
            cases answer
          exact ⟨fun _ => Or.inl unread, fun _ => rfl⟩
        | some out =>
          obtain ⟨rfl, fine⟩ := (readable out).mp read
          rw [Option.bind_some, clobField_eq_none_iff]
          exact ⟨Or.inr, fun refused => refused.resolve_left (not_not_intro fine)⟩
  | mssql textLobsInline cell =>
    cases cell with
    | scalar column =>
      rw [SelectCell.field, msField, msScalarField_eq]
      simp [Refused]
    | blob fetched => simp [SelectCell.field, msField, Refused]
    | text colName clobUrl fileWritten value =>
      cases value with
      | none => simp [SelectCell.field, msField, Refused]
      | some value =>
        simp only [SelectCell.field, msField, Option.bind_some, msClobField, Refused,
          clobField_eq_none_iff, reduceCtorEq, false_or, Option.join_some]

/-- The heart of the matter: the setter keeps what fits and cuts the rest. -/
theorem SelectCell.delivered_iff {cell : SelectCell} {fetched : FetchedField}
    (given : cell.field = some fetched) : cell.Delivered fetched ↔ cell.Fits := by
  have kept := strncpyField_eq_self_iff 4096
  cases cell with
  | oracle cur cell =>
    cases cell with
    | scalar colName typeName dataSize value fits =>
      cases given
      simpa [SelectCell.Delivered, SelectCell.Fits, SelectCell.text, resultsetSetField]
        using kept (value.getD [])
    | blob fetched => simp [SelectCell.Delivered, SelectCell.Fits, SelectCell.text]
    | clob colName clobUrl fileWritten value =>
      cases value with
      | none =>
        cases given
        simp [SelectCell.Delivered, SelectCell.Fits, SelectCell.text, resultsetSetField,
          strncpyField]
      | some clob =>
        obtain ⟨out, read, placed⟩ := Option.bind_eq_some_iff.mp given
        obtain ⟨rfl, plain, -⟩ := (oracleReadClob_eq_some_iff cur.documented).mp read
        simpa [SelectCell.Delivered, SelectCell.Fits, SelectCell.text, utf8_ascii plain]
          using clobField_delivers placed
  | mssql textLobsInline cell =>
    cases cell with
    | scalar column =>
      rw [SelectCell.field, msField, msScalarField_eq] at given
      split at given
      · cases given
      · cases given
        simpa [SelectCell.Delivered, SelectCell.Fits, SelectCell.text, resultsetSetField]
          using kept (column.value.getD [])
    | blob fetched => simp [SelectCell.Delivered, SelectCell.Fits, SelectCell.text]
    | text colName clobUrl fileWritten value =>
      obtain ⟨text, read, placed⟩ := Option.bind_eq_some_iff.mp given
      subst read
      have delivers := clobField_delivers placed
      simp only [Bool.not_and, ← decide_not, Nat.not_lt, ← Bool.or_assoc] at delivers
      simpa [SelectCell.Delivered, SelectCell.Fits, SelectCell.text] using delivers

/-- A fetch that reports success leaves complete texts in the fields, unless the database or one of
the other values makes it fail, exactly when every text put in a field fits it. -/
theorem SelectFetch.texts_complete_iff (fetch : SelectFetch) :
    (∀ out, fetch.result = some out →
      List.Forall₂ (List.Forall₂ SelectCell.Delivered) fetch.rows out) ↔
      fetch.broken = true ∨ (∃ row ∈ fetch.rows, ∃ cell ∈ row, cell.Refused) ∨
        ∀ row ∈ fetch.rows, ∀ cell ∈ row, cell.Fits := by
  rw [fetch.result_eq]
  cases fetch.broken with
  | true => simp
  | false =>
    simp only [Bool.false_eq_true, if_false, false_or, mapM_rows_keep_iff,
      SelectCell.field_eq_none_iff]
    constructor
    · rintro (refused | delivered)
      · exact Or.inl refused
      · by_cases refused : ∃ row ∈ fetch.rows, ∃ cell ∈ row, cell.Refused
        · exact Or.inl refused
        · refine Or.inr fun row inRows cell inRow => ?_
          cases given : cell.field with
          | none =>
            exact (refused ⟨row, inRows, cell, inRow, cell.field_eq_none_iff.mp given⟩).elim
          | some fetched =>
            exact (SelectCell.delivered_iff given).mp (delivered row inRows cell inRow fetched given)
    · rintro (refused | fits)
      · exact Or.inl refused
      · exact Or.inr fun row inRows cell inRow fetched given =>
          (SelectCell.delivered_iff given).mpr (fits row inRows cell inRow)

def wideText : CString := List.replicate 4096 'x'

/-- An `nvarchar(4000)` column with a value of 4096 bytes. -/
def wideColumn : MsScalar where
  colName := ['N']
  fieldType := ['S']
  type := .character
  colsize := 4000
  value := some wideText
  totalKnown := true

def wideFetch : SelectFetch := .mssql ⟨false, false⟩ (.bound [⟨false, [wideColumn]⟩])

theorem wide_value_is_cut :
    (∃ field, wideFetch.result = some [[field]]) ∧
    ¬∀ out, wideFetch.result = some out →
      List.Forall₂ (List.Forall₂ SelectCell.Delivered) wideFetch.rows out := by
  have field : msScalarField wideColumn = some
      ⟨resultsetSetField ['N'] ['S'] wideText, none, 0⟩ := by
    rw [msScalarField_eq, if_neg]
    · rfl
    · rintro ⟨text, value, long⟩
      cases value
      rw [wideText, List.length_replicate] at long
      revert long
      decide
  have result : wideFetch.result = some
      [[⟨resultsetSetField ['N'] ['S'] wideText, none, 0⟩]] := by
    simp [wideFetch, SelectFetch.result, mssqlSelectFetchBatch, msBoundRow, field]
  have given : (SelectCell.mssql false (.scalar wideColumn)).field = some
      ⟨resultsetSetField ['N'] ['S'] wideText, none, 0⟩ := field
  have rows : wideFetch.rows = [[.mssql false (.scalar wideColumn)]] := rfl
  refine ⟨⟨_, result⟩, fun complete => ?_⟩
  rw [rows] at complete
  cases complete _ result with
  | cons row _ =>
    cases row with
    | cons delivered _ =>
      have fits := (SelectCell.delivered_iff given).mp delivered
      have short := (fits wideText rfl rfl).1
      rw [wideText, List.length_replicate] at short
      omega

end OciWrapper.Execute
