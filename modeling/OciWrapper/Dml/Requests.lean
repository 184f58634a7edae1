import OciWrapper.Text.Search

namespace OciWrapper.Dml

open OciWrapper.Text

/-- The texts a buffer of `size` bytes holds. -/
def Fits (size : Nat) (s : CString) : Prop := s.length < size

instance (size : Nat) (s : CString) : Decidable (Fits size s) :=
  inferInstanceAs (Decidable (s.length < size))

/-- `field_value_t`. -/
structure FieldValue where
  fieldName : CString
  value : CString
  largeValue : Option CString
  clientDateFormat : CString
  deriving DecidableEq

/-- `field_value_get`. -/
def FieldValue.get (field : FieldValue) : CString := field.largeValue.getD field.value

/-- `where_key_t`. -/
structure WhereKey where
  fieldName : CString
  keyValue : CString
  clientDateFormat : CString
  deriving DecidableEq

/-- `insert_request_t`; a row is its fields. -/
structure InsertRequest where
  tableName : CString
  owner : CString
  rows : List (List FieldValue)
  deriving DecidableEq

/-- `update_request_t`. -/
structure UpdateRequest where
  tableName : CString
  owner : CString
  keys : List WhereKey
  fields : List FieldValue
  deriving DecidableEq

/-- `delete_request_t`. -/
structure DeleteRequest where
  tableName : CString
  owner : CString
  keys : List WhereKey
  deriving DecidableEq

/-- `col_metadata_t`. -/
structure ColMetadata where
  colName : CString
  dataType : CString
  dataLength : Int
  dataPrecision : Int
  dataScale : Int
  nullable : CString
  dataDefault : CString
  deriving DecidableEq

/-- The first column of the name, in any case. -/
def findColumn (cols : List ColMetadata) (colName : CString) : Option ColMetadata :=
  cols.find? fun col => strcasecmp col.colName colName

/-- The type of the column, or the empty text without metadata of it. -/
def dataTypeOf (cols : List ColMetadata) (colName : CString) : CString :=
  ((findColumn cols colName).map (·.dataType)).getD []

theorem dataTypeOf_cases (cols : List ColMetadata) (colName : CString) :
    dataTypeOf cols colName = [] ∨ ∃ col ∈ cols, dataTypeOf cols colName = col.dataType := by
  rw [dataTypeOf]
  cases found : findColumn cols colName with
  | none => exact .inl rfl
  | some col => exact .inr ⟨col, List.mem_of_find?_eq_some found, rfl⟩

end OciWrapper.Dml
