import OciWrapper.Text.Search

namespace OciWrapper.Audit

open OciWrapper.Text

/-- The text from the first `opening` up to the first `closing` after it, that
    one included, and the rest. -/
def element (opening closing s : CString) : Option (CString × CString) := do
  let start ← strstr opening s
  let stop ← strstr closing start
  let length := start.length - stop.length + closing.length
  some (start.take length, start.drop length)

/-- `sizeof(fname) - 1` and `sizeof(((audit_old_value_t *)0)->value) - 1`. -/
def fieldNameMax : Nat := 255
def auditValueMax : Nat := 32767

def fieldName (field : CString) : CString :=
  ((contents "<field_name>".toList "</field_name>".toList field).getD []).take fieldNameMax

def fieldValue (field : CString) : CString :=
  ((contents "<field_value>".toList "</field_value>".toList field).getD []).take auditValueMax

/-- The loop of `find_field_value_in_row`; each round drops at least one character. -/
def findFieldLoop (colName : CString) : Nat → CString → Option CString
  | 0, _ => none
  | fuel + 1, s =>
    match element "<field>".toList "</field>".toList s with
    | none => none
    | some (field, rest) =>
      if fieldName field ≠ [] ∧ strcasecmp (fieldName field) colName then some (fieldValue field)
      else findFieldLoop colName fuel rest

def findFieldValueInRow (row colName : CString) : Option CString :=
  findFieldLoop colName (row.length + 1) row

/-- `audit_old_value_t`. -/
structure OldValue where
  value : CString
  isNull : Bool
  deriving DecidableEq

def oldValueOf (row colName : CString) : OldValue :=
  match findFieldValueInRow row colName with
  | none => ⟨[], true⟩
  | some value => ⟨value, value = []⟩

/-- The number of places where `strstr`, stepped by one, finds the needle. -/
def occurrences (needle : CString) : CString → Nat
  | [] => 0
  | c :: s => (if needle.isPrefixOf (c :: s) then 1 else 0) + occurrences needle s

/-- The rows of a result document, as `audit_trail_fetch_before_image` cuts them out. -/
def rowTexts : Nat → CString → List CString
  | 0, _ => []
  | fuel + 1, s =>
    match element "<row ".toList "</row>".toList s with
    | none => []
    | some (row, rest) => row :: rowTexts fuel rest

/-- The array that the fetch returns, zeroed beyond the rows it filled. -/
structure BeforeImage where
  columnCount : Nat
  filled : List (List OldValue)
  deriving DecidableEq

def BeforeImage.rowCount (image : BeforeImage) : Nat := image.filled.length

def BeforeImage.get (image : BeforeImage) (row column : Nat) : OldValue :=
  ((image.filled[row]?).bind (·[column]?)).getD ⟨[], false⟩

/-- `audit_trail_fetch_before_image`, from the document of its SELECT on. -/
def auditTrailFetchBeforeImage (colNames : List CString) (document : Option CString) :
    Option BeforeImage := do
  let xml ← document
  let fetchedRows := occurrences "<row ".toList xml
  if fetchedRows = 0 then none
  else some ⟨colNames.length, (rowTexts fetchedRows xml).map fun row => colNames.map (oldValueOf row)⟩

end OciWrapper.Audit
