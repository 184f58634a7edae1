import OciWrapper.Dates.DateNormalize
import OciWrapper.Dml.Requests
import OciWrapper.Dml.TypeClass

namespace OciWrapper.Dml

open OciWrapper.Text OciWrapper.Dates

/-- `operation_status_t`; the validators return its `status_code`. -/
structure OperationStatus where
  statusCode : Int
  errorCode : CString
  errorText : CString
  deriving DecidableEq

def setError (code : Int) (errCode : String) (errText : CString) : OperationStatus :=
  ⟨code, errCode.toList.take 63, errText.take 255⟩

def setOk : OperationStatus := ⟨0, ['-'], ['-']⟩

def aborted (why : String) : CString :=
  "Request aborted. Level 2 validation failed - ".toList ++ why.toList

def invalidArg (why : String) : OperationStatus := setError (-1) "LEVEL2_INVALID_ARG" (aborted why)

def rowCountExceeded (why : String) : OperationStatus :=
  setError (-6) "LEVEL2_ROW_COUNT" (aborted why)

def metadataLookupFailed : OperationStatus :=
  setError (-7) "LEVEL2_METADATA_LOOKUP"
    (aborted "could not resolve column metadata for the target table.")

def fieldInvalid (text : CString) : OperationStatus := setError (-8) "LEVEL2_FIELD_INVALID" text

/-- `parsed_field_t`. -/
structure ParsedField where
  fieldNumber : Nat
  fieldName : CString
  fieldType : CString
  fieldLength : Int
  fieldPrecision : Int
  fieldScale : Int
  fieldNullable : CString
  fieldDefault : CString
  insertValue : CString

/-- What the validators read of the context: the metadata cache and the rules of `validate_field`,
which accept a field or give a message. -/
structure Level2Context where
  maxBulkInserts : Int
  metadata : CString → CString → Option (List ColMetadata)
  validateField : ParsedField → Except CString Unit

/-- A message in a buffer of 512 bytes. -/
def message (text : CString) : CString := text.take 511

def quoted (s : CString) : CString := '\'' :: s ++ ['\'']

/-- `sizeof(fv->value)` and `sizeof(wk->key_value)`. -/
def valueSize : Nat := 4096

/-- `normalize_client_date_value`: the value and the format that are left, or the error. -/
def normalizeClientDateValue (realDataType value clientDateFormat : CString) (today : Today) :
    Except CString (CString × CString) :=
  let cls := dbTypeClass realDataType
  if cls ≠ .date ∧ cls ≠ .timestamp then .ok (value, clientDateFormat)
  else if value = [] then .ok (value, clientDateFormat)
  else
    let sourceFmt :=
      if clientDateFormat ≠ [] then clientDateFormat
      else if cls = .timestamp then canonicalMaskTs
      else canonicalMask
    match dateNormalize value clientDateFormat (cls = .timestamp) today with
    | .ok normalized => .ok (normalized.take (valueSize - 1), [])
    | .error (.badMask, reason) =>
      .error (message ("Invalid date: unsupported client_date_format=".toList ++ quoted sourceFmt ++
        " (".toList ++ reason.take 255 ++ [')']))
    | .error (_, reason) =>
      .error (message ("Invalid date: value=".toList ++ quoted (value.take 80) ++
        " does not match ".toList ++
        (if clientDateFormat ≠ [] then "client_date_format=" else "nls_date_format=").toList ++
        quoted sourceFmt ++ " (".toList ++ reason.take 255 ++ [')']))

/-- The value that a validator goes on with, and the messages of its failures in order. -/
abbrev Checked (α : Type) := α × List CString

/-- A loop of a validator over the entries of the request. -/
def checkEach {α : Type} (check : Nat → α → Checked α) : Nat → List α → Checked (List α)
  | _, [] => ([], [])
  | i, a :: rest =>
    let (a, failures) := check i a
    let (rest, more) := checkEach check (i + 1) rest
    (a :: rest, failures ++ more)

def parsedField (f : Nat) (fv : FieldValue) (col : ColMetadata) : ParsedField where
  fieldNumber := f + 1
  fieldName := fv.fieldName.take 127
  fieldType := col.dataType.take 127
  fieldLength := col.dataLength
  fieldPrecision := col.dataPrecision
  fieldScale := col.dataScale
  fieldNullable := col.nullable.take 3
  fieldDefault := col.dataDefault.take 511
  insertValue := fv.get.take 1023

def rowLabel (r : Nat) : CString := "Row ".toList ++ decimal (r + 1)

def noSuchColumn (subject owner tableName : CString) : CString :=
  message (subject ++ ": no such column on ".toList ++ owner ++ '.' :: tableName)

/-- One field with a value to set; `subject` opens its messages, `rejected` those of
`validate_field`. -/
def checkField (ctx : Level2Context) (cols : List ColMetadata) (owner tableName : CString)
    (subject : CString) (rejected : CString → CString) (today : Today) (f : Nat) (fv : FieldValue) :
    Checked FieldValue :=
  match findColumn cols fv.fieldName with
  | none => (fv, [noSuchColumn subject owner tableName])
  | some col =>
    match normalizeClientDateValue col.dataType fv.value fv.clientDateFormat today with
    | .error dateErr => (fv, [message (subject ++ ": ".toList ++ dateErr)])
    | .ok (value, format) =>
      let fv := { fv with value := value, clientDateFormat := format }
      match ctx.validateField (parsedField f fv col) with
      | .ok () => (fv, [])
      | .error fieldMsg => (fv, [rejected (message fieldMsg)])

def rowHasField (row : List FieldValue) (colName : CString) : Bool :=
  row.any fun fv => strcasecmp fv.fieldName colName

def rowFieldSetsMatch (reference row : List FieldValue) : Bool :=
  reference.length == row.length &&
    reference.all fun fv => row.any fun other => strcasecmp fv.fieldName other.fieldName

/-- The columns that a row must give and does not. -/
def missingColumns (cols : List ColMetadata) (row : List FieldValue) (r : Nat) : List CString :=
  (cols.filter fun col =>
    col.nullable.head? == some 'N' && col.dataDefault.isEmpty && !rowHasField row col.colName).map
      fun col => message (rowLabel r ++ ": NOT NULL column ".toList ++ quoted col.colName ++
        " (no default) was not supplied".toList)

/-- The date at which a validator comes to an entry: its list and its place there. -/
abbrev Calendar := Nat → Nat → Today

def checkRowField (ctx : Level2Context) (cols : List ColMetadata) (owner tableName : CString)
    (r : Nat) (today : Today) (f : Nat) (fv : FieldValue) : Checked FieldValue :=
  checkField ctx cols owner tableName (rowLabel r ++ ", field ".toList ++ quoted fv.fieldName)
    (fun fieldMsg => message (rowLabel r ++ ": ".toList ++ fieldMsg)) today f fv

def checkRow (ctx : Level2Context) (cols : List ColMetadata) (owner tableName : CString)
    (calendar : Calendar) (r : Nat) (row : List FieldValue) : Checked (List FieldValue) :=
  let (row, failures) :=
    checkEach (fun f => checkRowField ctx cols owner tableName r (calendar r f) f) 0 row
  (row, failures ++ missingColumns cols row r)

/-- The end of a validator: the first failure is the one it reports. -/
def verdict (failures : List CString) : OperationStatus :=
  match failures with
  | [] => setOk
  | first :: _ => fieldInvalid (message first)

def level2ValidateInsert (ctx : Level2Context) (calendar : Calendar) (req : InsertRequest) :
    OperationStatus × InsertRequest :=
  if req.rows = [] then (rowCountExceeded "at least one row is required.", req)
  else if 0 < ctx.maxBulkInserts ∧ ctx.maxBulkInserts < req.rows.length then
    (rowCountExceeded "row_count exceeds max_bulk_inserts.", req)
  else if req.tableName = [] then (invalidArg "table_name is empty.", req)
  else if !(req.rows.tail.all fun row => rowFieldSetsMatch (req.rows.headD []) row) then
    (fieldInvalid (aborted ("all rows in one INSERT must set the same columns " ++
      "(row column set mismatch).")), req)
  else
    match ctx.metadata (req.tableName.take 127) (req.owner.take 127) with
    | none => (metadataLookupFailed, req)
    | some cols =>
      let (rows, failures) :=
        checkEach (checkRow ctx cols req.owner req.tableName calendar) 0 req.rows
      (verdict failures, { req with rows := rows })

/-- One key of the WHERE clause. -/
def checkKey (cols : List ColMetadata) (owner tableName : CString) (today : Today)
    (wk : WhereKey) : Checked WhereKey :=
  let subject := "WHERE key ".toList ++ quoted wk.fieldName
  match findColumn cols wk.fieldName with
  | none => (wk, [noSuchColumn subject owner tableName])
  | some col =>
    match normalizeClientDateValue col.dataType wk.keyValue wk.clientDateFormat today with
    | .error dateErr => (wk, [message (subject ++ ": ".toList ++ dateErr)])
    | .ok (value, format) =>
      ({ wk with keyValue := value, clientDateFormat := format },
        if value = [] then [message (subject ++ ": key_value is empty".toList)] else [])

def checkSetField (ctx : Level2Context) (cols : List ColMetadata) (owner tableName : CString)
    (today : Today) (f : Nat) (fv : FieldValue) : Checked FieldValue :=
  checkField ctx cols owner tableName ("SET field ".toList ++ quoted fv.fieldName) id today f fv

def level2ValidateUpdate (ctx : Level2Context) (calendar : Calendar) (req : UpdateRequest) :
    OperationStatus × UpdateRequest :=
  if req.tableName = [] then (invalidArg "table_name is empty.", req)
  else if req.keys = [] then (invalidArg "at least one WHERE key is required.", req)
  else if req.fields = [] then (invalidArg "at least one SET field is required.", req)
  else
    match ctx.metadata (req.tableName.take 127) (req.owner.take 127) with
    | none => (metadataLookupFailed, req)
    | some cols =>
      let (keys, failures) :=
        checkEach (fun k => checkKey cols req.owner req.tableName (calendar 0 k)) 0 req.keys
      let (fields, more) :=
        checkEach (fun f => checkSetField ctx cols req.owner req.tableName (calendar 1 f) f) 0
          req.fields
      (verdict (failures ++ more), { req with keys := keys, fields := fields })

def level2ValidateDelete (ctx : Level2Context) (calendar : Calendar) (req : DeleteRequest) :
    OperationStatus × DeleteRequest :=
  if req.tableName = [] then (invalidArg "table_name is empty.", req)
  else if req.keys = [] then (invalidArg "at least one WHERE key is required.", req)
  else
    match ctx.metadata (req.tableName.take 127) (req.owner.take 127) with
    | none => (metadataLookupFailed, req)
    | some cols =>
      let (keys, failures) :=
        checkEach (fun k => checkKey cols req.owner req.tableName (calendar 0 k)) 0 req.keys
      (verdict failures, { req with keys := keys })

/-- The operations whose values a validator rewrites. -/
inductive Level2Operation
  | insert (req : InsertRequest)
  | update (req : UpdateRequest)
  | delete (req : DeleteRequest)
  deriving DecidableEq

/-- The validator of the operation: its status and the operation as it leaves it. -/
def level2Validate (ctx : Level2Context) (calendar : Calendar) :
    Level2Operation → OperationStatus × Level2Operation
  | .insert req =>
    let (status, req) := level2ValidateInsert ctx calendar req
    (status, .insert req)
  | .update req =>
    let (status, req) := level2ValidateUpdate ctx calendar req
    (status, .update req)
  | .delete req =>
    let (status, req) := level2ValidateDelete ctx calendar req
    (status, .delete req)

end OciWrapper.Dml
