import OciWrapper.Text.Search

namespace OciWrapper.Dml

open OciWrapper.Text

/-- `db_type_class_t`. -/
inductive DbTypeClass
  | other | string | numeric | date | timestamp | lob | intervalYm | intervalDs | binary | rowid
  deriving DecidableEq

/-- `db_lob_kind_t`. -/
inductive DbLobKind
  | none | binary | text
  deriving DecidableEq

def skipBlanks (s : CString) : CString := s.dropWhile isSpace

/-- The word that `base_name_len` and `ms_base_len` measure. -/
def baseName (s : CString) : CString := s.takeWhile fun c => c != '(' && !isSpace c

def afterBase (s : CString) : CString := s.drop (baseName s).length

/-- `base_is` and `ms_base_is`. -/
def baseIs (s : CString) (name : String) : Bool := strcasecmp (baseName s) name.toList

/-- `has_max_suffix` and `ms_has_max`. -/
def hasMaxSuffix (after : CString) : Bool :=
  match skipBlanks after with
  | '(' :: p =>
    let p := skipBlanks p
    strcasecmp (p.take 3) "MAX".toList && (skipBlanks (p.drop 3)).head? == some ')'
  | _ => false

/-- `contains_ci`. -/
def containsCi (s : CString) (word : String) : Bool :=
  s.tails.any fun t => strcasecmp (t.take word.length) word.toList

def typeMap : List (String × DbTypeClass) :=
  [("VARCHAR2", .string), ("NVARCHAR2", .string), ("VARCHAR", .string), ("CHAR", .string),
    ("NCHAR", .string), ("ROWID", .rowid), ("UROWID", .rowid), ("NUMBER", .numeric),
    ("FLOAT", .numeric), ("BINARY_FLOAT", .numeric), ("BINARY_DOUBLE", .numeric),
    ("INTEGER", .numeric), ("INT", .numeric), ("SMALLINT", .numeric), ("DECIMAL", .numeric),
    ("NUMERIC", .numeric), ("REAL", .numeric), ("DOUBLE", .numeric), ("DATE", .date),
    ("TIMESTAMP", .timestamp), ("RAW", .binary), ("BLOB", .lob), ("CLOB", .lob), ("NCLOB", .lob),
    ("BFILE", .lob), ("NVARCHAR", .string), ("UNIQUEIDENTIFIER", .string), ("TIME", .string),
    ("BIGINT", .numeric), ("TINYINT", .numeric), ("BIT", .numeric), ("MONEY", .numeric),
    ("SMALLMONEY", .numeric), ("SMALLDATETIME", .date), ("DATETIME", .timestamp),
    ("DATETIME2", .timestamp), ("DATETIMEOFFSET", .timestamp), ("BINARY", .binary),
    ("VARBINARY", .binary), ("TEXT", .lob), ("NTEXT", .lob), ("IMAGE", .lob), ("XML", .lob)]

def dbTypeClass (typeName : CString) : DbTypeClass :=
  let s := skipBlanks typeName
  if baseName s = [] then .other
  else if hasMaxSuffix (afterBase s) then .lob
  else if baseIs s "INTERVAL" then
    if containsCi (afterBase s) "MONTH" then .intervalYm
    else if containsCi (afterBase s) "SECOND" then .intervalDs
    else .other
  else ((typeMap.find? fun entry => baseIs s entry.1).map (·.2)).getD .other

def dbTypeLobKind (typeName : CString) : DbLobKind :=
  let s := skipBlanks typeName
  if baseName s = [] then .none
  else if baseIs s "BLOB" then .binary
  else if baseIs s "CLOB" then .text
  else if baseIs s "NCLOB" then .text
  else if hasMaxSuffix (afterBase s) && baseIs s "VARBINARY" then .binary
  else if baseIs s "IMAGE" then .binary
  else .none

/-- A text LOB that is bound in the statement. -/
def dbTypeTextBound (typeName : CString) : Bool :=
  let s := skipBlanks typeName
  if baseName s = [] then false
  else if hasMaxSuffix (afterBase s) then baseIs s "VARCHAR" || baseIs s "NVARCHAR"
  else baseIs s "TEXT" || baseIs s "NTEXT" || baseIs s "XML"

end OciWrapper.Dml
