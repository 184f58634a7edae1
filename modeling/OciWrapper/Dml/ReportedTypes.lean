import OciWrapper.Dml.SqlDialect

namespace OciWrapper.Dml

open OciWrapper.Text

/-- The built-in column types of Oracle, with the precisions in their names. -/
inductive OracleType
  | varchar2 | nvarchar2 | char | nchar | number | float | binaryFloat | binaryDouble | boolean
  | date | timestamp (digits : Fin 10) | timestampTz (digits : Fin 10)
  | timestampLtz (digits : Fin 10) | intervalYm (digits : Fin 10)
  | intervalDs (days seconds : Fin 10)
  | raw | long | longRaw | rowid | urowid | xmltype | json | blob | clob | nclob | bfile

def precision (digits : Fin 10) : String := "(" ++ toString digits.val ++ ")"

/-- `ALL_TAB_COLUMNS.DATA_TYPE`. -/
def OracleType.dataType : OracleType → CString
  | varchar2 => "VARCHAR2".toList
  | nvarchar2 => "NVARCHAR2".toList
  | char => "CHAR".toList
  | nchar => "NCHAR".toList
  | number => "NUMBER".toList
  | float => "FLOAT".toList
  | binaryFloat => "BINARY_FLOAT".toList
  | binaryDouble => "BINARY_DOUBLE".toList
  | boolean => "BOOLEAN".toList
  | date => "DATE".toList
  | timestamp digits => ("TIMESTAMP" ++ precision digits).toList
  | timestampTz digits => ("TIMESTAMP" ++ precision digits ++ " WITH TIME ZONE").toList
  | timestampLtz digits => ("TIMESTAMP" ++ precision digits ++ " WITH LOCAL TIME ZONE").toList
  | intervalYm digits => ("INTERVAL YEAR" ++ precision digits ++ " TO MONTH").toList
  | intervalDs days seconds =>
    ("INTERVAL DAY" ++ precision days ++ " TO SECOND" ++ precision seconds).toList
  | raw => "RAW".toList
  | long => "LONG".toList
  | longRaw => "LONG RAW".toList
  | rowid => "ROWID".toList
  | urowid => "UROWID".toList
  | xmltype => "XMLTYPE".toList
  | json => "JSON".toList
  | blob => "BLOB".toList
  | clob => "CLOB".toList
  | nclob => "NCLOB".toList
  | bfile => "BFILE".toList

/-- The system types of SQL Server. -/
inductive MssqlType
  | char | varchar | nchar | nvarchar | uniqueidentifier | time | int | bigint | smallint | tinyint
  | bit | decimal | numeric | money | smallmoney | float | real | date | smalldatetime | datetime
  | datetime2 | datetimeoffset | binary | varbinary | text | ntext | image | xml | timestamp
  | sqlVariant | hierarchyid | geometry | geography
  deriving DecidableEq

/-- `INFORMATION_SCHEMA.COLUMNS.DATA_TYPE`, in upper case. -/
def MssqlType.catalogName : MssqlType → String
  | char => "CHAR"
  | varchar => "VARCHAR"
  | nchar => "NCHAR"
  | nvarchar => "NVARCHAR"
  | uniqueidentifier => "UNIQUEIDENTIFIER"
  | time => "TIME"
  | int => "INT"
  | bigint => "BIGINT"
  | smallint => "SMALLINT"
  | tinyint => "TINYINT"
  | bit => "BIT"
  | decimal => "DECIMAL"
  | numeric => "NUMERIC"
  | money => "MONEY"
  | smallmoney => "SMALLMONEY"
  | float => "FLOAT"
  | real => "REAL"
  | date => "DATE"
  | smalldatetime => "SMALLDATETIME"
  | datetime => "DATETIME"
  | datetime2 => "DATETIME2"
  | datetimeoffset => "DATETIMEOFFSET"
  | binary => "BINARY"
  | varbinary => "VARBINARY"
  | text => "TEXT"
  | ntext => "NTEXT"
  | image => "IMAGE"
  | xml => "XML"
  | timestamp => "TIMESTAMP"
  | sqlVariant => "SQL_VARIANT"
  | hierarchyid => "HIERARCHYID"
  | geometry => "GEOMETRY"
  | geography => "GEOGRAPHY"

/-- The `data_type` that `mssql_describe_table` stores; `charLen` is the column's
    `CHARACTER_MAXIMUM_LENGTH`, where it has one. -/
def MssqlType.dataType (type : MssqlType) (charLen : Option Int) : CString :=
  let name := if type = timestamp then "ROWVERSION" else type.catalogName
  let isMax := charLen = some (-1) ∧ (type = varchar ∨ type = nvarchar ∨ type = varbinary)
  (name ++ if isMax then "(MAX)" else "").toList

/-- A type name as the vendor's driver reports it. -/
def Reported : Vendor → CString → Prop
  | .oracle, dtype => ∃ type : OracleType, dtype = type.dataType
  | .mssql, dtype => ∃ (type : MssqlType) (charLen : Option Int), dtype = type.dataType charLen

/-- The dialect's test and the class module's test for a LOB give the same answer. -/
def LobTestsAgree (vendor : Vendor) (dtype : CString) : Prop :=
  (vendor.lobPlaceholder dtype).isSome = decide (dbTypeLobKind dtype ≠ .none)

theorem precision_toList (digits : Fin 10) :
    (precision digits).toList = ['(', Char.ofNat (48 + digits.val), ')'] := by
  revert digits
  decide +kernel

theorem toList_joins (first second third fourth : String) :
    (first ++ second ++ third ++ fourth).toList =
      first.toList ++ (second.toList ++ (third.toList ++ fourth.toList)) := by
  simp only [String.toList_append, List.append_assoc]

theorem OracleType.dataType_intervalDs (days seconds : Fin 10) :
    (intervalDs days seconds).dataType =
      "INTERVAL DAY".toList ++ (['(', Char.ofNat (48 + days.val), ')'] ++
        (" TO SECOND".toList ++ ['(', Char.ofNat (48 + seconds.val), ')'])) :=
  (toList_joins _ _ _ _).trans
    (congrArg₂ (fun inner last => "INTERVAL DAY".toList ++ (inner ++ (" TO SECOND".toList ++ last)))
      (precision_toList days) (precision_toList seconds))

theorem lobTestsAgree_unknown (vendor : Vendor) : LobTestsAgree vendor [] := by
  unfold LobTestsAgree
  cases vendor <;> decide

theorem Reported.lobTestsAgree {vendor : Vendor} {dtype : CString}
    (reported : Reported vendor dtype) : LobTestsAgree vendor dtype := by
  cases vendor with
  | oracle =>
    obtain ⟨type, rfl⟩ := reported
    unfold LobTestsAgree
    cases type with
    | timestamp digits => revert digits; decide +kernel
    | timestampTz digits => revert digits; decide +kernel
    | timestampLtz digits => revert digits; decide +kernel
    | intervalYm digits => revert digits; decide +kernel
    | intervalDs days seconds =>
      rw [OracleType.dataType_intervalDs]
      revert days seconds
      decide +kernel
    | _ => decide +kernel
  | mssql =>
    obtain ⟨type, charLen, rfl⟩ := reported
    unfold LobTestsAgree MssqlType.dataType
    by_cases max : charLen = some (-1)
    · subst max
      cases type <;> decide +kernel
    · simp only [max, false_and, if_false]
      cases type <;> decide +kernel

end OciWrapper.Dml
