import OciWrapper.Core.SessionGate
import OciWrapper.Dml.Requests

namespace OciWrapper.Wire

open OciWrapper.Text OciWrapper.Core OciWrapper.Dml

/-- `select_request_t`. -/
structure SelectRequest where
  sql : CString
  maxRows : Int
  fetchBatchSize : Int
  includeColumnNames : Bool
  executeAsync : Bool
  asyncCallBackUrl : CString
  deriving DecidableEq

/-- `param_direction_t`. -/
inductive ParamDirection
  | inOnly | out | inOut
  deriving DecidableEq

/-- `procedure_param_t`. -/
structure ProcedureParam where
  paramName : CString
  paramType : CString
  direction : ParamDirection
  paramValue : CString
  deriving DecidableEq

/-- `execute_procedure_request_t`. -/
structure ExecuteProcedureRequest where
  procedureName : CString
  owner : CString
  parameters : List ProcedureParam
  deriving DecidableEq

/-- `authenticate_request_t`. -/
structure AuthenticateRequest where
  username : CString
  credential : CString
  deriving DecidableEq

/-- `check_permission_request_t`. -/
structure CheckPermissionRequest where
  permissionCode : CString
  deriving DecidableEq

/-- `create_user_request_t`. -/
structure CreateUserRequest where
  username : CString
  identifiedBy : CString
  defaultTablespace : CString
  tempTablespace : CString
  quota : CString
  quotaTablespace : CString
  profile : CString
  roles : List CString
  deriving DecidableEq

/-- `grant_request_t`. -/
structure GrantRequest where
  grantee : CString
  objectType : CString
  objectName : CString
  owner : CString
  privileges : List CString
  withGrantOption : Bool
  deriving DecidableEq

/-- `column_def_t`. -/
structure ColumnDef where
  name : CString
  dataType : CString
  length : Int
  precision : Int
  scale : Int
  nullable : Bool
  defaultValue : CString
  deriving DecidableEq

/-- `create_table_request_t`. -/
structure CreateTableRequest where
  tableName : CString
  owner : CString
  columns : List ColumnDef
  primaryKeyColumns : List CString
  deriving DecidableEq

/-- `drop_table_request_t`. -/
structure DropTableRequest where
  tableName : CString
  owner : CString
  cascadeConstraints : Bool
  purge : Bool
  confirm : Bool
  deriving DecidableEq

/-- `create_view_request_t`. -/
structure CreateViewRequest where
  viewName : CString
  owner : CString
  replace : Bool
  force : Bool
  columns : List CString
  query : CString
  deriving DecidableEq

/-- `ddl_procedure_param_t`. -/
structure DdlProcedureParam where
  name : CString
  dataType : CString
  mode : CString
  defaultValue : CString
  deriving DecidableEq

/-- `create_procedure_request_t`. -/
structure CreateProcedureRequest where
  procedureName : CString
  owner : CString
  replace : Bool
  parameters : List DdlProcedureParam
  body : CString
  deriving DecidableEq

/-- What `payload` points to; the operation types without a builder have none. -/
inductive Payload
  | select (req : SelectRequest)
  | insert (req : InsertRequest)
  | update (req : UpdateRequest)
  | delete (req : DeleteRequest)
  | executeProcedure (req : ExecuteProcedureRequest)
  | authenticate (req : AuthenticateRequest)
  | checkPermission (req : CheckPermissionRequest)
  | createUser (req : CreateUserRequest)
  | grant (req : GrantRequest)
  | createTable (req : CreateTableRequest)
  | dropTable (req : DropTableRequest)
  | createView (req : CreateViewRequest)
  | createProcedure (req : CreateProcedureRequest)
  deriving DecidableEq

/-- `input_c_operation_t`, before its validation. -/
structure InputOperation where
  type : OperationType
  payload : Option Payload
  deriving DecidableEq

/-- `input_c_request_t`. -/
structure InputRequest where
  version : CString
  externalAuditId : CString
  sessionId : CString
  sourceFormat : InputFormat
  transactionRequired : Bool
  transactionName : CString
  operations : List InputOperation
  deriving DecidableEq

/-- `MAX_CREATE_USER_ROLES` and the other bounds of the lists. -/
def maxCreateUserRoles : Nat := 16
def maxGrantPrivileges : Nat := 16
def ddlMaxTableColumns : Nat := 64
def maxPrimaryKeyColumns : Nat := 16
def maxViewColumns : Nat := 64
def maxProcedureParameters : Nat := 32

/-- `sizeof(sql)` and the sizes of the other fields that hold statements and values. -/
def sqlSize : Nat := 4096
def callBackUrlSize : Nat := 512
def viewQueryLen : Nat := 4000
def procedureBodyLen : Nat := 8000
def valueLen : Nat := 4096
def clientDateFormatLen : Nat := 64

/-- `sizeof(table_name)` and of the other names. -/
def identifierLen : Nat := 128
def paramTypeLen : Nat := 32
def credentialLen : Nat := 256
def permissionCodeLen : Nat := 100
def quotaLen : Nat := 32
def grantPrivilegeLen : Nat := 32
def grantObjectTypeLen : Nat := 16
def columnDataTypeLen : Nat := 16
def columnDefaultLen : Nat := 128
def parameterDataTypeLen : Nat := 16
def parameterModeLen : Nat := 8
def parameterDefaultLen : Nat := 128
def externalAuditIdLen : Nat := 64
def sessionIdLen : Nat := 64
def transactionNameLen : Nat := 128

/-- `map_operation_type`. -/
def operationTypes : List (String × OperationType) :=
  [("GET_TEMPLATE", .getTemplate), ("SELECT", .select), ("INSERT", .insert), ("UPDATE", .update),
    ("DELETE", .delete), ("EXECUTE_PROCEDURE", .executeProcedure),
    ("CREATE_SESSION", .createSession), ("END_SESSION", .endSession),
    ("AUTHENTICATE", .authenticate), ("CHECK_PERMISSION", .checkPermission),
    ("CREATE_USER", .createUser), ("GRANT", .grant), ("CREATE_TABLE", .createTable),
    ("DROP_TABLE", .dropTable), ("CREATE_VIEW", .createView),
    ("CREATE_PROCEDURE", .createProcedure)]

def mapOperationType (s : CString) : OperationType :=
  ((operationTypes.find? fun entry => strcasecmp s entry.1.toList).map (·.2)).getD .unknown

/-- `parse_direction_l1`. -/
def parseDirection (s : CString) : ParamDirection :=
  if strcasecmp s "OUT".toList then .out
  else if strcasecmp s "IN_OUT".toList then .inOut
  else .inOnly

end OciWrapper.Wire
