import OciWrapper.Wire.Level1Parse

namespace OciWrapper.Wire

open OciWrapper.Text OciWrapper.Core

/-- A field of a row; what is `none` is not on the wire. -/
structure AbstractField where
  fieldName : Option CString
  value : Option CString
  clientDateFormat : Option CString

structure AbstractKey where
  fieldName : Option CString
  keyValue : Option CString
  clientDateFormat : Option CString

structure AbstractParameter where
  paramName : Option CString
  paramType : Option CString
  direction : Option ParamDirection
  paramValue : Option CString

structure AbstractColumn where
  name : Option CString
  dataType : Option CString
  length : Option Int
  precision : Option Int
  scale : Option Int
  nullable : Option Bool
  defaultValue : Option CString

structure AbstractDdlParameter where
  name : Option CString
  dataType : Option CString
  mode : Option CString
  defaultValue : Option CString

/-- An operation without the wire format it comes in. -/
inductive AbstractOperation
  | select (sql : Option CString) (executeAsync : Option Bool) (asyncCallBackUrl : Option CString)
  | insert (tableName owner : Option CString) (rows : List (List AbstractField))
  | update (tableName owner : Option CString) (keys : List AbstractKey)
      (fields : List AbstractField)
  | delete (tableName owner : Option CString) (keys : List AbstractKey)
  | executeProcedure (procedureName owner : Option CString) (parameters : List AbstractParameter)
  | authenticate (username credential : Option CString)
  | checkPermission (permissionCode : Option CString)
  | createUser (username identifiedBy defaultTablespace tempTablespace quota quotaTablespace
      profile : Option CString) (roles : List CString)
  | grant (grantee objectType objectName owner : Option CString) (privileges : List CString)
      (withGrantOption : Option Bool)
  | createTable (tableName owner : Option CString) (columns : List AbstractColumn)
      (primaryKey : List CString)
  | dropTable (tableName owner : Option CString) (cascadeConstraints purge confirm : Option Bool)
  | createView (viewName owner : Option CString) (replace force : Option Bool)
      (columns : List CString) (query : Option CString)
  | createProcedure (procedureName owner : Option CString) (replace : Option Bool)
      (parameters : List AbstractDdlParameter) (body : Option CString)
  /-- An operation of a type that has no payload, such as `END_SESSION`. -/
  | bare (type : CString)

structure AbstractTransaction where
  required : Bool
  name : Option CString
  operations : List AbstractOperation

structure AbstractRequest where
  externalAuditId : Option CString
  sessionId : Option CString
  transaction : Option AbstractTransaction

def AbstractOperation.type : AbstractOperation → CString
  | .select .. => "SELECT".toList
  | .insert .. => "INSERT".toList
  | .update .. => "UPDATE".toList
  | .delete .. => "DELETE".toList
  | .executeProcedure .. => "EXECUTE_PROCEDURE".toList
  | .authenticate .. => "AUTHENTICATE".toList
  | .checkPermission .. => "CHECK_PERMISSION".toList
  | .createUser .. => "CREATE_USER".toList
  | .grant .. => "GRANT".toList
  | .createTable .. => "CREATE_TABLE".toList
  | .dropTable .. => "DROP_TABLE".toList
  | .createView .. => "CREATE_VIEW".toList
  | .createProcedure .. => "CREATE_PROCEDURE".toList
  | .bare type => type

def directionText : ParamDirection → CString
  | .inOnly => "IN".toList
  | .out => "OUT".toList
  | .inOut => "IN_OUT".toList

section Xml

def leafXml (name : String) (s : CString) : XmlNode := .element name [] [.text s]

def textXml (name : String) (s : Option CString) : List XmlNode := s.toList.map (leafXml name)

def intXml (name : String) (n : Option Int) : List XmlNode := textXml name (n.map decimal)

def flagXml (name : String) (flag : Option Bool) : List XmlNode :=
  textXml name (flag.map fun set => if set then ['1'] else ['0'])

def groupXml (name : String) (nodes : List XmlNode) : XmlNode := .element name [] nodes

/-- A list that is written as one element with an element for each entry. -/
def listXml {α : Type} (name : String) (entry : α → XmlNode) (entries : List α) : List XmlNode :=
  [groupXml name (entries.map entry)]

def renderFieldXml (field : AbstractField) : XmlNode :=
  groupXml "field" (textXml "field_name" field.fieldName ++ textXml "value" field.value ++
    textXml "client_date_format" field.clientDateFormat)

def renderKeyXml (key : AbstractKey) : XmlNode :=
  groupXml "key" (textXml "field_name" key.fieldName ++ textXml "key_value" key.keyValue ++
    textXml "client_date_format" key.clientDateFormat)

def renderParameterXml (parameter : AbstractParameter) : XmlNode :=
  groupXml "parameter" (textXml "param_name" parameter.paramName ++
    textXml "param_type" parameter.paramType ++
    textXml "param_direction" (parameter.direction.map directionText) ++
    textXml "param_value" parameter.paramValue)

def renderColumnXml (column : AbstractColumn) : XmlNode :=
  groupXml "column" (textXml "name" column.name ++ textXml "data_type" column.dataType ++
    intXml "length" column.length ++ intXml "precision" column.precision ++
    intXml "scale" column.scale ++ flagXml "nullable" column.nullable ++
    textXml "default_value" column.defaultValue)

def renderDdlParameterXml (parameter : AbstractDdlParameter) : XmlNode :=
  groupXml "parameter" (textXml "name" parameter.name ++ textXml "data_type" parameter.dataType ++
    textXml "mode" parameter.mode ++ textXml "default_value" parameter.defaultValue)

def tableXml (tableName owner : Option CString) : List XmlNode :=
  textXml "table_name" tableName ++ textXml "owner" owner

def operationNodes : AbstractOperation → List XmlNode
  | .select sql executeAsync asyncCallBackUrl =>
    textXml "sql" sql ++ flagXml "execute_async" executeAsync ++
      textXml "async_call_back_url" asyncCallBackUrl
  | .insert tableName owner rows =>
    tableXml tableName owner ++ rows.map fun row => groupXml "row" (row.map renderFieldXml)
  | .update tableName owner keys fields =>
    tableXml tableName owner ++ listXml "where" renderKeyXml keys ++
      listXml "set" renderFieldXml fields
  | .delete tableName owner keys =>
    tableXml tableName owner ++ listXml "where" renderKeyXml keys
  | .executeProcedure procedureName owner parameters =>
    textXml "procedure_name" procedureName ++ textXml "owner" owner ++
      listXml "parameters" renderParameterXml parameters
  | .authenticate username credential =>
    textXml "username" username ++ textXml "credential" credential
  | .checkPermission permissionCode => textXml "permission_code" permissionCode
  | .createUser username identifiedBy defaultTablespace tempTablespace quota quotaTablespace
      profile roles =>
    textXml "username" username ++ textXml "identified_by" identifiedBy ++
      textXml "default_tablespace" defaultTablespace ++
      textXml "temp_tablespace" tempTablespace ++ textXml "quota" quota ++
      textXml "quota_tablespace" quotaTablespace ++ textXml "profile" profile ++
      listXml "roles" (leafXml "role") roles
  | .grant grantee objectType objectName owner privileges withGrantOption =>
    textXml "grantee" grantee ++ textXml "object_type" objectType ++
      textXml "object_name" objectName ++ textXml "owner" owner ++
      listXml "privileges" (leafXml "privilege") privileges ++
      flagXml "with_grant_option" withGrantOption
  | .createTable tableName owner columns primaryKey =>
    tableXml tableName owner ++ listXml "columns" renderColumnXml columns ++
      listXml "primary_key" (leafXml "column") primaryKey
  | .dropTable tableName owner cascadeConstraints purge confirm =>
    tableXml tableName owner ++ flagXml "cascade_constraints" cascadeConstraints ++
      flagXml "purge" purge ++ flagXml "confirm" confirm
  | .createView viewName owner replace force columns query =>
    textXml "view_name" viewName ++ textXml "owner" owner ++ flagXml "replace" replace ++
      flagXml "force" force ++ listXml "columns" (leafXml "column") columns ++
      textXml "query" query
  | .createProcedure procedureName owner replace parameters body =>
    textXml "procedure_name" procedureName ++ textXml "owner" owner ++
      flagXml "replace" replace ++ listXml "parameters" renderDdlParameterXml parameters ++
      textXml "body" body
  | .bare _ => []

def renderOperationXml (op : AbstractOperation) : XmlNode :=
  .element "operation" [("type", op.type)] (operationNodes op)

def renderTransactionXml (transaction : AbstractTransaction) : XmlNode :=
  .element "transaction"
    (("required", if transaction.required then ['1'] else ['0']) ::
      transaction.name.toList.map fun name => ("name", name))
    (transaction.operations.map renderOperationXml)

/-- The request in the XML format. -/
def renderXml (request : AbstractRequest) : XmlNode :=
  groupXml "request" (textXml "external_audit_id" request.externalAuditId ++
    textXml "session_id" request.sessionId ++
    request.transaction.toList.map renderTransactionXml)

end Xml

section Json

abbrev Members := List (String × Json)

def textJson (name : String) (s : Option CString) : Members :=
  s.toList.map fun s => (name, .string s)

def intJson (name : String) (n : Option Int) : Members := n.toList.map fun n => (name, .number n)

/-- Flags are written as numbers or as booleans. -/
def flagJson (asNumber : Bool) (name : String) (flag : Option Bool) : Members :=
  flag.toList.map fun set =>
    (name, if asNumber then .number (if set then 1 else 0) else .bool set)

def listJson {α : Type} (name : String) (entry : α → Json) (entries : List α) : Members :=
  [(name, .array (entries.map entry))]

def renderFieldJson (field : AbstractField) : Json :=
  .object (textJson "field_name" field.fieldName ++ textJson "value" field.value ++
    textJson "client_date_format" field.clientDateFormat)

def renderKeyJson (key : AbstractKey) : Json :=
  .object (textJson "field_name" key.fieldName ++ textJson "key_value" key.keyValue ++
    textJson "client_date_format" key.clientDateFormat)

def renderParameterJson (parameter : AbstractParameter) : Json :=
  .object (textJson "param_name" parameter.paramName ++
    textJson "param_type" parameter.paramType ++
    textJson "param_direction" (parameter.direction.map directionText) ++
    textJson "param_value" parameter.paramValue)

def renderColumnJson (asNumber : Bool) (column : AbstractColumn) : Json :=
  .object (textJson "name" column.name ++ textJson "data_type" column.dataType ++
    intJson "length" column.length ++ intJson "precision" column.precision ++
    intJson "scale" column.scale ++ flagJson asNumber "nullable" column.nullable ++
    textJson "default_value" column.defaultValue)

def renderDdlParameterJson (parameter : AbstractDdlParameter) : Json :=
  .object (textJson "name" parameter.name ++ textJson "data_type" parameter.dataType ++
    textJson "mode" parameter.mode ++ textJson "default_value" parameter.defaultValue)

def tableJson (tableName owner : Option CString) : Members :=
  textJson "table_name" tableName ++ textJson "owner" owner

def operationMembers (asNumber : Bool) : AbstractOperation → Members
  | .select sql executeAsync asyncCallBackUrl =>
    textJson "sql" sql ++ flagJson asNumber "execute_async" executeAsync ++
      textJson "async_call_back_url" asyncCallBackUrl
  | .insert tableName owner rows =>
    tableJson tableName owner ++
      listJson "rows" (fun row => .object (listJson "fields" renderFieldJson row)) rows
  | .update tableName owner keys fields =>
    tableJson tableName owner ++ listJson "where" renderKeyJson keys ++
      listJson "set" renderFieldJson fields
  | .delete tableName owner keys =>
    tableJson tableName owner ++ listJson "where" renderKeyJson keys
  | .executeProcedure procedureName owner parameters =>
    textJson "procedure_name" procedureName ++ textJson "owner" owner ++
      listJson "parameters" renderParameterJson parameters
  | .authenticate username credential =>
    textJson "username" username ++ textJson "credential" credential
  | .checkPermission permissionCode => textJson "permission_code" permissionCode
  | .createUser username identifiedBy defaultTablespace tempTablespace quota quotaTablespace
      profile roles =>
    textJson "username" username ++ textJson "identified_by" identifiedBy ++
      textJson "default_tablespace" defaultTablespace ++
      textJson "temp_tablespace" tempTablespace ++ textJson "quota" quota ++
      textJson "quota_tablespace" quotaTablespace ++ textJson "profile" profile ++
      listJson "roles" .string roles
  | .grant grantee objectType objectName owner privileges withGrantOption =>
    textJson "grantee" grantee ++ textJson "object_type" objectType ++
      textJson "object_name" objectName ++ textJson "owner" owner ++
      listJson "privileges" .string privileges ++
      flagJson asNumber "with_grant_option" withGrantOption
  | .createTable tableName owner columns primaryKey =>
    tableJson tableName owner ++ listJson "columns" (renderColumnJson asNumber) columns ++
      listJson "primary_key" .string primaryKey
  | .dropTable tableName owner cascadeConstraints purge confirm =>
    tableJson tableName owner ++ flagJson asNumber "cascade_constraints" cascadeConstraints ++
      flagJson asNumber "purge" purge ++ flagJson asNumber "confirm" confirm
  | .createView viewName owner replace force columns query =>
    textJson "view_name" viewName ++ textJson "owner" owner ++
      flagJson asNumber "replace" replace ++ flagJson asNumber "force" force ++
      listJson "columns" .string columns ++ textJson "query" query
  | .createProcedure procedureName owner replace parameters body =>
    textJson "procedure_name" procedureName ++ textJson "owner" owner ++
      flagJson asNumber "replace" replace ++
      listJson "parameters" renderDdlParameterJson parameters ++ textJson "body" body
  | .bare _ => []

def renderOperationJson (asNumber : Bool) (op : AbstractOperation) : Json :=
  .object (("type", .string op.type) :: operationMembers asNumber op)

def renderTransactionJson (asNumber : Bool) (transaction : AbstractTransaction) : Json :=
  .object (("required", .number (if transaction.required then 1 else 0)) ::
    (textJson "name" transaction.name ++
      listJson "operations" (renderOperationJson asNumber) transaction.operations))

/-- The request in the JSON format. -/
def renderJson (asNumber : Bool) (request : AbstractRequest) : Json :=
  .object (textJson "external_audit_id" request.externalAuditId ++
    textJson "session_id" request.sessionId ++
    request.transaction.toList.map fun transaction =>
      ("transaction", renderTransactionJson asNumber transaction))

end Json

end OciWrapper.Wire
