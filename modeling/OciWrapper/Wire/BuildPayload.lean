import OciWrapper.Wire.Trees
import OciWrapper.Wire.WireRequests

namespace OciWrapper.Wire

open OciWrapper.Text OciWrapper.Core OciWrapper.Dml

/-- `set_field_value`, where the copy of a long text finds its memory. -/
def setFieldValue (fieldName src clientDateFormat : CString) : FieldValue :=
  if src.length < valueLen then ⟨fieldName, src, none, clientDateFormat⟩
  else ⟨fieldName, src.take (valueLen - 1), some src, clientDateFormat⟩

/-- The name of the tablespace that a quota without one of its own is for. -/
def quotaTablespaceOf (copy : Nat → CString → CString) (quota quotaTablespace defaultTablespace :
    CString) : CString :=
  if quota ≠ [] ∧ quotaTablespace = [] then copy identifierLen defaultTablespace
  else quotaTablespace

section Xml

variable (copy : Nat → CString → CString)

def fieldXml (node : XmlNode) : FieldValue :=
  setFieldValue (xmlText copy identifierLen node.children "field_name")
    (((xmlContent node.children "value").map trim).getD [])
    (xmlText copy clientDateFormatLen node.children "client_date_format")

def keyXml (node : XmlNode) : WhereKey where
  fieldName := xmlText copy identifierLen node.children "field_name"
  keyValue := xmlText copy valueLen node.children "key_value"
  clientDateFormat := xmlText copy clientDateFormatLen node.children "client_date_format"

def parameterXml (node : XmlNode) : ProcedureParam where
  paramName := xmlText copy identifierLen node.children "param_name"
  paramType := xmlText copy paramTypeLen node.children "param_type"
  -- `dir_str` of 32 bytes
  direction := parseDirection (xmlText strncpy 32 node.children "param_direction")
  paramValue := xmlText copy valueLen node.children "param_value"

def columnXml (node : XmlNode) : ColumnDef where
  name := xmlText copy identifierLen node.children "name"
  dataType := xmlText copy columnDataTypeLen node.children "data_type"
  length := xmlInt node.children "length"
  precision := xmlInt node.children "precision"
  scale := xmlInt node.children "scale"
  nullable := xmlFlag true node.children "nullable"
  defaultValue := xmlText copy columnDefaultLen node.children "default_value"

/-- The mode of a parameter that names none is `IN`. -/
def ddlParameterXml (node : XmlNode) : DdlProcedureParam where
  name := xmlText copy identifierLen node.children "name"
  dataType := xmlText copy parameterDataTypeLen node.children "data_type"
  mode := ((xmlContent node.children "mode").map fun content =>
    trim (copy parameterModeLen content)).getD ['I', 'N']
  defaultValue := xmlText copy parameterDefaultLen node.children "default_value"

/-- The entries of a list of records: those with a name, up to a count. -/
def namedEntries {α : Type} (name : α → CString) (most : Nat) (entries : List α) : List α :=
  (entries.filter fun entry => name entry ≠ []).take most

def entriesXml (name entry : String) (nodes : List XmlNode) : List XmlNode :=
  (elementsNamed name nodes).flatMap fun node => elementsNamed entry node.children

/-- `build_payload_xml`, of the children of the operation. -/
def buildPayloadXml (nodes : List XmlNode) : OperationType → Option Payload
  | .select => some <| .select {
      sql := xmlText copy sqlSize nodes "sql"
      maxRows := 0
      fetchBatchSize := 0
      includeColumnNames := true
      executeAsync := xmlFlag false nodes "execute_async"
      asyncCallBackUrl := xmlText copy callBackUrlSize nodes "async_call_back_url" }
  | .insert => some <| .insert {
      tableName := xmlText copy identifierLen nodes "table_name"
      owner := xmlText copy identifierLen nodes "owner"
      rows := (elementsNamed "row" nodes).map fun row =>
        (elementsNamed "field" row.children).map (fieldXml copy) }
  | .update => some <| .update {
      tableName := xmlText copy identifierLen nodes "table_name"
      owner := xmlText copy identifierLen nodes "owner"
      keys := (elementsNamed "key" (childrenNamed "where" nodes)).map (keyXml copy)
      fields := (elementsNamed "field" (childrenNamed "set" nodes)).map (fieldXml copy) }
  | .delete => some <| .delete {
      tableName := xmlText copy identifierLen nodes "table_name"
      owner := xmlText copy identifierLen nodes "owner"
      keys := (elementsNamed "key" (childrenNamed "where" nodes)).map (keyXml copy) }
  | .executeProcedure => some <| .executeProcedure {
      procedureName := xmlText copy identifierLen nodes "procedure_name"
      owner := xmlText copy identifierLen nodes "owner"
      parameters :=
        (elementsNamed "parameter" (childrenNamed "parameters" nodes)).map (parameterXml copy) }
  | .authenticate => some <| .authenticate {
      username := xmlText copy identifierLen nodes "username"
      credential := xmlText copy credentialLen nodes "credential" }
  | .checkPermission => some <| .checkPermission {
      permissionCode := xmlText copy permissionCodeLen nodes "permission_code" }
  | .createUser => some <| .createUser {
      username := xmlText copy identifierLen nodes "username"
      identifiedBy := xmlText copy identifierLen nodes "identified_by"
      defaultTablespace := xmlText copy identifierLen nodes "default_tablespace"
      tempTablespace := xmlText copy identifierLen nodes "temp_tablespace"
      quota := xmlText copy quotaLen nodes "quota"
      quotaTablespace := quotaTablespaceOf copy (xmlText copy quotaLen nodes "quota")
        (xmlText copy identifierLen nodes "quota_tablespace")
        (xmlText copy identifierLen nodes "default_tablespace")
      profile := xmlText copy identifierLen nodes "profile"
      roles := xmlTexts copy identifierLen maxCreateUserRoles nodes "roles" "role" }
  | .grant => some <| .grant {
      grantee := xmlText copy identifierLen nodes "grantee"
      objectType := xmlText copy grantObjectTypeLen nodes "object_type"
      objectName := xmlText copy identifierLen nodes "object_name"
      owner := xmlText copy identifierLen nodes "owner"
      privileges :=
        xmlTexts copy grantPrivilegeLen maxGrantPrivileges nodes "privileges" "privilege"
      withGrantOption := xmlFlag false nodes "with_grant_option" }
  | .createTable => some <| .createTable {
      tableName := xmlText copy identifierLen nodes "table_name"
      owner := xmlText copy identifierLen nodes "owner"
      columns := namedEntries ColumnDef.name ddlMaxTableColumns
        ((entriesXml "columns" "column" nodes).map (columnXml copy))
      primaryKeyColumns :=
        xmlTexts copy identifierLen maxPrimaryKeyColumns nodes "primary_key" "column" }
  | .dropTable => some <| .dropTable {
      tableName := xmlText copy identifierLen nodes "table_name"
      owner := xmlText copy identifierLen nodes "owner"
      cascadeConstraints := xmlFlag false nodes "cascade_constraints"
      purge := xmlFlag false nodes "purge"
      confirm := xmlFlag false nodes "confirm" }
  | .createView => some <| .createView {
      viewName := xmlText copy identifierLen nodes "view_name"
      owner := xmlText copy identifierLen nodes "owner"
      replace := xmlFlag false nodes "replace"
      force := xmlFlag false nodes "force"
      columns := xmlTexts copy identifierLen maxViewColumns nodes "columns" "column"
      query := xmlText copy viewQueryLen nodes "query" }
  | .createProcedure => some <| .createProcedure {
      procedureName := xmlText copy identifierLen nodes "procedure_name"
      owner := xmlText copy identifierLen nodes "owner"
      replace := xmlFlag false nodes "replace"
      parameters := namedEntries DdlProcedureParam.name maxProcedureParameters
        ((entriesXml "parameters" "parameter" nodes).map (ddlParameterXml copy))
      body := xmlText copy procedureBodyLen nodes "body" }
  | .unknown | .getTemplate | .createSession | .endSession => none

end Xml

section Json

variable (copy : Nat → CString → CString)

def fieldJson (obj : Json) : FieldValue :=
  setFieldValue (jsonText copy identifierLen obj "field_name")
    (((obj.item "value").bind Json.text?).getD [])
    (jsonText copy clientDateFormatLen obj "client_date_format")

def keyJson (obj : Json) : WhereKey where
  fieldName := jsonText copy identifierLen obj "field_name"
  keyValue := jsonText copy valueLen obj "key_value"
  clientDateFormat := jsonText copy clientDateFormatLen obj "client_date_format"

def parameterJson (obj : Json) : ProcedureParam where
  paramName := jsonText copy identifierLen obj "param_name"
  paramType := jsonText copy paramTypeLen obj "param_type"
  direction := parseDirection (((obj.item "param_direction").bind Json.text?).getD [])
  paramValue := jsonText copy valueLen obj "param_value"

def columnJson (obj : Json) : ColumnDef where
  name := jsonText copy identifierLen obj "name"
  dataType := jsonText copy columnDataTypeLen obj "data_type"
  length := jsonInt obj "length"
  precision := jsonInt obj "precision"
  scale := jsonInt obj "scale"
  nullable := jsonFlag true obj "nullable"
  defaultValue := jsonText copy columnDefaultLen obj "default_value"

def ddlParameterJson (obj : Json) : DdlProcedureParam where
  name := jsonText copy identifierLen obj "name"
  dataType := jsonText copy parameterDataTypeLen obj "data_type"
  mode := (((obj.item "mode").bind Json.text?).map (copy parameterModeLen)).getD ['I', 'N']
  defaultValue := jsonText copy parameterDefaultLen obj "default_value"

/-- `build_payload_json`; only the texts of a SELECT are trimmed. -/
def buildPayloadJson (obj : Json) : OperationType → Option Payload
  | .select => some <| .select {
      sql := trim (jsonText copy sqlSize obj "sql")
      maxRows := 0
      fetchBatchSize := 0
      includeColumnNames := true
      executeAsync := jsonFlag false obj "execute_async"
      asyncCallBackUrl := trim (jsonText copy callBackUrlSize obj "async_call_back_url") }
  | .insert => some <| .insert {
      tableName := jsonText copy identifierLen obj "table_name"
      owner := jsonText copy identifierLen obj "owner"
      rows := (jsonItems obj "rows").map fun row => (jsonItems row "fields").map (fieldJson copy) }
  | .update => some <| .update {
      tableName := jsonText copy identifierLen obj "table_name"
      owner := jsonText copy identifierLen obj "owner"
      keys := (jsonItems obj "where").map (keyJson copy)
      fields := (jsonItems obj "set").map (fieldJson copy) }
  | .delete => some <| .delete {
      tableName := jsonText copy identifierLen obj "table_name"
      owner := jsonText copy identifierLen obj "owner"
      keys := (jsonItems obj "where").map (keyJson copy) }
  | .executeProcedure => some <| .executeProcedure {
      procedureName := jsonText copy identifierLen obj "procedure_name"
      owner := jsonText copy identifierLen obj "owner"
      parameters := (jsonItems obj "parameters").map (parameterJson copy) }
  | .authenticate => some <| .authenticate {
      username := jsonText copy identifierLen obj "username"
      credential := jsonText copy credentialLen obj "credential" }
  | .checkPermission => some <| .checkPermission {
      permissionCode := jsonText copy permissionCodeLen obj "permission_code" }
  | .createUser => some <| .createUser {
      username := jsonText copy identifierLen obj "username"
      identifiedBy := jsonText copy identifierLen obj "identified_by"
      defaultTablespace := jsonText copy identifierLen obj "default_tablespace"
      tempTablespace := jsonText copy identifierLen obj "temp_tablespace"
      quota := jsonText copy quotaLen obj "quota"
      quotaTablespace := quotaTablespaceOf copy (jsonText copy quotaLen obj "quota")
        (jsonText copy identifierLen obj "quota_tablespace")
        (jsonText copy identifierLen obj "default_tablespace")
      profile := jsonText copy identifierLen obj "profile"
      roles := jsonTexts copy identifierLen maxCreateUserRoles obj "roles" }
  | .grant => some <| .grant {
      grantee := jsonText copy identifierLen obj "grantee"
      objectType := jsonText copy grantObjectTypeLen obj "object_type"
      objectName := jsonText copy identifierLen obj "object_name"
      owner := jsonText copy identifierLen obj "owner"
      privileges := jsonTexts copy grantPrivilegeLen maxGrantPrivileges obj "privileges"
      withGrantOption := jsonFlag false obj "with_grant_option" }
  | .createTable => some <| .createTable {
      tableName := jsonText copy identifierLen obj "table_name"
      owner := jsonText copy identifierLen obj "owner"
      columns := namedEntries ColumnDef.name ddlMaxTableColumns
        (((jsonItems obj "columns").filter Json.isObject).map (columnJson copy))
      primaryKeyColumns := jsonTexts copy identifierLen maxPrimaryKeyColumns obj "primary_key" }
  | .dropTable => some <| .dropTable {
      tableName := jsonText copy identifierLen obj "table_name"
      owner := jsonText copy identifierLen obj "owner"
      cascadeConstraints := jsonFlag false obj "cascade_constraints"
      purge := jsonFlag false obj "purge"
      confirm := jsonFlag false obj "confirm" }
  | .createView => some <| .createView {
      viewName := jsonText copy identifierLen obj "view_name"
      owner := jsonText copy identifierLen obj "owner"
      replace := jsonFlag false obj "replace"
      force := jsonFlag false obj "force"
      columns := jsonTexts copy identifierLen maxViewColumns obj "columns"
      query := jsonText copy viewQueryLen obj "query" }
  | .createProcedure => some <| .createProcedure {
      procedureName := jsonText copy identifierLen obj "procedure_name"
      owner := jsonText copy identifierLen obj "owner"
      replace := jsonFlag false obj "replace"
      parameters := namedEntries DdlProcedureParam.name maxProcedureParameters
        (((jsonItems obj "parameters").filter Json.isObject).map (ddlParameterJson copy))
      body := jsonText copy procedureBodyLen obj "body" }
  | .unknown | .getTemplate | .createSession | .endSession => none

end Json

end OciWrapper.Wire
