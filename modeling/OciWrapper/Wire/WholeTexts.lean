import OciWrapper.Wire.Level1Parse

namespace OciWrapper.Wire

open OciWrapper.Text OciWrapper.Core OciWrapper.Dml

/-- A copy that cuts nothing: with it the builders give the texts as they were sent. -/
def wholeText (_ : Nat) (s : CString) : CString := s

/-- The texts of a record and the sizes of the fields they are copied to. -/
abbrev TextFields := List (String × Nat)

def fieldTexts : TextFields :=
  [("field_name", identifierLen), ("client_date_format", clientDateFormatLen)]

def keyTexts : TextFields := ("key_value", valueLen) :: fieldTexts

def parameterTexts : TextFields :=
  [("param_name", identifierLen), ("param_type", paramTypeLen), ("param_value", valueLen)]

def columnTexts : TextFields :=
  [("name", identifierLen), ("data_type", columnDataTypeLen), ("default_value", columnDefaultLen)]

def ddlParameterTexts : TextFields :=
  [("name", identifierLen), ("data_type", parameterDataTypeLen), ("mode", parameterModeLen),
    ("default_value", parameterDefaultLen)]

def tableTexts : TextFields := [("table_name", identifierLen), ("owner", identifierLen)]

/-- The texts that stand directly in an operation. -/
def operationTexts : OperationType → TextFields
  | .select => [("sql", sqlSize), ("async_call_back_url", callBackUrlSize)]
  | .insert | .update | .delete | .createTable | .dropTable => tableTexts
  | .executeProcedure => [("procedure_name", identifierLen), ("owner", identifierLen)]
  | .authenticate => [("username", identifierLen), ("credential", credentialLen)]
  | .checkPermission => [("permission_code", permissionCodeLen)]
  | .createUser =>
    [("username", identifierLen), ("identified_by", identifierLen),
      ("default_tablespace", identifierLen), ("temp_tablespace", identifierLen),
      ("quota", quotaLen), ("quota_tablespace", identifierLen), ("profile", identifierLen)]
  | .grant =>
    [("grantee", identifierLen), ("object_type", grantObjectTypeLen),
      ("object_name", identifierLen), ("owner", identifierLen)]
  | .createView =>
    [("view_name", identifierLen), ("owner", identifierLen), ("query", viewQueryLen)]
  | .createProcedure =>
    [("procedure_name", identifierLen), ("owner", identifierLen), ("body", procedureBodyLen)]
  | .unknown | .getTemplate | .createSession | .endSession => []

/-- The lists of texts in an operation: the list, its entries in XML and their size. -/
def operationLists : OperationType → List (String × String × Nat)
  | .createUser => [("roles", "role", identifierLen)]
  | .grant => [("privileges", "privilege", grantPrivilegeLen)]
  | .createTable => [("primary_key", "column", identifierLen)]
  | .createView => [("columns", "column", identifierLen)]
  | _ => []

/-- Every one of the texts is shorter than its field. -/
def FitsXml (fields : TextFields) (nodes : List XmlNode) : Prop :=
  ∀ name size, (name, size) ∈ fields → ∀ text ∈ xmlContent nodes name, text.length < size

def FitsJson (fields : TextFields) (obj : Json) : Prop :=
  ∀ name size, (name, size) ∈ fields →
    ∀ text ∈ (obj.item name).bind Json.text?, text.length < size

/-- The records of an operation and the texts in them. -/
def recordsXml (nodes : List XmlNode) : OperationType → List (XmlNode × TextFields)
  | .insert =>
    ((elementsNamed "row" nodes).flatMap fun row => elementsNamed "field" row.children).map
      (·, fieldTexts)
  | .update =>
    (elementsNamed "key" (childrenNamed "where" nodes)).map (·, keyTexts) ++
      (elementsNamed "field" (childrenNamed "set" nodes)).map (·, fieldTexts)
  | .delete => (elementsNamed "key" (childrenNamed "where" nodes)).map (·, keyTexts)
  | .executeProcedure =>
    (elementsNamed "parameter" (childrenNamed "parameters" nodes)).map (·, parameterTexts)
  | .createTable => (entriesXml "columns" "column" nodes).map (·, columnTexts)
  | .createProcedure => (entriesXml "parameters" "parameter" nodes).map (·, ddlParameterTexts)
  | _ => []

def recordsJson (obj : Json) : OperationType → List (Json × TextFields)
  | .insert =>
    ((jsonItems obj "rows").flatMap fun row => jsonItems row "fields").map (·, fieldTexts)
  | .update =>
    (jsonItems obj "where").map (·, keyTexts) ++ (jsonItems obj "set").map (·, fieldTexts)
  | .delete => (jsonItems obj "where").map (·, keyTexts)
  | .executeProcedure => (jsonItems obj "parameters").map (·, parameterTexts)
  | .createTable => ((jsonItems obj "columns").filter Json.isObject).map (·, columnTexts)
  | .createProcedure =>
    ((jsonItems obj "parameters").filter Json.isObject).map (·, ddlParameterTexts)
  | _ => []

/-- Every text of the operation fits, but for field values, which any length is kept of. -/
structure OperationFitsXml (nodes : List XmlNode) (type : OperationType) : Prop where
  texts : FitsXml (operationTexts type) nodes
  records : ∀ record ∈ recordsXml nodes type, FitsXml record.2 record.1.children
  lists : ∀ name entry size, (name, entry, size) ∈ operationLists type →
    ∀ node ∈ entriesXml name entry nodes, node.content.length < size

structure OperationFitsJson (obj : Json) (type : OperationType) : Prop where
  texts : FitsJson (operationTexts type) obj
  records : ∀ record ∈ recordsJson obj type, FitsJson record.2 record.1
  lists : ∀ name entry size, (name, entry, size) ∈ operationLists type →
    ∀ text ∈ (jsonItems obj name).filterMap Json.text?, text.length < size

theorem strncpy_of_lt {size : Nat} {s : CString} (fits : s.length < size) : strncpy size s = s := by
  apply List.take_of_length_le
  omega

section Xml

variable {fields : TextFields} {nodes : List XmlNode}

theorem xmlText_whole (fits : FitsXml fields nodes) (name : String) (size : Nat)
    (carried : (name, size) ∈ fields) :
    xmlText strncpy size nodes name = xmlText wholeText size nodes name := by
  rw [xmlText, xmlText]
  cases sent : xmlContent nodes name with
  | none => rfl
  | some text => simp only [Option.map_some, wholeText,
      strncpy_of_lt (fits name size carried text sent)]

theorem xmlTexts_whole {name entry : String} {size : Nat} (most : Nat)
    (fits : ∀ node ∈ entriesXml name entry nodes, node.content.length < size) :
    xmlTexts strncpy size most nodes name entry = xmlTexts wholeText size most nodes name entry := by
  rw [xmlTexts, xmlTexts]
  congr 2
  apply List.map_congr_left
  intro node member
  rw [wholeText, strncpy_of_lt (fits node member)]

theorem fieldXml_whole {node : XmlNode} (fits : FitsXml fieldTexts node.children) :
    fieldXml strncpy node = fieldXml wholeText node := by
  rw [fieldXml, fieldXml, xmlText_whole fits _ _ (by simp [fieldTexts]),
    xmlText_whole fits _ _ (by simp [fieldTexts])]

theorem keyXml_whole {node : XmlNode} (fits : FitsXml keyTexts node.children) :
    keyXml strncpy node = keyXml wholeText node := by
  rw [keyXml, keyXml, xmlText_whole fits _ _ (by simp [keyTexts, fieldTexts]),
    xmlText_whole fits _ _ (by simp [keyTexts, fieldTexts]),
    xmlText_whole fits _ _ (by simp [keyTexts, fieldTexts])]

theorem parameterXml_whole {node : XmlNode} (fits : FitsXml parameterTexts node.children) :
    parameterXml strncpy node = parameterXml wholeText node := by
  rw [parameterXml, parameterXml,
    xmlText_whole fits "param_name" identifierLen (by simp [parameterTexts]),
    xmlText_whole fits "param_type" paramTypeLen (by simp [parameterTexts]),
    xmlText_whole fits "param_value" valueLen (by simp [parameterTexts])]

theorem columnXml_whole {node : XmlNode} (fits : FitsXml columnTexts node.children) :
    columnXml strncpy node = columnXml wholeText node := by
  rw [columnXml, columnXml, xmlText_whole fits _ _ (by simp [columnTexts]),
    xmlText_whole fits _ _ (by simp [columnTexts]), xmlText_whole fits _ _ (by simp [columnTexts])]

theorem ddlParameterXml_whole {node : XmlNode} (fits : FitsXml ddlParameterTexts node.children) :
    ddlParameterXml strncpy node = ddlParameterXml wholeText node := by
  have mode : (xmlContent node.children "mode").map (fun content =>
        trim (strncpy parameterModeLen content)) =
      (xmlContent node.children "mode").map fun content =>
        trim (wholeText parameterModeLen content) := by
    cases sent : xmlContent node.children "mode" with
    | none => rfl
    | some text => simp only [Option.map_some, wholeText,
        strncpy_of_lt (fits "mode" parameterModeLen (by simp [ddlParameterTexts]) text sent)]
  rw [ddlParameterXml, ddlParameterXml, mode, xmlText_whole fits _ _ (by simp [ddlParameterTexts]),
    xmlText_whole fits _ _ (by simp [ddlParameterTexts]),
    xmlText_whole fits _ _ (by simp [ddlParameterTexts])]

theorem trim_length_le (s : CString) : (trim s).length ≤ s.length := by
  have leading := (List.dropWhile_suffix isSpace (l := s)).length_le
  have trailing := (List.dropWhile_suffix isSpace (l := (s.dropWhile isSpace).reverse)).length_le
  rw [List.length_reverse] at trailing
  rw [trim, List.length_reverse]
  omega

theorem xmlText_length_lt (fits : FitsXml fields nodes) {name : String} {size : Nat}
    (carried : (name, size) ∈ fields) (wide : 0 < size) :
    (xmlText wholeText size nodes name).length < size := by
  rw [xmlText]
  cases sent : xmlContent nodes name with
  | none => exact wide
  | some text => exact Nat.lt_of_le_of_lt (trim_length_le text) (fits name size carried text sent)

theorem map_nodes {β : Type} {f g : XmlNode → β} {texts : TextFields} {records : List XmlNode}
    (fits : ∀ record ∈ records.map (·, texts), FitsXml record.2 record.1.children)
    (whole : ∀ {node : XmlNode}, FitsXml texts node.children → f node = g node) :
    records.map f = records.map g := by
  apply List.map_congr_left
  intro node member
  exact whole (fits (node, texts) (List.mem_map_of_mem member))

theorem buildPayloadXml_whole {type : OperationType} (fits : OperationFitsXml nodes type) :
    buildPayloadXml strncpy nodes type = buildPayloadXml wholeText nodes type := by
  obtain ⟨texts, records, lists⟩ := fits
  cases type with
  | select =>
    simp only [buildPayloadXml]
    rw [xmlText_whole texts _ _ (by simp [operationTexts]),
      xmlText_whole texts _ _ (by simp [operationTexts])]
  | insert =>
    have rows : ((elementsNamed "row" nodes).map fun row =>
          (elementsNamed "field" row.children).map (fieldXml strncpy)) =
        (elementsNamed "row" nodes).map fun row =>
          (elementsNamed "field" row.children).map (fieldXml wholeText) := by
      apply List.map_congr_left
      intro row member
      apply List.map_congr_left
      intro field inside
      apply fieldXml_whole
      exact records (field, fieldTexts) (List.mem_map_of_mem
        (List.mem_flatMap.mpr ⟨row, member, inside⟩))
    simp only [buildPayloadXml]
    rw [rows, xmlText_whole texts _ _ (by simp [operationTexts, tableTexts]),
      xmlText_whole texts _ _ (by simp [operationTexts, tableTexts])]
  | update =>
    have keys := map_nodes (fun record member => records record (List.mem_append_left _ member))
      keyXml_whole
    have sets := map_nodes (fun record member => records record (List.mem_append_right _ member))
      fieldXml_whole
    simp only [buildPayloadXml]
    rw [keys, sets, xmlText_whole texts _ _ (by simp [operationTexts, tableTexts]),
      xmlText_whole texts _ _ (by simp [operationTexts, tableTexts])]
  | delete =>
    have keys := map_nodes records keyXml_whole
    simp only [buildPayloadXml]
    rw [keys, xmlText_whole texts _ _ (by simp [operationTexts, tableTexts]),
      xmlText_whole texts _ _ (by simp [operationTexts, tableTexts])]
  | executeProcedure =>
    have parameters := map_nodes records parameterXml_whole
    simp only [buildPayloadXml]
    rw [parameters, xmlText_whole texts _ _ (by simp [operationTexts]),
      xmlText_whole texts _ _ (by simp [operationTexts])]
  | authenticate =>
    simp only [buildPayloadXml]
    rw [xmlText_whole texts _ _ (by simp [operationTexts]),
      xmlText_whole texts _ _ (by simp [operationTexts])]
  | checkPermission =>
    simp only [buildPayloadXml]
    rw [xmlText_whole texts _ _ (by simp [operationTexts])]
  | createUser =>
    have roles := xmlTexts_whole maxCreateUserRoles
      (lists "roles" "role" identifierLen (by simp [operationLists]))
    have tablespace := xmlText_whole texts "default_tablespace" identifierLen
      (by simp [operationTexts])
    have short := xmlText_length_lt texts (by simp [operationTexts] :
      ("default_tablespace", identifierLen) ∈ operationTexts .createUser) (by decide)
    have quota (amount space : CString) :
        quotaTablespaceOf strncpy amount space
          (xmlText wholeText identifierLen nodes "default_tablespace") =
        quotaTablespaceOf wholeText amount space
          (xmlText wholeText identifierLen nodes "default_tablespace") := by
      rw [quotaTablespaceOf, quotaTablespaceOf, wholeText, strncpy_of_lt short]
    simp only [buildPayloadXml]
    rw [roles, tablespace, quota]
    iterate 6 rw [xmlText_whole texts _ _ (by simp [operationTexts])]
  | grant =>
    have privileges := xmlTexts_whole maxGrantPrivileges
      (lists "privileges" "privilege" grantPrivilegeLen (by simp [operationLists]))
    simp only [buildPayloadXml]
    rw [privileges]
    iterate 4 rw [xmlText_whole texts _ _ (by simp [operationTexts])]
  | createTable =>
    have columns := map_nodes records columnXml_whole
    have key := xmlTexts_whole maxPrimaryKeyColumns
      (lists "primary_key" "column" identifierLen (by simp [operationLists]))
    simp only [buildPayloadXml]
    rw [columns, key, xmlText_whole texts _ _ (by simp [operationTexts, tableTexts]),
      xmlText_whole texts _ _ (by simp [operationTexts, tableTexts])]
  | dropTable =>
    simp only [buildPayloadXml]
    rw [xmlText_whole texts _ _ (by simp [operationTexts, tableTexts]),
      xmlText_whole texts _ _ (by simp [operationTexts, tableTexts])]
  | createView =>
    have columns := xmlTexts_whole maxViewColumns
      (lists "columns" "column" identifierLen (by simp [operationLists]))
    simp only [buildPayloadXml]
    rw [columns]
    iterate 3 rw [xmlText_whole texts _ _ (by simp [operationTexts])]
  | createProcedure =>
    have parameters := map_nodes records ddlParameterXml_whole
    simp only [buildPayloadXml]
    rw [parameters]
    iterate 3 rw [xmlText_whole texts _ _ (by simp [operationTexts])]
  | unknown => rfl
  | getTemplate => rfl
  | createSession => rfl
  | endSession => rfl

end Xml

section Json

variable {fields : TextFields} {obj : Json}

theorem jsonText_whole (fits : FitsJson fields obj) (name : String) (size : Nat)
    (carried : (name, size) ∈ fields) :
    jsonText strncpy size obj name = jsonText wholeText size obj name := by
  rw [jsonText, jsonText]
  cases sent : (obj.item name).bind Json.text? with
  | none => rfl
  | some text => simp only [Option.map_some, wholeText,
      strncpy_of_lt (fits name size carried text sent)]

theorem jsonText_length_lt (fits : FitsJson fields obj) {name : String} {size : Nat}
    (carried : (name, size) ∈ fields) (wide : 0 < size) :
    (jsonText wholeText size obj name).length < size := by
  rw [jsonText]
  cases sent : (obj.item name).bind Json.text? with
  | none => exact wide
  | some text => exact fits name size carried text sent

theorem jsonTexts_whole {name : String} {size : Nat} (most : Nat)
    (fits : ∀ text ∈ (jsonItems obj name).filterMap Json.text?, text.length < size) :
    jsonTexts strncpy size most obj name = jsonTexts wholeText size most obj name := by
  rw [jsonTexts, jsonTexts]
  congr 1
  apply List.map_congr_left
  intro text member
  exact strncpy_of_lt (fits text (List.mem_of_mem_filter member))

theorem fieldJson_whole {item : Json} (fits : FitsJson fieldTexts item) :
    fieldJson strncpy item = fieldJson wholeText item := by
  rw [fieldJson, fieldJson, jsonText_whole fits _ _ (by simp [fieldTexts]),
    jsonText_whole fits _ _ (by simp [fieldTexts])]

theorem keyJson_whole {item : Json} (fits : FitsJson keyTexts item) :
    keyJson strncpy item = keyJson wholeText item := by
  rw [keyJson, keyJson, jsonText_whole fits _ _ (by simp [keyTexts, fieldTexts]),
    jsonText_whole fits _ _ (by simp [keyTexts, fieldTexts]),
    jsonText_whole fits _ _ (by simp [keyTexts, fieldTexts])]

theorem parameterJson_whole {item : Json} (fits : FitsJson parameterTexts item) :
    parameterJson strncpy item = parameterJson wholeText item := by
  rw [parameterJson, parameterJson, jsonText_whole fits _ _ (by simp [parameterTexts]),
    jsonText_whole fits _ _ (by simp [parameterTexts]),
    jsonText_whole fits _ _ (by simp [parameterTexts])]

theorem columnJson_whole {item : Json} (fits : FitsJson columnTexts item) :
    columnJson strncpy item = columnJson wholeText item := by
  rw [columnJson, columnJson, jsonText_whole fits _ _ (by simp [columnTexts]),
    jsonText_whole fits _ _ (by simp [columnTexts]),
    jsonText_whole fits _ _ (by simp [columnTexts])]

theorem ddlParameterJson_whole {item : Json} (fits : FitsJson ddlParameterTexts item) :
    ddlParameterJson strncpy item = ddlParameterJson wholeText item := by
  have mode : ((item.item "mode").bind Json.text?).map (strncpy parameterModeLen) =
      ((item.item "mode").bind Json.text?).map (wholeText parameterModeLen) := by
    cases sent : (item.item "mode").bind Json.text? with
    | none => rfl
    | some text => simp only [Option.map_some, wholeText,
        strncpy_of_lt (fits "mode" parameterModeLen (by simp [ddlParameterTexts]) text sent)]
  rw [ddlParameterJson, ddlParameterJson, mode,
    jsonText_whole fits _ _ (by simp [ddlParameterTexts]),
    jsonText_whole fits _ _ (by simp [ddlParameterTexts]),
    jsonText_whole fits _ _ (by simp [ddlParameterTexts])]

theorem map_items {β : Type} {f g : Json → β} {texts : TextFields} {records : List Json}
    (fits : ∀ record ∈ records.map (·, texts), FitsJson record.2 record.1)
    (whole : ∀ {item : Json}, FitsJson texts item → f item = g item) :
    records.map f = records.map g := by
  apply List.map_congr_left
  intro item member
  exact whole (fits (item, texts) (List.mem_map_of_mem member))

theorem buildPayloadJson_whole {type : OperationType} (fits : OperationFitsJson obj type) :
    buildPayloadJson strncpy obj type = buildPayloadJson wholeText obj type := by
  obtain ⟨texts, records, lists⟩ := fits
  cases type with
  | select =>
    simp only [buildPayloadJson]
    rw [jsonText_whole texts _ _ (by simp [operationTexts]),
      jsonText_whole texts _ _ (by simp [operationTexts])]
  | insert =>
    have rows : ((jsonItems obj "rows").map fun row =>
          (jsonItems row "fields").map (fieldJson strncpy)) =
        (jsonItems obj "rows").map fun row =>
          (jsonItems row "fields").map (fieldJson wholeText) := by
      apply List.map_congr_left
      intro row member
      apply List.map_congr_left
      intro field inside
      apply fieldJson_whole
      exact records (field, fieldTexts) (List.mem_map_of_mem
        (List.mem_flatMap.mpr ⟨row, member, inside⟩))
    simp only [buildPayloadJson]
    rw [rows, jsonText_whole texts _ _ (by simp [operationTexts, tableTexts]),
      jsonText_whole texts _ _ (by simp [operationTexts, tableTexts])]
  | update =>
    have keys := map_items (fun record member => records record (List.mem_append_left _ member))
      keyJson_whole
    have sets := map_items (fun record member => records record (List.mem_append_right _ member))
      fieldJson_whole
    simp only [buildPayloadJson]
    rw [keys, sets, jsonText_whole texts _ _ (by simp [operationTexts, tableTexts]),
      jsonText_whole texts _ _ (by simp [operationTexts, tableTexts])]
  | delete =>
    have keys := map_items records keyJson_whole
    simp only [buildPayloadJson]
    rw [keys, jsonText_whole texts _ _ (by simp [operationTexts, tableTexts]),
      jsonText_whole texts _ _ (by simp [operationTexts, tableTexts])]
  | executeProcedure =>
    have parameters := map_items records parameterJson_whole
    simp only [buildPayloadJson]
    rw [parameters, jsonText_whole texts _ _ (by simp [operationTexts]),
      jsonText_whole texts _ _ (by simp [operationTexts])]
  | authenticate =>
    simp only [buildPayloadJson]
    rw [jsonText_whole texts _ _ (by simp [operationTexts]),
      jsonText_whole texts _ _ (by simp [operationTexts])]
  | checkPermission =>
    simp only [buildPayloadJson]
    rw [jsonText_whole texts _ _ (by simp [operationTexts])]
  | createUser =>
    have roles := jsonTexts_whole maxCreateUserRoles
      (lists "roles" "role" identifierLen (by simp [operationLists]))
    have tablespace := jsonText_whole texts "default_tablespace" identifierLen
      (by simp [operationTexts])
    have short := jsonText_length_lt texts (by simp [operationTexts] :
      ("default_tablespace", identifierLen) ∈ operationTexts .createUser) (by decide)
    have quota (amount space : CString) :
        quotaTablespaceOf strncpy amount space
          (jsonText wholeText identifierLen obj "default_tablespace") =
        quotaTablespaceOf wholeText amount space
          (jsonText wholeText identifierLen obj "default_tablespace") := by
      rw [quotaTablespaceOf, quotaTablespaceOf, wholeText, strncpy_of_lt short]
    simp only [buildPayloadJson]
    rw [roles, tablespace, quota]
    iterate 6 rw [jsonText_whole texts _ _ (by simp [operationTexts])]
  | grant =>
    have privileges := jsonTexts_whole maxGrantPrivileges
      (lists "privileges" "privilege" grantPrivilegeLen (by simp [operationLists]))
    simp only [buildPayloadJson]
    rw [privileges]
    iterate 4 rw [jsonText_whole texts _ _ (by simp [operationTexts])]
  | createTable =>
    have columns := map_items records columnJson_whole
    have key := jsonTexts_whole maxPrimaryKeyColumns
      (lists "primary_key" "column" identifierLen (by simp [operationLists]))
    simp only [buildPayloadJson]
    rw [columns, key, jsonText_whole texts _ _ (by simp [operationTexts, tableTexts]),
      jsonText_whole texts _ _ (by simp [operationTexts, tableTexts])]
  | dropTable =>
    simp only [buildPayloadJson]
    rw [jsonText_whole texts _ _ (by simp [operationTexts, tableTexts]),
      jsonText_whole texts _ _ (by simp [operationTexts, tableTexts])]
  | createView =>
    have columns := jsonTexts_whole maxViewColumns
      (lists "columns" "column" identifierLen (by simp [operationLists]))
    simp only [buildPayloadJson]
    rw [columns]
    iterate 3 rw [jsonText_whole texts _ _ (by simp [operationTexts])]
  | createProcedure =>
    have parameters := map_items records ddlParameterJson_whole
    simp only [buildPayloadJson]
    rw [parameters]
    iterate 3 rw [jsonText_whole texts _ _ (by simp [operationTexts])]
  | unknown => rfl
  | getTemplate => rfl
  | createSession => rfl
  | endSession => rfl

end Json

end OciWrapper.Wire
