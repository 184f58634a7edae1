import OciWrapper.Wire.Rendering

namespace OciWrapper.Wire

open OciWrapper.Text OciWrapper.Core OciWrapper.Dml

section Xml

variable {name n : String}

@[simp] theorem elementsNamed_append (a b : List XmlNode) :
    elementsNamed name (a ++ b) = elementsNamed name a ++ elementsNamed name b := by
  simp [elementsNamed]

@[simp] theorem elementsNamed_textXml (s : Option CString) :
    elementsNamed name (textXml n s) = if n = name then textXml n s else [] := by
  cases s with
  | none => simp [elementsNamed, textXml]
  | some s => by_cases same : n = name <;> simp [elementsNamed, textXml, leafXml, XmlNode.isElement, same]

@[simp] theorem elementsNamed_groups {α : Type} (nodes : α → List XmlNode) (entries : List α) :
    elementsNamed name (entries.map fun entry => groupXml n (nodes entry)) =
      if n = name then entries.map fun entry => groupXml n (nodes entry) else [] := by
  by_cases same : n = name <;> simp [elementsNamed, groupXml, XmlNode.isElement, same]

@[simp] theorem elementsNamed_listXml {α : Type} (entry : α → XmlNode) (entries : List α) :
    elementsNamed name (listXml n entry entries) =
      if n = name then listXml n entry entries else [] := by
  by_cases same : n = name <;> simp [elementsNamed, listXml, groupXml, XmlNode.isElement, same]

@[simp] theorem getLast?_textXml_content (s : Option CString) :
    (textXml n s).getLast?.map XmlNode.content = s := by
  cases s <;> simp [textXml, leafXml, XmlNode.content, nodesContent]

theorem map_content_textXml (s : Option CString) :
    (textXml n s).map XmlNode.content = s.toList := by
  cases s <;> simp [textXml, leafXml, XmlNode.content, nodesContent]

theorem xmlContent_eq (nodes : List XmlNode) :
    xmlContent nodes name = (elementsNamed name nodes).getLast?.map XmlNode.content := rfl

theorem elementsNamed_map {α : Type} {render : α → XmlNode} (entries : List α)
    (named : ∀ entry, (render entry).isElement name = true) :
    elementsNamed name (entries.map render) = entries.map render := by
  apply List.filter_eq_self.mpr
  intro node member
  obtain ⟨entry, -, rfl⟩ := List.mem_map.mp member
  exact named entry

theorem entries_leafXml {entry : String} (entries : List CString) :
    elementsNamed entry (groupXml n (entries.map (leafXml entry))).children =
      entries.map (leafXml entry) := by
  simp [groupXml, leafXml, XmlNode.children, elementsNamed, XmlNode.isElement]

end Xml

section Json

variable {name n : String}

@[simp] theorem item_append (a b : Members) :
    (Json.object (a ++ b)).item name = ((Json.object a).item name).or ((Json.object b).item name) := by
  simp only [Json.item, List.find?_append]
  cases a.find? (·.1 == name) <;> rfl

@[simp] theorem item_cons (value : Json) (members : Members) :
    (Json.object ((n, value) :: members)).item name =
      if n = name then some value else (Json.object members).item name := by
  by_cases same : n = name <;> simp [Json.item, same]

@[simp] theorem item_nil : (Json.object []).item name = none := rfl

@[simp] theorem item_optional {α : Type} (render : α → Json) (value : Option α) :
    (Json.object (value.toList.map fun a => (n, render a))).item name =
      if n = name then value.map render else none := by
  cases value <;> by_cases same : n = name <;> simp [same]

@[simp] theorem item_textJson (s : Option CString) :
    (Json.object (textJson n s)).item name = if n = name then s.map .string else none :=
  item_optional Json.string s

@[simp] theorem item_intJson (value : Option Int) :
    (Json.object (intJson n value)).item name = if n = name then value.map .number else none :=
  item_optional Json.number value

@[simp] theorem item_flagJson (asNumber : Bool) (flag : Option Bool) :
    (Json.object (flagJson asNumber n flag)).item name =
      if n = name then
        flag.map fun set => if asNumber then .number (if set then 1 else 0) else .bool set
      else none :=
  item_optional (fun set => if asNumber then .number (if set then 1 else 0) else .bool set) flag

@[simp] theorem item_listJson {α : Type} (entry : α → Json) (entries : List α) :
    (Json.object (listJson n entry entries)).item name =
      if n = name then some (.array (entries.map entry)) else none := by
  by_cases same : n = name <;> simp [listJson, same]

@[simp] theorem text?_string (s : Option CString) : (s.map Json.string).bind Json.text? = s := by
  cases s <;> rfl

end Json

/-- A text of which no blank is left at the end of a field of the given size. -/
def CleanAt (size : Nat) (s : CString) : Prop := trim (strncpy size s) = strncpy size s

instance (size : Nat) (s : CString) : Decidable (CleanAt size s) :=
  inferInstanceAs (Decidable (trim (strncpy size s) = strncpy size s))

section Reads

variable {nodes : List XmlNode} {obj : Json} {name : String}

theorem xmlText_eq_jsonText {size : Nat} {s : Option CString} (clean : ∀ text ∈ s, CleanAt size text)
    (xml : xmlContent nodes name = s) (json : (obj.item name).bind Json.text? = s) :
    xmlText strncpy size nodes name = jsonText strncpy size obj name := by
  rw [xmlText, jsonText, xml, json]
  cases s with
  | none => rfl
  | some text => exact clean text rfl

theorem xmlText_eq_trim_jsonText {size : Nat} (s : Option CString)
    (xml : xmlContent nodes name = s) (json : (obj.item name).bind Json.text? = s) :
    xmlText strncpy size nodes name = trim (jsonText strncpy size obj name) := by
  rw [xmlText, jsonText, xml, json]
  cases s <;> rfl

theorem xmlInt_eq_jsonInt (value : Option Int) (xml : xmlContent nodes name = value.map decimal)
    (json : obj.item name = value.map Json.number) : xmlInt nodes name = jsonInt obj name := by
  rw [xmlInt, jsonInt, xml, json]
  cases value with
  | none => rfl
  | some n => exact atol_decimal n

theorem xmlFlag_eq_jsonFlag (asNumber : Bool) (flag : Option Bool) {unset : Bool}
    (xml : xmlContent nodes name = flag.map fun set => if set then ['1'] else ['0'])
    (json : obj.item name = flag.map fun set =>
      if asNumber then .number (if set then 1 else 0) else .bool set) :
    xmlFlag unset nodes name = jsonFlag unset obj name := by
  rw [xmlFlag, jsonFlag, xml, json]
  cases flag with
  | none => rfl
  | some set => cases set <;> cases asNumber <;> rfl

theorem xmlTexts_eq_jsonTexts {size most : Nat} {entry : String} {texts : List CString}
    (wide : 2 ≤ size) (clean : ∀ text ∈ texts, CleanAt size text)
    (xml : elementsNamed name nodes = listXml name (leafXml entry) texts)
    (json : jsonItems obj name = texts.map .string) :
    xmlTexts strncpy size most nodes name entry = jsonTexts strncpy size most obj name := by
  have full (text : CString) : decide (strncpy size text ≠ []) = decide (text ≠ []) := by
    apply decide_eq_decide.mpr
    rw [strncpy, ne_eq, List.take_eq_nil_iff]
    have : size - 1 ≠ 0 := by omega
    tauto
  have copied : (texts.map (leafXml entry)).map (fun node => trim (strncpy size node.content)) =
      texts.map (strncpy size) := by
    rw [List.map_map]
    apply List.map_congr_left
    intro text member
    have tidy : trim (strncpy size text) = strncpy size text := clean text member
    simpa [leafXml, XmlNode.content, nodesContent] using tidy
  have sent : (texts.map Json.string).filterMap Json.text? = texts := by
    simp [List.filterMap_map, Function.comp_def, Json.text?]
  rw [xmlTexts, jsonTexts, xml, json, sent]
  simp only [listXml, List.flatMap_cons, List.flatMap_nil, List.append_nil, entries_leafXml, copied,
    List.filter_map, Function.comp_def, full]

end Reads

/-- What `CleanAt` asks of the optional text of a field. -/
def Clean (size : Nat) (s : Option CString) : Prop := ∀ text ∈ s, CleanAt size text

structure AbstractField.Clean (field : AbstractField) : Prop where
  fieldName : Wire.Clean identifierLen field.fieldName
  value : ∀ text ∈ field.value, trim text = text
  clientDateFormat : Wire.Clean clientDateFormatLen field.clientDateFormat

structure AbstractKey.Clean (key : AbstractKey) : Prop where
  fieldName : Wire.Clean identifierLen key.fieldName
  keyValue : Wire.Clean valueLen key.keyValue
  clientDateFormat : Wire.Clean clientDateFormatLen key.clientDateFormat

structure AbstractParameter.Clean (parameter : AbstractParameter) : Prop where
  paramName : Wire.Clean identifierLen parameter.paramName
  paramType : Wire.Clean paramTypeLen parameter.paramType
  paramValue : Wire.Clean valueLen parameter.paramValue

structure AbstractColumn.Clean (column : AbstractColumn) : Prop where
  name : Wire.Clean identifierLen column.name
  dataType : Wire.Clean columnDataTypeLen column.dataType
  defaultValue : Wire.Clean columnDefaultLen column.defaultValue

structure AbstractDdlParameter.Clean (parameter : AbstractDdlParameter) : Prop where
  name : Wire.Clean identifierLen parameter.name
  dataType : Wire.Clean parameterDataTypeLen parameter.dataType
  mode : Wire.Clean parameterModeLen parameter.mode
  defaultValue : Wire.Clean parameterDefaultLen parameter.defaultValue

section Entries

theorem fieldXml_eq_fieldJson {field : AbstractField} (clean : field.Clean) :
    fieldXml strncpy (renderFieldXml field) = fieldJson strncpy (renderFieldJson field) := by
  have name : xmlText strncpy identifierLen (renderFieldXml field).children "field_name" =
      jsonText strncpy identifierLen (renderFieldJson field) "field_name" :=
    xmlText_eq_jsonText clean.fieldName
      (by simp [renderFieldXml, groupXml, XmlNode.children, xmlContent_eq])
      (by simp [renderFieldJson])
  have format : xmlText strncpy clientDateFormatLen (renderFieldXml field).children
        "client_date_format" =
      jsonText strncpy clientDateFormatLen (renderFieldJson field) "client_date_format" :=
    xmlText_eq_jsonText clean.clientDateFormat
      (by simp [renderFieldXml, groupXml, XmlNode.children, xmlContent_eq])
      (by simp [renderFieldJson])
  have xml : xmlContent (renderFieldXml field).children "value" = field.value := by
    simp [renderFieldXml, groupXml, XmlNode.children, xmlContent_eq]
  have json : ((renderFieldJson field).item "value").bind Json.text? = field.value := by
    simp [renderFieldJson]
  have value : (field.value.map trim).getD [] = field.value.getD [] := by
    cases sent : field.value with
    | none => rfl
    | some text => exact clean.value text sent
  rw [fieldXml, fieldJson, name, format, xml, json, value]

theorem keyXml_eq_keyJson {key : AbstractKey} (clean : key.Clean) :
    keyXml strncpy (renderKeyXml key) = keyJson strncpy (renderKeyJson key) := by
  simp only [keyXml, keyJson, WhereKey.mk.injEq]
  constructor
  · exact xmlText_eq_jsonText clean.fieldName
      (by simp [renderKeyXml, groupXml, XmlNode.children, xmlContent_eq])
      (by simp [renderKeyJson])
  constructor
  · exact xmlText_eq_jsonText clean.keyValue
      (by simp [renderKeyXml, groupXml, XmlNode.children, xmlContent_eq])
      (by simp [renderKeyJson])
  · exact xmlText_eq_jsonText clean.clientDateFormat
      (by simp [renderKeyXml, groupXml, XmlNode.children, xmlContent_eq])
      (by simp [renderKeyJson])

theorem parameterXml_eq_parameterJson {parameter : AbstractParameter} (clean : parameter.Clean) :
    parameterXml strncpy (renderParameterXml parameter) =
      parameterJson strncpy (renderParameterJson parameter) := by
  have xml : xmlContent (renderParameterXml parameter).children "param_direction" =
      parameter.direction.map directionText := by
    simp [renderParameterXml, groupXml, XmlNode.children, xmlContent_eq]
  have json : ((renderParameterJson parameter).item "param_direction").bind Json.text? =
      parameter.direction.map directionText := by
    simp [renderParameterJson, -Option.map_map]
  have direction : parseDirection (xmlText strncpy 32 (renderParameterXml parameter).children
        "param_direction") =
      parseDirection ((((renderParameterJson parameter).item "param_direction").bind
        Json.text?).getD []) := by
    rw [xmlText, xml, json]
    cases parameter.direction with
    | none => rfl
    | some way => cases way <;> decide
  simp only [parameterXml, parameterJson, direction, ProcedureParam.mk.injEq, true_and]
  constructor
  · exact xmlText_eq_jsonText clean.paramName
      (by simp [renderParameterXml, groupXml, XmlNode.children, xmlContent_eq])
      (by simp [renderParameterJson])
  constructor
  · exact xmlText_eq_jsonText clean.paramType
      (by simp [renderParameterXml, groupXml, XmlNode.children, xmlContent_eq])
      (by simp [renderParameterJson])
  · exact xmlText_eq_jsonText clean.paramValue
      (by simp [renderParameterXml, groupXml, XmlNode.children, xmlContent_eq])
      (by simp [renderParameterJson])

theorem columnXml_eq_columnJson {column : AbstractColumn} (asNumber : Bool) (clean : column.Clean) :
    columnXml strncpy (renderColumnXml column) =
      columnJson strncpy (renderColumnJson asNumber column) := by
  simp only [columnXml, columnJson, ColumnDef.mk.injEq]
  refine ⟨xmlText_eq_jsonText clean.name ?_ ?_, xmlText_eq_jsonText clean.dataType ?_ ?_,
    xmlInt_eq_jsonInt column.length ?_ ?_, xmlInt_eq_jsonInt column.precision ?_ ?_,
    xmlInt_eq_jsonInt column.scale ?_ ?_, xmlFlag_eq_jsonFlag asNumber column.nullable ?_ ?_,
    xmlText_eq_jsonText clean.defaultValue ?_ ?_⟩
  all_goals simp [renderColumnXml, renderColumnJson, groupXml, XmlNode.children, xmlContent_eq,
    intXml, flagXml]

theorem ddlParameterXml_eq_ddlParameterJson {parameter : AbstractDdlParameter}
    (clean : parameter.Clean) :
    ddlParameterXml strncpy (renderDdlParameterXml parameter) =
      ddlParameterJson strncpy (renderDdlParameterJson parameter) := by
  have xml : xmlContent (renderDdlParameterXml parameter).children "mode" = parameter.mode := by
    simp [renderDdlParameterXml, groupXml, XmlNode.children, xmlContent_eq]
  have json : ((renderDdlParameterJson parameter).item "mode").bind Json.text? =
      parameter.mode := by
    simp [renderDdlParameterJson]
  simp only [ddlParameterXml, ddlParameterJson, xml, json, DdlProcedureParam.mk.injEq]
  refine ⟨xmlText_eq_jsonText clean.name ?_ ?_, xmlText_eq_jsonText clean.dataType ?_ ?_, ?_,
    xmlText_eq_jsonText clean.defaultValue ?_ ?_⟩
  case refine_5 =>
    cases sent : parameter.mode with
    | none => rfl
    | some mode => exact clean.mode mode sent
  all_goals simp [renderDdlParameterXml, renderDdlParameterJson, groupXml, XmlNode.children,
    xmlContent_eq]

end Entries

def AbstractOperation.Clean : AbstractOperation → Prop
  | .select .. | .bare _ => True
  | .insert tableName owner rows =>
    Wire.Clean identifierLen tableName ∧ Wire.Clean identifierLen owner ∧
      ∀ row ∈ rows, ∀ field ∈ row, field.Clean
  | .update tableName owner keys fields =>
    Wire.Clean identifierLen tableName ∧ Wire.Clean identifierLen owner ∧
      (∀ key ∈ keys, key.Clean) ∧ ∀ field ∈ fields, field.Clean
  | .delete tableName owner keys =>
    Wire.Clean identifierLen tableName ∧ Wire.Clean identifierLen owner ∧ ∀ key ∈ keys, key.Clean
  | .executeProcedure procedureName owner parameters =>
    Wire.Clean identifierLen procedureName ∧ Wire.Clean identifierLen owner ∧
      ∀ parameter ∈ parameters, parameter.Clean
  | .authenticate username credential =>
    Wire.Clean identifierLen username ∧ Wire.Clean credentialLen credential
  | .checkPermission permissionCode => Wire.Clean permissionCodeLen permissionCode
  | .createUser username identifiedBy defaultTablespace tempTablespace quota quotaTablespace
      profile roles =>
    Wire.Clean identifierLen username ∧ Wire.Clean identifierLen identifiedBy ∧
      Wire.Clean identifierLen defaultTablespace ∧ Wire.Clean identifierLen tempTablespace ∧
      Wire.Clean quotaLen quota ∧ Wire.Clean identifierLen quotaTablespace ∧
      Wire.Clean identifierLen profile ∧ ∀ role ∈ roles, CleanAt identifierLen role
  | .grant grantee objectType objectName owner privileges _ =>
    Wire.Clean identifierLen grantee ∧ Wire.Clean grantObjectTypeLen objectType ∧
      Wire.Clean identifierLen objectName ∧ Wire.Clean identifierLen owner ∧
      ∀ privilege ∈ privileges, CleanAt grantPrivilegeLen privilege
  | .createTable tableName owner columns primaryKey =>
    Wire.Clean identifierLen tableName ∧ Wire.Clean identifierLen owner ∧
      (∀ column ∈ columns, column.Clean) ∧ ∀ column ∈ primaryKey, CleanAt identifierLen column
  | .dropTable tableName owner .. =>
    Wire.Clean identifierLen tableName ∧ Wire.Clean identifierLen owner
  | .createView viewName owner _ _ columns query =>
    Wire.Clean identifierLen viewName ∧ Wire.Clean identifierLen owner ∧
      (∀ column ∈ columns, CleanAt identifierLen column) ∧ Wire.Clean viewQueryLen query
  | .createProcedure procedureName owner _ parameters body =>
    Wire.Clean identifierLen procedureName ∧ Wire.Clean identifierLen owner ∧
      (∀ parameter ∈ parameters, parameter.Clean) ∧ Wire.Clean procedureBodyLen body

section Lists

variable {α β : Type} {nodes : List XmlNode} {obj : Json} {name entry : String}
  {xmlOf : α → XmlNode} {jsonOf : α → Json} {readXml : XmlNode → β} {readJson : Json → β}

theorem map_read_eq {entries : List α}
    (same : ∀ a ∈ entries, readXml (xmlOf a) = readJson (jsonOf a)) :
    (entries.map xmlOf).map readXml = (entries.map jsonOf).map readJson := by
  rw [List.map_map, List.map_map]
  exact List.map_congr_left same

/-- The entries below one element are those of one array. -/
theorem entries_eq {entries : List α} (named : ∀ a, (xmlOf a).isElement entry = true)
    (same : ∀ a ∈ entries, readXml (xmlOf a) = readJson (jsonOf a))
    (xml : elementsNamed name nodes = listXml name xmlOf entries)
    (json : obj.item name = some (.array (entries.map jsonOf))) :
    (elementsNamed entry (childrenNamed name nodes)).map readXml =
      (jsonItems obj name).map readJson := by
  have below : childrenNamed name nodes = entries.map xmlOf := by
    rw [childrenNamed, lastNamed, xml]
    rfl
  have items : jsonItems obj name = entries.map jsonOf := by
    rw [jsonItems, json]
    rfl
  rw [below, items, elementsNamed_map entries named]
  exact map_read_eq same

/-- So are the entries below all elements of the name, where the items are objects. -/
theorem objects_eq {entries : List α} (named : ∀ a, (xmlOf a).isElement entry = true)
    (objects : ∀ a, (jsonOf a).isObject = true)
    (same : ∀ a ∈ entries, readXml (xmlOf a) = readJson (jsonOf a))
    (xml : elementsNamed name nodes = listXml name xmlOf entries)
    (json : obj.item name = some (.array (entries.map jsonOf))) :
    (entriesXml name entry nodes).map readXml =
      ((jsonItems obj name).filter Json.isObject).map readJson := by
  have below : entriesXml name entry nodes = entries.map xmlOf := by
    rw [entriesXml, xml, listXml, List.flatMap_singleton]
    exact elementsNamed_map entries named
  have items : (jsonItems obj name).filter Json.isObject = entries.map jsonOf := by
    rw [jsonItems, json]
    apply List.filter_eq_self.mpr
    intro item member
    obtain ⟨a, -, rfl⟩ := List.mem_map.mp member
    exact objects a
  rw [below, items]
  exact map_read_eq same

end Lists

section Operations

variable (asNumber : Bool)

/-- The two builders agree on an operation that is taken for one of the type. -/
def SamePayload (op : AbstractOperation) (type : OperationType) : Prop :=
  buildPayloadXml strncpy (operationNodes op) type =
    buildPayloadJson strncpy (renderOperationJson asNumber op) type

theorem select_same (sql asyncCallBackUrl : Option CString) (executeAsync : Option Bool) :
    SamePayload asNumber (.select sql executeAsync asyncCallBackUrl) .select := by
  simp only [SamePayload, buildPayloadXml, buildPayloadJson, Option.some.injEq,
    Payload.select.injEq,
    SelectRequest.mk.injEq, true_and]
  refine ⟨xmlText_eq_trim_jsonText sql ?_ ?_, xmlFlag_eq_jsonFlag asNumber executeAsync ?_ ?_,
    xmlText_eq_trim_jsonText asyncCallBackUrl ?_ ?_⟩
  all_goals simp [operationNodes, renderOperationJson, operationMembers, xmlContent_eq, flagXml]

theorem insert_same {tableName owner : Option CString} {rows : List (List AbstractField)}
    (clean : (AbstractOperation.insert tableName owner rows).Clean) :
    SamePayload asNumber (.insert tableName owner rows) .insert := by
  obtain ⟨table, schema, fields⟩ := clean
  have xml : elementsNamed "row" (operationNodes (.insert tableName owner rows)) =
      rows.map fun row => groupXml "row" (row.map renderFieldXml) := by
    simp [operationNodes, tableXml]
  have json : jsonItems (renderOperationJson asNumber (.insert tableName owner rows)) "rows" =
      rows.map fun row => .object (listJson "fields" renderFieldJson row) := by
    simp [jsonItems, renderOperationJson, operationMembers, tableJson, Json.items]
  simp only [SamePayload, buildPayloadXml, buildPayloadJson, Option.some.injEq,
    Payload.insert.injEq,
    InsertRequest.mk.injEq, xml, json]
  refine ⟨xmlText_eq_jsonText table ?_ ?_, xmlText_eq_jsonText schema ?_ ?_, ?_⟩
  case refine_5 =>
    apply map_read_eq
    intro row member
    have below : elementsNamed "field" (groupXml "row" (row.map renderFieldXml)).children =
        row.map renderFieldXml := elementsNamed_map row fun _ => rfl
    have items : jsonItems (.object (listJson "fields" renderFieldJson row)) "fields" =
        row.map renderFieldJson := by
      simp [jsonItems, Json.items]
    rw [below, items]
    exact map_read_eq fun field inside => fieldXml_eq_fieldJson (fields row member field inside)
  all_goals simp [operationNodes, renderOperationJson, operationMembers, xmlContent_eq, tableXml,
    tableJson]

theorem update_same {tableName owner : Option CString} {keys : List AbstractKey}
    {fields : List AbstractField}
    (clean : (AbstractOperation.update tableName owner keys fields).Clean) :
    SamePayload asNumber (.update tableName owner keys fields) .update := by
  obtain ⟨table, schema, cleanKeys, cleanFields⟩ := clean
  simp only [SamePayload, buildPayloadXml, buildPayloadJson, Option.some.injEq,
    Payload.update.injEq,
    UpdateRequest.mk.injEq]
  refine ⟨xmlText_eq_jsonText table ?_ ?_, xmlText_eq_jsonText schema ?_ ?_,
    entries_eq (fun _ => rfl) (fun key member => keyXml_eq_keyJson (cleanKeys key member)) ?_ ?_,
    entries_eq (fun _ => rfl)
      (fun field member => fieldXml_eq_fieldJson (cleanFields field member)) ?_ ?_⟩
  all_goals simp [operationNodes, renderOperationJson, operationMembers, xmlContent_eq, tableXml,
    tableJson]

theorem delete_same {tableName owner : Option CString} {keys : List AbstractKey}
    (clean : (AbstractOperation.delete tableName owner keys).Clean) :
    SamePayload asNumber (.delete tableName owner keys) .delete := by
  obtain ⟨table, schema, cleanKeys⟩ := clean
  simp only [SamePayload, buildPayloadXml, buildPayloadJson, Option.some.injEq,
    Payload.delete.injEq,
    DeleteRequest.mk.injEq]
  refine ⟨xmlText_eq_jsonText table ?_ ?_, xmlText_eq_jsonText schema ?_ ?_,
    entries_eq (fun _ => rfl) (fun key member => keyXml_eq_keyJson (cleanKeys key member)) ?_ ?_⟩
  all_goals simp [operationNodes, renderOperationJson, operationMembers, xmlContent_eq, tableXml,
    tableJson]

theorem executeProcedure_same {procedureName owner : Option CString}
    {parameters : List AbstractParameter}
    (clean : (AbstractOperation.executeProcedure procedureName owner parameters).Clean) :
    SamePayload asNumber (.executeProcedure procedureName owner parameters) .executeProcedure := by
  obtain ⟨procedure, schema, cleanParameters⟩ := clean
  simp only [SamePayload, buildPayloadXml, buildPayloadJson, Option.some.injEq,
    Payload.executeProcedure.injEq,
    ExecuteProcedureRequest.mk.injEq]
  refine ⟨xmlText_eq_jsonText procedure ?_ ?_, xmlText_eq_jsonText schema ?_ ?_,
    entries_eq (fun _ => rfl) (fun parameter member =>
      parameterXml_eq_parameterJson (cleanParameters parameter member)) ?_ ?_⟩
  all_goals simp [operationNodes, renderOperationJson, operationMembers, xmlContent_eq]

theorem authenticate_same {username credential : Option CString}
    (clean : (AbstractOperation.authenticate username credential).Clean) :
    SamePayload asNumber (.authenticate username credential) .authenticate := by
  simp only [SamePayload, buildPayloadXml, buildPayloadJson, Option.some.injEq,
    Payload.authenticate.injEq,
    AuthenticateRequest.mk.injEq]
  refine ⟨xmlText_eq_jsonText clean.1 ?_ ?_, xmlText_eq_jsonText clean.2 ?_ ?_⟩
  all_goals simp [operationNodes, renderOperationJson, operationMembers, xmlContent_eq]

theorem checkPermission_same {permissionCode : Option CString}
    (clean : (AbstractOperation.checkPermission permissionCode).Clean) :
    SamePayload asNumber (.checkPermission permissionCode) .checkPermission := by
  simp only [SamePayload, buildPayloadXml, buildPayloadJson, Option.some.injEq,
    Payload.checkPermission.injEq,
    CheckPermissionRequest.mk.injEq]
  apply xmlText_eq_jsonText clean
  all_goals simp [operationNodes, renderOperationJson, operationMembers, xmlContent_eq]

theorem createUser_same {username identifiedBy defaultTablespace tempTablespace quota
      quotaTablespace profile : Option CString} {roles : List CString}
    (clean : (AbstractOperation.createUser username identifiedBy defaultTablespace tempTablespace
      quota quotaTablespace profile roles).Clean) :
    SamePayload asNumber (.createUser username identifiedBy defaultTablespace tempTablespace quota
        quotaTablespace profile roles) .createUser := by
  obtain ⟨user, password, tablespace, temp, cleanQuota, quotaName, cleanProfile, cleanRoles⟩ := clean
  generalize written : AbstractOperation.createUser username identifiedBy defaultTablespace
    tempTablespace quota quotaTablespace profile roles = op
  have amount : xmlText strncpy quotaLen (operationNodes op) "quota" =
      jsonText strncpy quotaLen (renderOperationJson asNumber op) "quota" := by
    subst written
    apply xmlText_eq_jsonText cleanQuota
    all_goals simp [operationNodes, renderOperationJson, operationMembers, xmlContent_eq]
  have place : xmlText strncpy identifierLen (operationNodes op) "quota_tablespace" =
      jsonText strncpy identifierLen (renderOperationJson asNumber op) "quota_tablespace" := by
    subst written
    apply xmlText_eq_jsonText quotaName
    all_goals simp [operationNodes, renderOperationJson, operationMembers, xmlContent_eq]
  have space : xmlText strncpy identifierLen (operationNodes op) "default_tablespace" =
      jsonText strncpy identifierLen (renderOperationJson asNumber op) "default_tablespace" := by
    subst written
    apply xmlText_eq_jsonText tablespace
    all_goals simp [operationNodes, renderOperationJson, operationMembers, xmlContent_eq]
  subst written
  simp only [SamePayload, buildPayloadXml, buildPayloadJson, Option.some.injEq,
    Payload.createUser.injEq,
    CreateUserRequest.mk.injEq, amount, place, space, true_and]
  refine ⟨xmlText_eq_jsonText user ?_ ?_, xmlText_eq_jsonText password ?_ ?_,
    xmlText_eq_jsonText temp ?_ ?_, xmlText_eq_jsonText cleanProfile ?_ ?_,
    xmlTexts_eq_jsonTexts (by decide) cleanRoles ?_ ?_⟩
  all_goals simp [operationNodes, renderOperationJson, operationMembers, xmlContent_eq, jsonItems,
    Json.items]

theorem grant_same {grantee objectType objectName owner : Option CString}
    {privileges : List CString} {withGrantOption : Option Bool}
    (clean : (AbstractOperation.grant grantee objectType objectName owner privileges
      withGrantOption).Clean) :
    SamePayload asNumber (.grant grantee objectType objectName owner privileges withGrantOption)
        .grant := by
  obtain ⟨user, kind, object, schema, cleanPrivileges⟩ := clean
  simp only [SamePayload, buildPayloadXml, buildPayloadJson, Option.some.injEq,
    Payload.grant.injEq,
    GrantRequest.mk.injEq]
  refine ⟨xmlText_eq_jsonText user ?_ ?_, xmlText_eq_jsonText kind ?_ ?_,
    xmlText_eq_jsonText object ?_ ?_, xmlText_eq_jsonText schema ?_ ?_,
    xmlTexts_eq_jsonTexts (by decide) cleanPrivileges ?_ ?_,
    xmlFlag_eq_jsonFlag asNumber withGrantOption ?_ ?_⟩
  all_goals simp [operationNodes, renderOperationJson, operationMembers, xmlContent_eq, jsonItems,
    Json.items, flagXml]

theorem createTable_same {tableName owner : Option CString} {columns : List AbstractColumn}
    {primaryKey : List CString}
    (clean : (AbstractOperation.createTable tableName owner columns primaryKey).Clean) :
    SamePayload asNumber (.createTable tableName owner columns primaryKey) .createTable := by
  obtain ⟨table, schema, cleanColumns, cleanKey⟩ := clean
  simp only [SamePayload, buildPayloadXml, buildPayloadJson, Option.some.injEq,
    Payload.createTable.injEq,
    CreateTableRequest.mk.injEq]
  refine ⟨xmlText_eq_jsonText table ?_ ?_, xmlText_eq_jsonText schema ?_ ?_,
    congrArg (namedEntries ColumnDef.name ddlMaxTableColumns) (objects_eq (fun _ => rfl)
      (fun _ => rfl) (fun column member =>
        columnXml_eq_columnJson asNumber (cleanColumns column member)) ?_ ?_),
    xmlTexts_eq_jsonTexts (by decide) cleanKey ?_ ?_⟩
  all_goals simp [operationNodes, renderOperationJson, operationMembers, xmlContent_eq, tableXml,
    tableJson, jsonItems, Json.items]

theorem dropTable_same {tableName owner : Option CString}
    {cascadeConstraints purge confirm : Option Bool}
    (clean : (AbstractOperation.dropTable tableName owner cascadeConstraints purge
      confirm).Clean) :
    SamePayload asNumber (.dropTable tableName owner cascadeConstraints purge confirm) .dropTable :=
        by
  simp only [SamePayload, buildPayloadXml, buildPayloadJson, Option.some.injEq,
    Payload.dropTable.injEq,
    DropTableRequest.mk.injEq]
  refine ⟨xmlText_eq_jsonText clean.1 ?_ ?_, xmlText_eq_jsonText clean.2 ?_ ?_,
    xmlFlag_eq_jsonFlag asNumber cascadeConstraints ?_ ?_,
    xmlFlag_eq_jsonFlag asNumber purge ?_ ?_, xmlFlag_eq_jsonFlag asNumber confirm ?_ ?_⟩
  all_goals simp [operationNodes, renderOperationJson, operationMembers, xmlContent_eq, tableXml,
    tableJson, flagXml]

theorem createView_same {viewName owner query : Option CString} {replace force : Option Bool}
    {columns : List CString}
    (clean : (AbstractOperation.createView viewName owner replace force columns query).Clean) :
    SamePayload asNumber (.createView viewName owner replace force columns query) .createView := by
  obtain ⟨view, schema, cleanColumns, cleanQuery⟩ := clean
  simp only [SamePayload, buildPayloadXml, buildPayloadJson, Option.some.injEq,
    Payload.createView.injEq,
    CreateViewRequest.mk.injEq]
  refine ⟨xmlText_eq_jsonText view ?_ ?_, xmlText_eq_jsonText schema ?_ ?_,
    xmlFlag_eq_jsonFlag asNumber replace ?_ ?_, xmlFlag_eq_jsonFlag asNumber force ?_ ?_,
    xmlTexts_eq_jsonTexts (by decide) cleanColumns ?_ ?_, xmlText_eq_jsonText cleanQuery ?_ ?_⟩
  all_goals simp [operationNodes, renderOperationJson, operationMembers, xmlContent_eq, jsonItems,
    Json.items, flagXml]

theorem createProcedure_same {procedureName owner body : Option CString} {replace : Option Bool}
    {parameters : List AbstractDdlParameter}
    (clean : (AbstractOperation.createProcedure procedureName owner replace parameters
      body).Clean) :
    SamePayload asNumber (.createProcedure procedureName owner replace parameters body)
        .createProcedure := by
  obtain ⟨procedure, schema, cleanParameters, cleanBody⟩ := clean
  simp only [SamePayload, buildPayloadXml, buildPayloadJson, Option.some.injEq,
    Payload.createProcedure.injEq,
    CreateProcedureRequest.mk.injEq]
  refine ⟨xmlText_eq_jsonText procedure ?_ ?_, xmlText_eq_jsonText schema ?_ ?_,
    xmlFlag_eq_jsonFlag asNumber replace ?_ ?_,
    congrArg (namedEntries DdlProcedureParam.name maxProcedureParameters) (objects_eq
      (fun _ => rfl) (fun _ => rfl) (fun parameter member =>
        ddlParameterXml_eq_ddlParameterJson (cleanParameters parameter member)) ?_ ?_),
    xmlText_eq_jsonText cleanBody ?_ ?_⟩
  all_goals simp [operationNodes, renderOperationJson, operationMembers, xmlContent_eq, jsonItems,
    Json.items, flagXml]

theorem bare_same (type : CString) (kind : OperationType) :
    SamePayload asNumber (.bare type) kind := by
  cases kind <;> rfl

theorem operation_same {op : AbstractOperation} (clean : op.Clean) :
    operationXml strncpy (renderOperationXml op) =
      operationJson strncpy (renderOperationJson asNumber op) := by
  have xmlType : (renderOperationXml op).prop "type" = some op.type := rfl
  have jsonType : ((renderOperationJson asNumber op).item "type").bind Json.text? =
      some op.type := rfl
  have payload : SamePayload asNumber op (mapOperationType op.type) := by
    cases op with
    | select sql executeAsync asyncCallBackUrl => exact select_same asNumber _ _ _
    | insert tableName owner rows => exact insert_same asNumber clean
    | update tableName owner keys fields => exact update_same asNumber clean
    | delete tableName owner keys => exact delete_same asNumber clean
    | executeProcedure procedureName owner parameters =>
      exact executeProcedure_same asNumber clean
    | authenticate username credential => exact authenticate_same asNumber clean
    | checkPermission permissionCode => exact checkPermission_same asNumber clean
    | createUser => exact createUser_same asNumber clean
    | grant => exact grant_same asNumber clean
    | createTable => exact createTable_same asNumber clean
    | dropTable => exact dropTable_same asNumber clean
    | createView => exact createView_same asNumber clean
    | createProcedure => exact createProcedure_same asNumber clean
    | bare type => exact bare_same asNumber type _
  simp only [operationXml, operationJson, xmlType, jsonType, Option.map_some, Option.getD_some]
  exact congrArg (InputOperation.mk _) payload

end Operations

/-- What either parser makes of a rendered request, given what it makes of an operation. -/
def parsedRequest (format : InputFormat) (operation : AbstractOperation → InputOperation)
    (request : AbstractRequest) : Except OperationStatus InputRequest :=
  if request.transaction.any fun transaction => transaction.operations.isEmpty then
    .error noOperation
  else
    match request.externalAuditId.filter (· ≠ []), request.sessionId with
    | none, _ => .error noAuditId
    | _, none => .error noSessionId
    | some auditId, some sessionId =>
      .ok {
        version := "1.0".toList
        externalAuditId := strncpy externalAuditIdLen auditId
        sessionId := strncpy sessionIdLen sessionId
        sourceFormat := format
        transactionRequired := request.transaction.any (·.required)
        transactionName :=
          match request.transaction.bind (·.name) with
          | some (c :: name) => strncpy transactionNameLen (c :: name)
          | _ => noNameSpecified
        operations := ((request.transaction.map (·.operations)).getD []).map operation }

@[simp] theorem elementsNamed_transactions {name : String}
    (transactions : List AbstractTransaction) :
    elementsNamed name (transactions.map renderTransactionXml) =
      if "transaction" = name then transactions.map renderTransactionXml else [] := by
  by_cases same : "transaction" = name
  · rw [if_pos same]
    exact elementsNamed_map transactions fun _ => beq_iff_eq.mpr same
  · simp [elementsNamed, renderTransactionXml, XmlNode.isElement, same]

theorem parseXml_render (request : AbstractRequest) :
    parseXml strncpy (some (renderXml request)) =
      parsedRequest .xml (fun op => operationXml strncpy (renderOperationXml op)) request := by
  obtain ⟨auditId, sessionId, transaction⟩ := request
  generalize rendered : (renderXml ⟨auditId, sessionId, transaction⟩).children = nodes
  have listed : nodes = textXml "external_audit_id" auditId ++ textXml "session_id" sessionId ++
      transaction.toList.map renderTransactionXml := rendered.symm
  have transactions : elementsNamed "transaction" nodes =
      transaction.toList.map renderTransactionXml := by
    simp [listed]
  have audits : ((elementsNamed "external_audit_id" nodes).map (·.content)).filter (· ≠ []) =
      (auditId.filter (· ≠ [])).toList := by
    have named : elementsNamed "external_audit_id" nodes = textXml "external_audit_id" auditId := by
      simp [listed]
    rw [named, map_content_textXml, Option.toList_filter]
  have session : xmlContent nodes "session_id" = sessionId := by
    simp [listed, xmlContent_eq]
  have operations (transaction : AbstractTransaction) :
      elementsNamed "operation" (renderTransactionXml transaction).children =
        transaction.operations.map renderOperationXml :=
    elementsNamed_map transaction.operations fun _ => rfl
  have isRequest : (renderXml ⟨auditId, sessionId, transaction⟩).isElement "request" = true := rfl
  simp only [parseXml, isRequest, if_true, rendered, requestXml, parsedRequest, transactions, audits,
    session]
  have last : (auditId.filter (· ≠ [])).toList.getLast? = auditId.filter (· ≠ []) := by
    cases auditId.filter (· ≠ []) <;> rfl
  rw [last]
  cases transaction with
  | none => rfl
  | some transaction =>
    have required : ((renderTransactionXml transaction).prop "required" == some ['1']) =
        transaction.required := by
      cases written : transaction.required <;> simp [renderTransactionXml, XmlNode.prop, written]
    have name : (renderTransactionXml transaction).prop "name" = transaction.name := by
      cases written : transaction.name <;> simp [renderTransactionXml, XmlNode.prop, written]
    simp only [Option.toList_some, List.map_cons, List.map_nil, List.any_cons, List.any_nil,
      Bool.or_false, operations, List.isEmpty_map, Option.any_some, List.getLast?_singleton,
      Option.bind_some, required, name, Option.map_some, Option.getD_some, List.map_map]
    rfl

theorem parseJson_render (asNumber : Bool) (request : AbstractRequest) :
    parseJson strncpy (some (renderJson asNumber request)) =
      parsedRequest .json (fun op => operationJson strncpy (renderOperationJson asNumber op))
        request := by
  obtain ⟨auditId, sessionId, transaction⟩ := request
  generalize rendered : renderJson asNumber ⟨auditId, sessionId, transaction⟩ = root
  have members : root = .object (textJson "external_audit_id" auditId ++
      textJson "session_id" sessionId ++ transaction.toList.map fun transaction =>
        ("transaction", renderTransactionJson asNumber transaction)) := rendered.symm
  have audits : (root.item "external_audit_id").bind Json.text? = auditId := by
    simp [members]
  have session : (root.item "session_id").bind Json.text? = sessionId := by
    simp [members]
  have transactions : transactionJson root =
      transaction.map (renderTransactionJson asNumber) := by
    cases transaction with
    | none => simp [transactionJson, members]
    | some transaction =>
      simp [transactionJson, members, renderTransactionJson, Json.isObject, Option.filter]
  simp only [parseJson, requestJson, parsedRequest, audits, session, transactions]
  cases transaction with
  | none => rfl
  | some transaction =>
    have required : jsonInt (renderTransactionJson asNumber transaction) "required" =
        if transaction.required then 1 else 0 := by
      simp [jsonInt, renderTransactionJson]
    have name : ((renderTransactionJson asNumber transaction).item "name").bind Json.text? =
        transaction.name := by
      simp [renderTransactionJson]
    have operations : jsonItems (renderTransactionJson asNumber transaction) "operations" =
        transaction.operations.map (renderOperationJson asNumber) := by
      simp [jsonItems, renderTransactionJson, Json.items]
    have isRequired : (some (if transaction.required then (1 : Int) else 0) == some 1) =
        transaction.required := by
      cases transaction.required <;> rfl
    simp only [Option.map_some, Option.any_some, operations, List.isEmpty_map, Option.bind_some,
      required, name, isRequired, Option.getD_some, List.map_map]
    rfl

/-- A request without the format it came in. -/
def InputRequest.withoutFormat (request : InputRequest) : InputRequest :=
  { request with sourceFormat := .unknown }

def AbstractRequest.Clean (request : AbstractRequest) : Prop :=
  ∀ transaction ∈ request.transaction, ∀ op ∈ transaction.operations, op.Clean

theorem parsedRequest_same {xml json : AbstractOperation → InputOperation}
    {request : AbstractRequest}
    (same : ∀ transaction ∈ request.transaction, ∀ op ∈ transaction.operations, xml op = json op) :
    (parsedRequest .xml xml request).map InputRequest.withoutFormat =
      (parsedRequest .json json request).map InputRequest.withoutFormat := by
  have operations : ((request.transaction.map (·.operations)).getD []).map xml =
      ((request.transaction.map (·.operations)).getD []).map json := by
    cases sent : request.transaction with
    | none => rfl
    | some transaction => exact List.map_congr_left (same transaction sent)
  rw [parsedRequest, parsedRequest, operations]
  split
  · rfl
  · split <;> rfl

/-- Libraries that return the trees of one request. -/
def readersOf (request : AbstractRequest) : Readers where
  xmlReadMemory := fun _ => some (renderXml request)
  cjsonParse := fun _ => some (renderJson true request)

def oneOperation (op : AbstractOperation) : AbstractRequest :=
  ⟨some "audit-1".toList, some ['-'], some ⟨true, some "orders".toList, [op]⟩⟩

def shippedOrder : AbstractOperation :=
  .update (some "ORDERS".toList) none
    [⟨some "ID".toList, some "17".toList, none⟩]
    [⟨some "SHIPPED".toList, some "25/12/2026".toList, some "DD/MM/YYYY".toList⟩]

/-- A name whose field ends behind a blank inside it. -/
def longName : CString := List.replicate 126 'A' ++ [' ', 'B']

end OciWrapper.Wire
