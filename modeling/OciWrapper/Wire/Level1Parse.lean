import OciWrapper.Dml.Level2Validate
import OciWrapper.Wire.BuildPayload

namespace OciWrapper.Wire

open OciWrapper.Text OciWrapper.Core OciWrapper.Dml

def level1Error (code : Int) (errCode why : String) : OperationStatus :=
  setError code errCode ("Request aborted. Level 1 parse failed - " ++ why).toList

def malformed (why : String) : OperationStatus := level1Error (-3) "LEVEL1_MALFORMED" why

def missingField (why : String) : OperationStatus := level1Error (-4) "LEVEL1_MISSING_FIELD" why

def noOperation : OperationStatus := missingField "at least one operation is required."

def noAuditId : OperationStatus := missingField "external_audit_id is mandatory."

def noSessionId : OperationStatus :=
  missingField "session_id is mandatory (use \"-\" if none, e.g. for CREATE_SESSION)."

def noNameSpecified : CString := "No Name Specified".toList

/-- `xmlReadMemory`, to the root of the document, and `cJSON_ParseWithLength`. -/
structure Readers where
  xmlReadMemory : CString → Option XmlNode
  cjsonParse : CString → Option Json

variable (copy : Nat → CString → CString)

def operationXml (node : XmlNode) : InputOperation :=
  let type := ((node.prop "type").map mapOperationType).getD .unknown
  ⟨type, buildPayloadXml copy node.children type⟩

/-- What `parse_xml` makes of a document with a `<request>` root. -/
def requestXml (nodes : List XmlNode) : Except OperationStatus InputRequest :=
  let transactions := elementsNamed "transaction" nodes
  if transactions.any fun node => (elementsNamed "operation" node.children).isEmpty then
    .error noOperation
  else
    let auditIds :=
      ((elementsNamed "external_audit_id" nodes).map (·.content)).filter (· ≠ [])
    match auditIds.getLast?, xmlContent nodes "session_id" with
    | none, _ => .error noAuditId
    | _, none => .error noSessionId
    | some auditId, some sessionId =>
      let transaction := transactions.getLast?
      .ok {
        version := "1.0".toList
        externalAuditId := copy externalAuditIdLen auditId
        sessionId := copy sessionIdLen sessionId
        sourceFormat := .xml
        transactionRequired := transaction.bind (·.prop "required") == some ['1']
        transactionName :=
          match transaction.bind (·.prop "name") with
          | some (c :: name) => copy transactionNameLen (c :: name)
          | _ => noNameSpecified
        operations := (elementsNamed "operation"
          ((transaction.map (·.children)).getD [])).map (operationXml copy) }

def parseXml (root : Option XmlNode) : Except OperationStatus InputRequest :=
  match root with
  | none => .error (malformed "XML not well-formed.")
  | some root =>
    if root.isElement "request" then requestXml copy root.children
    else .error (malformed "missing <request> root.")

def operationJson (obj : Json) : InputOperation :=
  let type := (((obj.item "type").bind Json.text?).map mapOperationType).getD .unknown
  ⟨type, buildPayloadJson copy obj type⟩

/-- The transaction of a JSON request; anything but an object is none. -/
def transactionJson (root : Json) : Option Json := (root.item "transaction").filter Json.isObject

def requestJson (root : Json) : Except OperationStatus InputRequest :=
  let transaction := transactionJson root
  if transaction.any fun obj => (jsonItems obj "operations").isEmpty then .error noOperation
  else
    match ((root.item "external_audit_id").bind Json.text?).filter (· ≠ []),
      (root.item "session_id").bind Json.text? with
    | none, _ => .error noAuditId
    | _, none => .error noSessionId
    | some auditId, some sessionId =>
      .ok {
        version := "1.0".toList
        externalAuditId := copy externalAuditIdLen auditId
        sessionId := copy sessionIdLen sessionId
        sourceFormat := .json
        transactionRequired := (transaction.map fun obj => jsonInt obj "required") == some 1
        transactionName :=
          match (transaction.bind (·.item "name")).bind Json.text? with
          | some (c :: name) => copy transactionNameLen (c :: name)
          | _ => noNameSpecified
        operations :=
          ((transaction.map fun obj => jsonItems obj "operations").getD []).map
            (operationJson copy) }

def parseJson (root : Option Json) : Except OperationStatus InputRequest :=
  match root with
  | none => .error (malformed "JSON not well-formed.")
  | some root => requestJson copy root

/-- `level1_parse`, of a text that is not `NULL`. -/
def level1Parse (readers : Readers) (buf : CString) : Except OperationStatus InputRequest :=
  if buf = [] then .error (level1Error (-1) "LEVEL1_EMPTY_INPUT" "empty request body.")
  else
    match level1DetectFormat buf with
    | .xml => parseXml copy (readers.xmlReadMemory buf)
    | .json => parseJson copy (readers.cjsonParse buf)
    | .unknown => .error (level1Error (-2) "LEVEL1_UNKNOWN_FORMAT" "unrecognised document type.")

end OciWrapper.Wire
