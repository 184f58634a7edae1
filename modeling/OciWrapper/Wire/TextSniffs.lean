import OciWrapper.Wire.ReachedTexts

namespace OciWrapper.Wire

open OciWrapper.Text OciWrapper.Core OciWrapper.Dml

/-- What the string functions see of a payload. -/
def cText (payload : CString) : CString := payload.takeWhile (· ≠ '\x00')

/-- `contains_ci`; `strncasecmp` of `nlen` bytes at each place. -/
def containsCi (haystack needle : CString) : Bool :=
  if needle.length = 0 ∨ haystack.length < needle.length then false
  else (List.range (haystack.length - needle.length + 1)).any fun i =>
    strcasecmp ((haystack.drop i).take needle.length) needle

def httpRequestIsWrite (payload : CString) : Bool :=
  let payload := cText payload
  containsCi payload "\"INSERT\"".toList || containsCi payload "type=\"INSERT\"".toList ||
    (containsCi payload "\"UPDATE\"".toList || containsCi payload "type=\"UPDATE\"".toList) ||
    (containsCi payload "\"DELETE\"".toList || containsCi payload "type=\"DELETE\"".toList)

def asyncMarkers : List String :=
  ["<execute_async>1</execute_async>", "\"execute_async\":1", "\"execute_async\": 1",
    "\"execute_async\":true", "\"execute_async\": true"]

def httpRequestIsAsyncSelect (payload : CString) : Bool :=
  asyncMarkers.any fun marker => containsCi (cText payload) marker.toList

def writeMarkers : List String :=
  ["type=\"INSERT\"", "type=\"UPDATE\"", "type=\"DELETE\"",
    "\"type\": \"INSERT\"", "\"type\":\"INSERT\"",
    "\"type\": \"UPDATE\"", "\"type\":\"UPDATE\"",
    "\"type\": \"DELETE\"", "\"type\":\"DELETE\""]

def payloadRequiresSingleWriterQueue (payload : CString) : Bool :=
  writeMarkers.any fun marker => (strstr marker.toList (cText payload)).isSome

/-- `validate_async_select_request`, with the verdict of `level2_validate`. -/
def validateAsyncSelectRequest (readers : Readers) (level2Accepts : InputRequest → Bool)
    (payload : CString) : Bool :=
  if level1LooksLikeNewFormat payload then
    match level1Parse strncpy readers payload with
    | .ok request => level2Accepts request
    | .error _ => false
  else true

inductive HttpRoute where
  | sessionHandler
  | rejected
  | fireAndForget
  | worker (writerQueue : Bool)
  deriving DecidableEq

/-- The routing of `http_consumer_handle_request`. -/
def httpConsumerRoute (readers : Readers) (level2Accepts : InputRequest → Bool)
    (payload : CString) : HttpRoute :=
  if (strstr "<Session_Request".toList (cText payload)).isSome then .sessionHandler
  else if httpRequestIsAsyncSelect payload then
    if validateAsyncSelectRequest readers level2Accepts payload then .fireAndForget else .rejected
  else .worker (httpRequestIsWrite payload)

def InputOperation.isWrite (op : InputOperation) : Prop :=
  op.type = .insert ∨ op.type = .update ∨ op.type = .delete

/-- A SELECT with `execute_async` = 1. -/
def InputOperation.isAsyncSelect (op : InputOperation) : Prop :=
  ∃ req, op.payload = some (.select req) ∧ req.executeAsync = true

/-- The text sniffs agree with the request that level 1 makes of the payload. -/
structure SniffsAgree (readers : Readers) (level2Accepts : InputRequest → Bool)
    (payload : CString) (request : InputRequest) : Prop where
  httpWrite : (∃ op ∈ request.operations, op.isWrite) → httpRequestIsWrite payload = true
  fileWrite : (∃ op ∈ request.operations, op.isWrite) →
    payloadRequiresSingleWriterQueue payload = true
  async : httpConsumerRoute readers level2Accepts payload = .fireAndForget →
    ∃ op ∈ request.operations, op.isAsyncSelect
  session : httpConsumerRoute readers level2Accepts payload = .sessionHandler →
    level1DetectFormat payload = .xml ∧
      ∃ root, readers.xmlReadMemory payload = some root ∧ root.isElement "Session_Request" = true

/-- The type that the document gives for the operation. -/
def WireOperation.typeText : WireOperation → Option CString
  | .xml node => node.prop "type"
  | .json obj => (obj.item "type").bind Json.text?

/-- The document spells the type so, in any case. -/
def WireOperation.Typed (wire : WireOperation) (word : String) : Prop :=
  ∃ text ∈ wire.typeText, strcasecmp text word.toList = true

def writeWords : List String := ["INSERT", "UPDATE", "DELETE"]

/-- The last `execute_async` of the operation is not 0. -/
def WireOperation.executeAsync : WireOperation → Bool
  | .xml node => xmlFlag false node.children "execute_async"
  | .json obj => jsonFlag false obj "execute_async"

/-- The text stands somewhere, in any case. -/
def Mentions (text marker : CString) : Prop :=
  ∃ found, found <:+: text ∧ strcasecmp found marker = true

/-- The document is spelled as the sniffs expect, and no text of it looks like their markers. -/
structure SpelledAsSniffed (readers : Readers) (level2Accepts : InputRequest → Bool)
    (payload : CString) : Prop where
  writes : (∃ wire ∈ wireOperations readers payload, ∃ word ∈ writeWords, wire.Typed word) →
    (∃ word ∈ writeWords, Mentions (cText payload) ('"' :: word.toList ++ ['"'])) ∧
      ∃ marker ∈ writeMarkers, marker.toList <:+: cText payload
  async : (∃ marker ∈ asyncMarkers, Mentions (cText payload) marker.toList) →
    validateAsyncSelectRequest readers level2Accepts payload = true →
      ∃ wire ∈ wireOperations readers payload, wire.Typed "SELECT" ∧ wire.executeAsync = true
  session : ¬"<Session_Request".toList <:+: cText payload

theorem containsCi_iff {text marker : CString} (some_marker : marker ≠ []) :
    containsCi text marker = true ↔ Mentions text marker := by
  have long := List.length_pos_iff.mpr some_marker
  rw [containsCi]
  constructor
  · intro contained
    split at contained
    · cases contained
    · obtain ⟨i, -, same⟩ := List.any_eq_true.mp contained
      exact ⟨_, (List.take_prefix _ _).isInfix.trans (List.drop_suffix _ _).isInfix, same⟩
  · rintro ⟨found, ⟨before, after, rfl⟩, same⟩
    have length := strcasecmp_length same
    have sizes : (before ++ found ++ after).length = before.length + marker.length + after.length := by
      simp only [List.length_append, length]
    rw [if_neg (by omega), List.any_eq_true]
    refine ⟨before.length, List.mem_range.mpr (by omega), ?_⟩
    rw [List.append_assoc, List.drop_left, ← length, List.take_left]
    exact same

theorem Mentions.of_infix {text marker part : CString} (inside : part <:+: marker)
    (mentions : Mentions text marker) : Mentions text part := by
  obtain ⟨before, after, rfl⟩ := inside
  obtain ⟨found, within, same⟩ := mentions
  have cases := of_decide_eq_true same
  rw [List.map_append, List.map_append, List.map_eq_append_iff] at cases
  obtain ⟨front, back, rfl, split, -⟩ := cases
  obtain ⟨first, middle, rfl, -, here⟩ := List.map_eq_append_iff.mp split
  exact ⟨middle, .trans ⟨first, back, rfl⟩ within, decide_eq_true here⟩

theorem containsCi_either {text marker part : CString} (some_part : part ≠ [])
    (inside : part <:+: marker) :
    (containsCi text part || containsCi text marker) = true ↔ Mentions text part := by
  have filled : marker ≠ [] := fun empty => some_part (List.infix_nil.mp (empty ▸ inside))
  rw [Bool.or_eq_true, containsCi_iff filled, containsCi_iff some_part]
  exact ⟨fun either => either.elim id (Mentions.of_infix inside), Or.inl⟩

theorem httpRequestIsWrite_iff (payload : CString) :
    httpRequestIsWrite payload = true ↔
      ∃ word ∈ writeWords, Mentions (cText payload) ('"' :: word.toList ++ ['"']) := by
  simp only [httpRequestIsWrite, writeWords, List.mem_cons, List.not_mem_nil, or_false,
    exists_eq_or_imp, exists_eq_left, Bool.or_assoc]
  rw [← Bool.or_assoc, Bool.or_eq_true,
    containsCi_either (by decide) ⟨"type=".toList, [], by decide⟩,
    ← Bool.or_assoc, Bool.or_eq_true,
    containsCi_either (by decide) ⟨"type=".toList, [], by decide⟩,
    containsCi_either (by decide) ⟨"type=".toList, [], by decide⟩]
  rfl

theorem operationTypes_distinct : ∀ entry ∈ operationTypes, ∀ other ∈ operationTypes,
    entry.2 = other.2 → entry.1 = other.1 := by
  decide

theorem mapOperationType_word : ∀ entry ∈ operationTypes,
    mapOperationType entry.1.toList = entry.2 := by
  decide +kernel

theorem mapOperationType_congr {s word : CString} (same : strcasecmp s word = true) :
    mapOperationType s = mapOperationType word := by
  have lower : s.map Char.toLower = word.map Char.toLower := of_decide_eq_true same
  simp only [mapOperationType, strcasecmp, lower]

theorem mapOperationType_eq_iff {word : String} {type : OperationType}
    (entry : (word, type) ∈ operationTypes) (s : CString) :
    mapOperationType s = type ↔ strcasecmp s word.toList = true := by
  constructor
  · intro mapped
    rw [mapOperationType] at mapped
    cases found : operationTypes.find? fun entry => strcasecmp s entry.1.toList with
    | none =>
      rw [found] at mapped
      have unknown : ∀ entry ∈ operationTypes, entry.2 ≠ .unknown := by decide
      exact (unknown _ entry mapped.symm).elim
    | some other =>
      rw [found] at mapped
      have same := operationTypes_distinct _ (List.mem_of_find?_eq_some found) _ entry mapped
      have matching := List.find?_some found
      rwa [same] at matching
  · intro same
    rw [mapOperationType_congr same, mapOperationType_word _ entry]

theorem parsed_type_iff {copy : Nat → CString → CString} {wire : WireOperation} {word : String}
    {type : OperationType} (entry : (word, type) ∈ operationTypes) :
    (wire.parsed copy).type = type ↔ wire.Typed word := by
  have known : type ≠ .unknown := by
    have all : ∀ entry ∈ operationTypes, entry.2 ≠ .unknown := by decide
    exact all _ entry
  have mapped : (wire.parsed copy).type = (wire.typeText.map mapOperationType).getD .unknown := by
    cases wire <;> rfl
  rw [mapped, WireOperation.Typed]
  cases wire.typeText with
  | none => simp [known.symm]
  | some text => simp [mapOperationType_eq_iff entry]

theorem parsed_isWrite_iff {copy : Nat → CString → CString} {wire : WireOperation} :
    (wire.parsed copy).isWrite ↔ ∃ word ∈ writeWords, wire.Typed word := by
  simp only [writeWords, List.mem_cons, List.not_mem_nil, or_false, exists_eq_or_imp,
    exists_eq_left, InputOperation.isWrite]
  rw [parsed_type_iff (show ("INSERT", .insert) ∈ operationTypes by decide),
    parsed_type_iff (show ("UPDATE", .update) ∈ operationTypes by decide),
    parsed_type_iff (show ("DELETE", .delete) ∈ operationTypes by decide)]

theorem parsed_isAsyncSelect_iff {copy : Nat → CString → CString} {wire : WireOperation} :
    (wire.parsed copy).isAsyncSelect ↔ wire.Typed "SELECT" ∧ wire.executeAsync = true := by
  have select : (wire.parsed copy).type = .select ↔ wire.Typed "SELECT" :=
    parsed_type_iff (show ("SELECT", .select) ∈ operationTypes by decide)
  rw [← select]
  cases wire with
  | xml node =>
    show (∃ req, buildPayloadXml copy node.children (operationXml copy node).type = _ ∧ _) ↔ _
    simp only [WireOperation.parsed, WireOperation.executeAsync]
    generalize (operationXml copy node).type = type
    cases type <;> simp [buildPayloadXml]
  | json obj =>
    show (∃ req, buildPayloadJson copy obj (operationJson copy obj).type = _ ∧ _) ↔ _
    simp only [WireOperation.parsed, WireOperation.executeAsync]
    generalize (operationJson copy obj).type = type
    cases type <;> simp [buildPayloadJson]

/-- A document that level 1 accepts has another root than `Session_Request`. -/
theorem root_of_parsed {copy : Nat → CString → CString} {readers : Readers} {payload : CString}
    {request : InputRequest} (parsed : level1Parse copy readers payload = .ok request)
    (isXml : level1DetectFormat payload = .xml) {root : XmlNode}
    (read : readers.xmlReadMemory payload = some root) : root.isElement "request" = true := by
  rw [level1Parse] at parsed
  split at parsed
  · cases parsed
  · simp only [isXml, parseXml, read] at parsed
    split at parsed
    · assumption
    · cases parsed

theorem XmlNode.isElement_unique {node : XmlNode} {name other : String}
    (named : node.isElement name = true) (again : node.isElement other = true) : name = other := by
  cases node with
  | text => cases named
  | element found =>
    rw [← beq_iff_eq.mp named, ← beq_iff_eq.mp again]

theorem httpConsumerRoute_session_iff {readers : Readers} {level2Accepts : InputRequest → Bool}
    {payload : CString} :
    httpConsumerRoute readers level2Accepts payload = .sessionHandler ↔
      "<Session_Request".toList <:+: cText payload := by
  rw [httpConsumerRoute, ← strstr_isSome_iff]
  split
  · rename_i marked
    exact ⟨fun _ => marked, fun _ => rfl⟩
  · rename_i absent
    refine ⟨fun route => ?_, fun marked => absurd marked absent⟩
    split at route
    · split at route <;> cases route
    · cases route

theorem httpConsumerRoute_async_iff {readers : Readers} {level2Accepts : InputRequest → Bool}
    {payload : CString} (noSession : ¬"<Session_Request".toList <:+: cText payload) :
    httpConsumerRoute readers level2Accepts payload = .fireAndForget ↔
      (∃ marker ∈ asyncMarkers, Mentions (cText payload) marker.toList) ∧
        validateAsyncSelectRequest readers level2Accepts payload = true := by
  have sniff : httpRequestIsAsyncSelect payload = true ↔
      ∃ marker ∈ asyncMarkers, Mentions (cText payload) marker.toList := by
    rw [httpRequestIsAsyncSelect, List.any_eq_true]
    have filled : ∀ marker ∈ asyncMarkers, marker.toList ≠ [] := by decide
    constructor
    · rintro ⟨marker, member, found⟩
      exact ⟨marker, member, (containsCi_iff (filled marker member)).mp found⟩
    · rintro ⟨marker, member, mentions⟩
      exact ⟨marker, member, (containsCi_iff (filled marker member)).mpr mentions⟩
  rw [httpConsumerRoute, if_neg (fun marked => noSession ((strstr_isSome_iff _ _).mp marked)),
    ← sniff]
  split
  · split <;> simp [*]
  · simp [*]

/-- One INSERT into T, its `type` attribute and its only value as given. -/
def insertText (typing value : String) : CString :=
  "<request><external_audit_id>a</external_audit_id><session_id>s</session_id>".toList ++
    "<transaction><operation ".toList ++ typing.toList ++
    "><table_name>T</table_name><row><field><field_name>C</field_name><value>".toList ++
    value.toList ++ "</value></field></row></operation></transaction></request>".toList

/-- The document of such a text. -/
def insertDocument (value : String) : XmlNode :=
  let leaf := fun name content => XmlNode.element name [] [.text (String.toList content)]
  .element "request" [] [leaf "external_audit_id" "a", leaf "session_id" "s",
    .element "transaction" [] [.element "operation" [("type", "INSERT".toList)]
      [leaf "table_name" "T",
        .element "row" [] [.element "field" [] [leaf "field_name" "C", leaf "value" value]]]]]

def insertReaders (typing value : String) : Readers where
  xmlReadMemory buf := if buf = insertText typing value then some (insertDocument value) else none
  cjsonParse _ := none

def insertRequest (value : String) : InputRequest where
  version := "1.0".toList
  externalAuditId := ['a']
  sessionId := ['s']
  sourceFormat := .xml
  transactionRequired := false
  transactionName := noNameSpecified
  operations := [⟨.insert, some (.insert ⟨['T'], [], [[⟨['C'], value.toList, none, []⟩]]⟩)⟩]

end OciWrapper.Wire
