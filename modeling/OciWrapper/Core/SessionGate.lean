import OciWrapper.Execute.QueryBatch
import OciWrapper.Text.Search

namespace OciWrapper.Core

open OciWrapper.Text OciWrapper.Infra OciWrapper.Execute

inductive InputFormat
  | unknown | xml | json
  deriving DecidableEq

def level1DetectFormat (buf : CString) : InputFormat :=
  match buf.dropWhile isSpace with
  | '<' :: _ => .xml
  | '{' :: _ => .json
  | '[' :: _ => .json
  | _ => .unknown

/-- The loop past XML declarations and comments; each round drops a character. -/
def skipProlog : Nat → CString → CString
  | 0, p => p
  | fuel + 1, p =>
    let p := p.dropWhile isSpace
    if "<?xml".toList.isPrefixOf p then
      match strstr "?>".toList p with
      | none => p
      | some declEnd => skipProlog fuel (declEnd.drop 2)
    else if "<!--".toList.isPrefixOf p then
      match strstr "-->".toList p with
      | none => p
      | some commentEnd => skipProlog fuel (commentEnd.drop 3)
    else p

def level1LooksLikeNewFormat (buf : CString) : Bool :=
  match level1DetectFormat buf with
  | .json => true
  | .xml => "<request".toList.isPrefixOf (skipProlog (buf.length + 1) buf)
  | .unknown => false

/-- `operation_type_t`. -/
inductive OperationType
  | unknown | getTemplate | select | insert | update | delete | executeProcedure | createSession
  | endSession | authenticate | checkPermission | createUser | grant | createTable | dropTable
  | createView | createProcedure
  deriving DecidableEq

/-- `input_c_request_t`, as far as the gate reads it. -/
structure Level1Request where
  externalAuditId : CString
  sessionId : CString
  isJson : Bool
  operations : List OperationType

inductive SessionResult
  | ok | invalidArg | notFound | expired | dbFailure
  deriving DecidableEq

/-- What one payload makes the process do, in order. -/
inductive ProcessStep (Op : Type)
  | validateSession (sessionId : CString) (result : SessionResult)
  | database (op : Op)
  deriving DecidableEq

structure ErrorEnvelope where
  auditId : CString
  operation : CString
  errorCode : CString
  errorText : CString
  isJson : Bool
  deriving DecidableEq

/-- The response of the dispatcher itself; a request that passes its gates is
    answered by the modules. -/
inductive GateResponse
  | error (envelope : ErrorEnvelope)
  | skipped (operation : CString)
  | dispatched
  deriving DecidableEq

structure ProcessResult (Op : Type) where
  steps : List (ProcessStep Op)
  /-- The request with its final session id, once Level 1 has parsed it. -/
  request : Option Level1Request
  response : GateResponse

/-- What surrounds `process_xml_file`: the configuration, the parser, the session
    cache, the modules behind the gate, and the SELECT of the legacy format. -/
structure Gateway (Op Rows : Type) where
  sessionValidationEnabled : Bool
  level1Parse : CString → Except ErrorEnvelope Level1Request
  sessionValidate : CString → SessionResult
  /-- `level2_validate` and the operations, for a request past the gate. -/
  operate : Level1Request → List Op
  countQuery : CString → Op
  /-- What `execute_query_batch` asks of the database after its count query. -/
  fetch : CString → List Op
  cache : Cache (ResultDoc Rows)
  now : Int
  outcome : QueryOutcome Rows

def dashText : CString := ['-']

/-- `sizeof(new_request.session_id) - 1`. -/
def sessionIdMax : Nat := 63

def overrideSession (request : Level1Request) (sessionIdOverride : CString) : Level1Request :=
  if sessionIdOverride = [] then request
  else { request with sessionId := sessionIdOverride.take sessionIdMax }

def isStandaloneAuthenticate (request : Level1Request) : Bool := request.operations = [.authenticate]

def sessionErrorText : CString :=
  ("The session_id on this request is missing, unknown, or expired - a valid session is " ++
    "required before this request can be processed.").toList

def sessionError (request : Level1Request) (result : SessionResult) : ErrorEnvelope where
  auditId := request.externalAuditId
  operation := "SESSION_VALIDATION".toList
  errorCode := (if result = .notFound then "SESSION_NOT_FOUND" else "SESSION_INVALID").toList
  errorText := sessionErrorText
  isJson := request.isJson

variable {Op Rows : Type}

/-- The pipeline of the new format. -/
def processNewFormat (g : Gateway Op Rows) (payload sessionIdOverride : CString) :
    ProcessResult Op :=
  match g.level1Parse payload with
  | .error envelope => ⟨[], none, .error envelope⟩
  | .ok parsed =>
    let request := overrideSession parsed sessionIdOverride
    let work := (g.operate request).map ProcessStep.database
    if g.sessionValidationEnabled && !isStandaloneAuthenticate request then
      let result := g.sessionValidate request.sessionId
      if result = .ok then
        ⟨.validateSession request.sessionId result :: work, some request, .dispatched⟩
      else
        ⟨[.validateSession request.sessionId result], some request,
          .error (sessionError request result)⟩
    else ⟨work, some request, .dispatched⟩

/-- `extract_tag`: the trimmed text of the first element of this name. -/
def extractTag (src : CString) (tag : String) (destMax : Nat) : Option CString :=
  (contents (['<'] ++ tag.toList ++ ['>']) (['<', '/'] ++ tag.toList ++ ['>']) src).map fun found =>
    ((((found.take (destMax - 1)).dropWhile isSpace).reverse).dropWhile isSpace).reverse

def upper (s : CString) : CString := s.map Char.toUpper

/-- `MAX_OPERATION_LEN` and `sizeof(sql_buf)`. -/
def maxOperationLen : Nat := 32
def sqlBufSize : Nat := 8192

/-- `execute_query_batch` gets past its cache lookup to the count query. -/
def queryReachesDatabase (g : Gateway Op Rows) (sql : CString) : Bool :=
  let cfg : ExecuteConfig := ⟨trimSqlInplace sql, false, false⟩
  (extractSqlDependencies cfg.sql).isSome && (cacheServe g.cache cfg g.now).2.isNone &&
    g.outcome.countFits

def dispatchSelect (g : Gateway Op Rows) (payload : CString) : ProcessResult Op :=
  match extractTag payload "sql" sqlBufSize with
  | none =>
    ⟨[], none, .error ⟨dashText, "SELECT".toList, "NO_SQL_ELEMENT".toList,
      "No <sql> element found in legacy-format request".toList, false⟩⟩
  | some sql =>
    if queryReachesDatabase g sql then
      ⟨.database (g.countQuery sql) :: (g.fetch sql).map .database, none, .dispatched⟩
    else ⟨[], none, .dispatched⟩

def legacyUnsupported (operation : String) : ErrorEnvelope where
  auditId := dashText
  operation := operation.toList
  errorCode := "LEGACY_FORMAT_UNSUPPORTED".toList
  errorText := ("Old flat-XML " ++ operation ++ " format is no longer supported - convert to the " ++
    "new <request version=\"1.0\"> format").toList
  isJson := false

def legacyOperations : List String := ["INSERT", "UPDATE", "DELETE", "EXECUTE_PROCEDURE"]

/-- The pipeline of the legacy format. -/
def processLegacy (g : Gateway Op Rows) (payload : CString) : ProcessResult Op :=
  match extractTag payload "operation" maxOperationLen with
  | none => ⟨[], none, .skipped dashText⟩
  | some tag =>
    let operation := upper tag
    if operation = "SELECT".toList then dispatchSelect g payload
    else
      match legacyOperations.find? (·.toList = operation) with
      | some name => ⟨[], none, .error (legacyUnsupported name)⟩
      | none => ⟨[], none, .skipped operation⟩

def processXmlFile (g : Gateway Op Rows) (payload sessionIdOverride : CString) : ProcessResult Op :=
  if payload = [] then
    ⟨[], none, .error ⟨dashText, dashText, "EMPTY_PAYLOAD".toList,
      "process_xml_file() received an empty payload".toList, false⟩⟩
  else if level1LooksLikeNewFormat payload then processNewFormat g payload sessionIdOverride
  else processLegacy g payload

/-- No database operation, unless the session of the final request was found
    valid before it or the request is a single AUTHENTICATE. -/
def Guarded (result : ProcessResult Op) : Prop :=
  ∀ before op after, result.steps = before ++ .database op :: after →
    ∃ request, result.request = some request ∧ (isStandaloneAuthenticate request = true ∨
      .validateSession request.sessionId .ok ∈ before)

theorem Guarded.idle {request : Option Level1Request} {response : GateResponse} :
    Guarded (⟨[], request, response⟩ : ProcessResult Op) := by
  intro before op after steps
  cases before <;> cases steps

/-- The gate of the new format holds for every payload. -/
theorem processNewFormat_guarded (g : Gateway Op Rows)
    (enabled : g.sessionValidationEnabled = true) (payload sessionIdOverride : CString) :
    Guarded (processNewFormat g payload sessionIdOverride) := by
  simp only [processNewFormat]
  split
  · exact .idle
  · rename_i parsed _
    generalize overrideSession parsed sessionIdOverride = request
    cases standalone : isStandaloneAuthenticate request with
    | true =>
      rw [if_neg (by simp)]
      exact fun before op after _ => ⟨request, rfl, .inl standalone⟩
    | false =>
      rw [if_pos (by simp [enabled])]
      split
      · rename_i valid
        intro before op after steps
        refine ⟨request, rfl, .inr ?_⟩
        cases before with
        | nil => cases steps
        | cons first rest =>
          rw [← (List.cons.inj steps).1, valid]
          exact List.mem_cons_self
      · intro before op after steps
        cases before with
        | nil => cases steps
        | cons first rest => cases rest <;> cases (List.cons.inj steps).2

/-- The SQL of a payload that the legacy pipeline takes for a SELECT. -/
def legacySelect (payload : CString) : Option CString :=
  match extractTag payload "operation" maxOperationLen with
  | none => none
  | some tag => if upper tag = "SELECT".toList then extractTag payload "sql" sqlBufSize else none

theorem processLegacy_guarded_iff (g : Gateway Op Rows) (payload : CString) :
    Guarded (processLegacy g payload) ↔
      ∀ sql, legacySelect payload = some sql → queryReachesDatabase g sql = false := by
  simp only [processLegacy, legacySelect]
  cases extractTag payload "operation" maxOperationLen with
  | none => simpa using Guarded.idle
  | some tag =>
    dsimp only
    by_cases select : upper tag = "SELECT".toList
    · rw [if_pos select, if_pos select, dispatchSelect]
      cases extractTag payload "sql" sqlBufSize with
      | none => simpa using Guarded.idle
      | some sql =>
        dsimp only
        cases reaches : queryReachesDatabase g sql with
        | true =>
          rw [if_pos rfl]
          constructor
          · intro guarded
            obtain ⟨request, none, -⟩ := guarded [] _ _ rfl
            cases none
          · intro unreached
            exact absurd reaches (by simp [unreached sql rfl])
        | false =>
          rw [if_neg (by simp)]
          exact iff_of_true .idle fun other same => Option.some.inj same ▸ reaches
    · rw [if_neg select, if_neg select]
      refine iff_of_true ?_ fun sql none => by cases none
      split <;> exact .idle

/-- With the gate on, a payload gets past it exactly if it reads as a legacy
    SELECT that makes it to the database. -/
theorem processXmlFile_guarded_iff (g : Gateway Op Rows)
    (enabled : g.sessionValidationEnabled = true) (payload sessionIdOverride : CString) :
    Guarded (processXmlFile g payload sessionIdOverride) ↔
      level1LooksLikeNewFormat payload = true ∨
        ∀ sql, legacySelect payload = some sql → queryReachesDatabase g sql = false := by
  unfold processXmlFile
  split
  · rename_i empty
    subst empty
    exact iff_of_true .idle (.inr fun sql none => by cases none)
  · split
    · rename_i newFormat
      exact iff_of_true (processNewFormat_guarded g enabled payload sessionIdOverride) (.inl newFormat)
    · rename_i legacy
      rw [processLegacy_guarded_iff]
      exact ⟨.inr, fun either => either.resolve_left legacy⟩

/-- A gateway whose sessions are all unknown. -/
def closedGateway : Gateway String Nat where
  sessionValidationEnabled := true
  level1Parse := fun _ => .ok ⟨"A1".toList, "S1".toList, false, [.select]⟩
  sessionValidate := fun _ => .notFound
  operate := fun _ => ["operation"]
  countQuery := fun _ => "count"
  fetch := fun _ => ["fetch"]
  cache := cacheCreate ⟨4, 8, 0, 60, true⟩ List.length fun _ => 0
  now := 10
  outcome := ⟨true, some 1, true, ⟨true, true, true⟩⟩

theorem processXmlFile_guarded_new_format :
    Guarded (processXmlFile closedGateway "<request version=\"1.0\"/>".toList []) :=
  (processXmlFile_guarded_iff closedGateway rfl _ _).mpr (.inl (by decide +kernel))

def legacyPayload : CString := "<operation>select</operation><sql>SELECT A FROM T</sql>".toList

theorem legacy_select_unguarded :
    ¬ Guarded (processXmlFile closedGateway legacyPayload []) ∧
      (processXmlFile closedGateway legacyPayload []).steps = [.database "count", .database "fetch"] := by
  have steps : (processXmlFile closedGateway legacyPayload []).steps =
      [.database "count", .database "fetch"] := by decide +kernel
  refine ⟨fun guarded => ?_, steps⟩
  obtain ⟨request, final, -⟩ := guarded [] _ _ steps
  have none : (processXmlFile closedGateway legacyPayload []).request.isNone = true := by
    decide +kernel
  rw [final] at none
  cases none

end OciWrapper.Core
