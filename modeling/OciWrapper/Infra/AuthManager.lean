import OciWrapper.Execute.ManagedBatches
import OciWrapper.Text.Search

namespace OciWrapper.Infra

open OciWrapper.Text OciWrapper.Execute OciWrapper.Audit

variable {Row : Type}

structure AuthenticateRequest where
  username : CString
  credential : CString

inductive AuthResult
  | ok | invalidArg | denied | dbFailure | alloc
  deriving DecidableEq

/-- `auth_user_row_t`, less what only the response reads. -/
structure AuthUser where
  userId : Int
  enabled : CString
  locked : CString
  failedAttempts : Int
  sourceType : CString

inductive UserLookup
  | failed
  | missing
  | found (user : AuthUser)

/-- What one update of `APP_USER` and the audit behind it bring. -/
structure UserUpdate (Row : Type) where
  placeholders : Bool
  statement : RowStatement Row
  commits : Nat → CommitResult
  rolledBack : Bool
  audit : AuditOutcome

structure AuthOutcome (Row : Type) where
  lookup : UserLookup
  /-- `crypt_verify_password`. -/
  verified : Bool
  /-- The LDAP configuration parses and its bind succeeds. -/
  bound : Bool
  sessionRow : Row
  session : InsertOutcome
  snapshot : SnapshotOutcome
  /-- The result XML of `session_create` is allocated. -/
  described : Bool
  /-- The session id read back from it. -/
  sessionId : CString
  copied : Bool
  update : UserUpdate Row

inductive UserUpdateResult
  | committed | failed | uncommitted
  deriving DecidableEq

def appUserTable : CString := "APP_USER".toList
def sessionTable : CString := "OCI_SESSION".toList

/-- The columns `session_create` sets for a client known by its name alone. -/
def sessionColumns : List CString :=
  ["SESSION_ID", "STATUS", "TTL_SECONDS", "CLIENT_ID", "CREATED_TS", "LAST_ACTIVITY_TS"].map
    String.toList

/-- `auth_update_and_commit`; it does not look at the active transaction. -/
def authUpdateAndCommit (w : World Row) (update : UserUpdate Row) : World Row × UserUpdateResult :=
  match update.statement with
  | .failed changed => (w.emit (writes (changed.map (.row appUserTable))), .failed)
  | .executed changed _ =>
    match txCommitWithRetry (w.emit (writes (changed.map (.row appUserTable)))) update.commits
        w.ini.txMaxRetries with
    | (w, true) => (w, .committed)
    | (w, false) => (w.emit [.rollback update.rolledBack], .uncommitted)

def decimal (n : Int) : CString := (toString n).toList

def userField (name : String) (old new : CString) : AuditField :=
  ⟨name.toList, [], some ⟨old, false⟩, some ⟨new, false⟩⟩

def userAudit (userId : Int) (username reason : CString) (fields : List AuditField) :
    AuditTrailRequest where
  tableName := appUserTable
  recordId := decimal userId
  actionType := updateAction
  columnCount := fields.length
  rows := [fields]
  changedBy := username.take changedByMax
  changeReason := reason
  sessionId := dash
  moduleName := "OCI_Auth_Manager".toList

/-- Both recorders: the update, and the audit once it is committed. -/
def recordAttempt (w : World Row) (update : UserUpdate Row) (audit : Option AuditTrailRequest) :
    World Row :=
  if !update.placeholders then w
  else
    match authUpdateAndCommit w update with
    | (w, .committed) =>
      match audit with
      | none => w
      | some atr => (auditTrailInsert w atr update.audit).1
    | (w, .failed) | (w, .uncommitted) => w

def recordAuthFailure (w : World Row) (user : AuthUser) (username : CString)
    (update : UserUpdate Row) : World Row :=
  let attempts := user.failedAttempts + 1
  let counter := userField "FAILED_ATTEMPTS" (decimal user.failedAttempts) (decimal attempts)
  recordAttempt w update (some
    (if w.ini.authMaxFailedAttempts ≤ attempts then
      userAudit user.userId username
        ("Account locked after ".toList ++ decimal attempts ++
          " failed login attempts (manual unlock only)".toList)
        [counter, userField "LOCKED" ['N'] ['Y']]
    else userAudit user.userId username "Failed login attempt".toList [counter]))

def recordAuthSuccess (w : World Row) (user : AuthUser) (username : CString)
    (update : UserUpdate Row) : World Row :=
  recordAttempt w update
    (if 0 < user.failedAttempts then
      some (userAudit user.userId username "Successful login - failed attempt counter reset".toList
        [userField "FAILED_ATTEMPTS" (decimal user.failedAttempts) ['0']])
    else none)

def isLocal (user : AuthUser) : Bool := strcasecmp user.sourceType "LOCAL".toList

def credentialOk (user : AuthUser) (outcome : AuthOutcome Row) : Bool :=
  if isLocal user then outcome.verified
  else if strcasecmp user.sourceType "LDAP".toList || strcasecmp user.sourceType "AD".toList then
    outcome.bound
  else false

/-- `session_create`, as far as the database sees it. -/
def sessionCreate (w : World Row) (outcome : AuthOutcome Row) : World Row × Bool :=
  executeInsertBatch w ⟨sessionTable, sessionColumns.length, [outcome.sessionRow]⟩ outcome.session
    outcome.snapshot

def authAuthenticate (w : World Row) (req : AuthenticateRequest) (outcome : AuthOutcome Row) :
    World Row × AuthResult :=
  if req.username = [] ∨ req.credential = [] then (w, .invalidArg)
  else
    match outcome.lookup with
    | .failed => (w, .dbFailure)
    | .missing => (w, .denied)
    | .found user =>
      if user.enabled ≠ ['Y'] ∨ user.locked = ['Y'] then (w, .denied)
      else if !credentialOk user outcome then
        (if isLocal user then recordAuthFailure w user req.username outcome.update else w, .denied)
      else
        match sessionCreate w outcome with
        | (w, false) => (w, .dbFailure)
        | (w, true) =>
          if !outcome.described || outcome.sessionId = [] then (w, .dbFailure)
          else if !outcome.copied then (w, .alloc)
          else (recordAuthSuccess w user req.username outcome.update, .ok)

/-- The user whose credential is checked. -/
def AuthOutcome.candidate (outcome : AuthOutcome Row) (req : AuthenticateRequest) :
    Option AuthUser :=
  if req.username = [] ∨ req.credential = [] then none
  else
    match outcome.lookup with
    | .failed | .missing => none
    | .found user => if user.enabled ≠ ['Y'] ∨ user.locked = ['Y'] then none else some user

/-- The steps after the credential check succeed. -/
def AuthOutcome.opensSession (outcome : AuthOutcome Row) (ini : IniConfig) : Bool :=
  outcome.session.succeeds ini 1 && outcome.described && outcome.sessionId ≠ [] && outcome.copied

def AuthOutcome.succeeds (outcome : AuthOutcome Row) (ini : IniConfig)
    (req : AuthenticateRequest) : Bool :=
  match outcome.candidate req with
  | none => false
  | some user => credentialOk user outcome && outcome.opensSession ini

/-- The update gets to the commit of its own. -/
def UserUpdate.commitsItself (update : UserUpdate Row) : Bool :=
  update.placeholders &&
    match update.statement with
    | .failed _ => false
    | .executed _ _ => true

/-- The attempt is recorded, and its record is committed. -/
def AuthOutcome.commitsItself (outcome : AuthOutcome Row) (ini : IniConfig)
    (req : AuthenticateRequest) : Bool :=
  match outcome.candidate req with
  | none => false
  | some user =>
    (if credentialOk user outcome then outcome.opensSession ini else isLocal user) &&
      outcome.update.commitsItself

theorem auditTrailInsert_emit {w : World Row} (active : w.activeTx.isSome = true)
    (atr : AuditTrailRequest) (outcome : AuditOutcome) :
    ∃ effects, (auditTrailInsert w atr outcome).1 = w.emit effects := by
  cases idle : w.auditTrailInProgress with
  | true => exact ⟨[], by simp [auditTrailInsert, auditGuard, idle]⟩
  | false =>
    obtain ⟨effects, -, same⟩ := auditTrailInsert_audits atr outcome w idle active
    exact ⟨effects, same⟩

/-- A recorded attempt commits, also inside a transaction. -/
theorem recordAttempt_managed {w : World Row} (active : w.activeTx.isSome = true)
    (update : UserUpdate Row) (audit : Option AuditTrailRequest) :
    ∃ effects, recordAttempt w update audit = w.emit effects ∧
      (OnlyWrites effects ↔ update.commitsItself = false) := by
  unfold recordAttempt authUpdateAndCommit UserUpdate.commitsItself
  cases update.placeholders with
  | false => exact ⟨[], by simp, by simp [OnlyWrites.nil]⟩
  | true =>
    cases update.statement with
    | failed changed => exact ⟨_, rfl, by simp [OnlyWrites.writes]⟩
    | executed changed reported =>
      have commits : ∀ later, ¬ OnlyWrites (writes (changed.map (.row appUserTable)) ++
          ((commitAttempts update.commits w.ini.txMaxRetries.toNat 0).map .commit ++ later)) := by
        intro later only
        obtain ⟨result, made⟩ := List.exists_mem_of_ne_nil _
          (commitAttempts_ne_nil update.commits w.ini.txMaxRetries.toNat 0)
        exact only.1 result (List.mem_append_right _
          (List.mem_append_left _ (List.mem_map_of_mem made)))
      simp only [txCommitWithRetry, World.emit_emit, Bool.not_true, Bool.false_eq_true, if_false,
        Bool.and_true, Bool.true_eq_false, iff_false]
      cases decide ((commitAttempts update.commits w.ini.txMaxRetries.toNat 0).getLast? = some .ok)
        with
      | false =>
        refine ⟨_, World.emit_emit w _ _, ?_⟩
        rw [List.append_assoc]
        exact commits _
      | true =>
        cases audit with
        | none => exact ⟨_, rfl, by simpa using commits []⟩
        | some atr =>
          obtain ⟨effects, same⟩ := auditTrailInsert_emit (w := w.emit
            (writes (changed.map (.row appUserTable)) ++
              (commitAttempts update.commits w.ini.txMaxRetries.toNat 0).map .commit)) active atr
            update.audit
          refine ⟨_, same.trans (World.emit_emit w _ _), ?_⟩
          rw [List.append_assoc]
          exact commits _

theorem recordAuthFailure_managed {w : World Row} (active : w.activeTx.isSome = true)
    (user : AuthUser) (username : CString) (update : UserUpdate Row) :
    ∃ effects, recordAuthFailure w user username update = w.emit effects ∧
      (OnlyWrites effects ↔ update.commitsItself = false) := by
  unfold recordAuthFailure
  exact recordAttempt_managed active update _

theorem recordAuthSuccess_managed {w : World Row} (active : w.activeTx.isSome = true)
    (user : AuthUser) (username : CString) (update : UserUpdate Row) :
    ∃ effects, recordAuthSuccess w user username update = w.emit effects ∧
      (OnlyWrites effects ↔ update.commitsItself = false) := by
  unfold recordAuthSuccess
  exact recordAttempt_managed active update _

theorem authAuthenticate_managed {w : World Row} (active : w.activeTx.isSome = true)
    (req : AuthenticateRequest) (outcome : AuthOutcome Row) :
    ∃ effects, (authAuthenticate w req outcome).1 = w.emit effects ∧
      (OnlyWrites effects ↔ outcome.commitsItself w.ini req = false) ∧
      ((authAuthenticate w req outcome).2 = .ok ↔ outcome.succeeds w.ini req = true) := by
  have quiet : ∀ result : AuthResult, result ≠ .ok →
      ∃ effects, w = w.emit effects ∧ (OnlyWrites effects ↔ false = false) ∧
        (result = .ok ↔ false = true) :=
    fun result denied => ⟨[], w.emit_nil.symm, by simp [OnlyWrites.nil], by simp [denied]⟩
  unfold authAuthenticate AuthOutcome.commitsItself AuthOutcome.succeeds AuthOutcome.candidate
  split
  · exact quiet .invalidArg (by decide)
  · cases outcome.lookup with
    | failed => exact quiet .dbFailure (by decide)
    | missing => exact quiet .denied (by decide)
    | found user =>
      dsimp only
      split
      · exact quiet .denied (by decide)
      · dsimp only
        cases credential : credentialOk user outcome with
        | false =>
          cases isLocal user with
          | false => simpa using quiet .denied (by decide)
          | true =>
            obtain ⟨effects, same, only⟩ :=
              recordAuthFailure_managed active user req.username outcome.update
            refine ⟨effects, ?_, by simpa using only, by simp⟩
            simp only [Bool.not_false, if_true]
            exact same
        | true =>
          obtain ⟨session, onlySession, same⟩ := executeInsertBatch_managed active
            ⟨sessionTable, sessionColumns.length, [outcome.sessionRow]⟩ outcome.session
            outcome.snapshot
          have unrecorded : ∀ result : AuthResult, result ≠ .ok →
              ∃ effects, w.emit session = w.emit effects ∧ (OnlyWrites effects ↔ false = false) ∧
                (result = .ok ↔ false = true) :=
            fun result failed => ⟨session, rfl, by simp [onlySession], by simp [failed]⟩
          simp only [sessionCreate, same, AuthOutcome.opensSession, Bool.not_true,
            Bool.false_eq_true, if_false, if_true, List.length_singleton, Bool.true_and]
          cases outcome.session.succeeds w.ini 1 with
          | false => exact unrecorded .dbFailure (by decide)
          | true =>
            cases outcome.described with
            | false => exact unrecorded .dbFailure (by decide)
            | true =>
              by_cases anonymous : outcome.sessionId = []
              · simpa [anonymous] using unrecorded .dbFailure (by decide)
              · cases outcome.copied with
                | false => simpa [anonymous] using unrecorded .alloc (by decide)
                | true =>
                  obtain ⟨effects, recorded, only⟩ := recordAuthSuccess_managed (w := w.emit session)
                    active user req.username outcome.update
                  refine ⟨session ++ effects, ?_, ?_, by simp [anonymous]⟩
                  · simp only [anonymous, decide_false, Bool.not_true, Bool.or_self,
                      Bool.false_eq_true, if_false]
                    exact recorded.trans (World.emit_emit _ _ _)
                  · rw [OnlyWrites.append_iff, only]
                    simp [onlySession, anonymous]

end OciWrapper.Infra
