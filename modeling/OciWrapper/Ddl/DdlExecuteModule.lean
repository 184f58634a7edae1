import OciWrapper.Execute.TransactionManager
import OciWrapper.Mssql.PoolConnections

namespace OciWrapper.Ddl

open OciWrapper.Text OciWrapper.Execute OciWrapper.Mssql

variable {W : Type}

inductive Driver
  | oracle
  | mssql
  deriving DecidableEq

/-- What a driver's calls meet when they are given the text of a DDL statement:
    `executed` when the server ran it, `refused` what it did when it did not. -/
structure DdlCalls (W : Type) where
  mode : ModeCalls
  prepared : Bool
  executed : Bool
  refused : List (Mssql.Effect W)
  read : Bool
  diagnostic : CString

/-- Oracle commits before and after a DDL statement; SQL Server runs it in the
    transaction that is open. -/
def ddlEffect (effect : W) : Driver → Mssql.Effect W
  | .oracle => .committed [effect]
  | .mssql => .applied [effect]

def DdlCalls.statement (calls : DdlCalls W) (driver : Driver) (effect : W) : StatementCalls W where
  mode := calls.mode
  prepared := calls.prepared
  executions := if calls.executed then [ddlEffect effect driver] else calls.refused
  succeeded := calls.executed && calls.read

def oracleDmlExecute (link : Link W) (calls : StatementCalls W) : Ran W := Mssql.execute link calls

def dmlExecute (driver : Driver) (settings : Settings) (link : Link W)
    (calls : StatementCalls W) : Ran W :=
  match driver with
  | .oracle => oracleDmlExecute link calls
  | .mssql => mssqlDmlExecute settings link calls

/-- The text that the driver writes into `out_error_message` when it fails. -/
def dmlErrorMessage (driver : Driver) (settings : Settings) (link : Link W)
    (calls : DdlCalls W) : CString :=
  match driver with
  | .oracle => calls.diagnostic
  | .mssql =>
    if (mssqlTxBeginWrite settings link calls.mode).1 ≠ 0 then
      "dml_execute: could not switch to manual-commit - statement not run".toList
    else calls.diagnostic

def ddlExecErrorMsgLen : Nat := 512

structure DdlExecutionResult where
  success : Bool
  errorMessage : CString
  deriving DecidableEq

def DdlExecutionResult.failed (message : CString) : DdlExecutionResult :=
  ⟨false, message.take (ddlExecErrorMsgLen - 1)⟩

def trimEnd (text : CString) : CString := text.rdropWhile isSpace

/-- One trailing `;` and the blanks around it go, except from a PL/SQL block. -/
def execText (ddlText : CString) (isPlsqlBlock : Bool) : CString :=
  if isPlsqlBlock then ddlText
  else
    let trimmed := trimEnd ddlText
    trimEnd (if trimmed.getLast? = some ';' then trimmed.dropLast else trimmed)

/-- `copied` tells whether `strdup` succeeds, and `server` what the driver's
    calls meet on each text. The standalone identity lasts for the call only. -/
def executeDdlStatement (driver : Option Driver) (settings : Settings)
    (activeTx : Option TxHandle) (link : Link W) (ddlText : CString)
    (operationLabel : Option CString) (isPlsqlBlock copied : Bool)
    (server : CString → DdlCalls W) (effect : W) : DdlExecutionResult × Link W :=
  let label := operationLabel.getD "DDL".toList
  match activeTx with
  | some handle =>
    (.failed ("Refusing to execute ".toList ++ label ++
      ": a managed transaction is active (tx_id='".toList ++ txGetId handle ++
      ("'). Oracle DDL implicitly commits, which would silently commit that transaction's " ++
        "pending work. Commit or roll back the active transaction first.").toList), link)
  | none =>
    if !copied then
      (.failed ("strdup failed while preparing ".toList ++ label ++ " for execution".toList), link)
    else
      match driver with
      | none => (.failed "db_driver_get() returned an incomplete driver".toList, link)
      | some driver =>
        let calls := server (execText ddlText isPlsqlBlock)
        let ran := dmlExecute driver settings link (calls.statement driver effect)
        if ran.rc ≠ 0 then (.failed (dmlErrorMessage driver settings link calls), ran.link)
        else (⟨true, []⟩, ran.link)

/-- What happens later on a session: its statements, the end of its
    transactions, its release and its replacement by a new connection. -/
inductive SessionCall (W : Type)
  | execute (statement : Statement W)
  | commit (ended : EndCalls)
  | rollback (ended : EndCalls)
  | release (ended : EndCalls)
  | reconnect

def Driver.open (driver : Driver) (database : List W) : Link W :=
  ⟨driver = .mssql, [], database⟩

def oraclePerform (link : Link W) : Statement W → Link W
  | .select => link
  | .dmlExecute calls => (oracleDmlExecute link calls).link
  | .dmlExecuteReturningRowids calls => (oracleDmlExecute link calls).link
  | .lobWriteByRowid empty _ calls =>
    if empty then link else (oracleDmlExecute link calls).link
  | .dmlExecuteProcedure _ calls => (oracleDmlExecute link calls.toStatementCalls).link

/-- `OCITransCommit` and `OCITransRollback`. -/
def oracleEndTransaction (link : Link W) (commit succeeds : Bool) : Link W :=
  (mssqlEndTran link commit succeeds).2

def sessionStep (driver : Driver) (settings : Settings) (link : Link W) :
    SessionCall W → Link W
  | .execute statement =>
    match driver with
    | .oracle => oraclePerform link statement
    | .mssql => (statement.perform settings link).link
  | .commit odbc =>
    match driver with
    | .oracle => oracleEndTransaction link true odbc.ended
    | .mssql => (mssqlCommit settings link odbc).2
  | .rollback odbc =>
    match driver with
    | .oracle => oracleEndTransaction link false odbc.ended
    | .mssql => (mssqlRollback settings link odbc).2
  | .release odbc =>
    if settings.rollbackOnReturnToPool then
      match driver with
      | .oracle => oracleEndTransaction link false odbc.ended
      | .mssql => (mssqlRollback settings link odbc).2
    else link
  | .reconnect => driver.open link.database

def session (driver : Driver) (settings : Settings) (link : Link W)
    (calls : List (SessionCall W)) : Link W :=
  calls.foldl (sessionStep driver settings) link

/-- The effect is committed, in no transaction that is open, and stays so
    whatever the session does later. -/
def Permanent (driver : Driver) (settings : Settings) (effect : W) (link : Link W) : Prop :=
  effect ∈ link.database ∧ effect ∉ link.uncommitted ∧
    ∀ later : List (SessionCall W), effect ∈ (session driver settings link later).database

variable {driver : Driver} {settings : Settings} {link : Link W}

theorem sessionStep_database (link : Link W) (call : SessionCall W) :
    link.database <+: (sessionStep driver settings link call).database := by
  cases call with
  | execute statement =>
    cases driver with
    | oracle =>
      cases statement with
      | select => exact List.prefix_rfl
      | dmlExecute calls => exact execute_database link calls
      | dmlExecuteReturningRowids calls => exact execute_database link calls
      | lobWriteByRowid empty keyed calls =>
        simp only [sessionStep, oraclePerform]
        split
        · exact List.prefix_rfl
        · exact execute_database link calls
      | dmlExecuteProcedure activeTx calls => exact execute_database link calls.toStatementCalls
    | mssql => exact statement.perform_database link
  | commit odbc =>
    cases driver with
    | oracle => exact mssqlEndTran_database link true odbc.ended
    | mssql => exact endTransaction_database link true odbc
  | rollback odbc =>
    cases driver with
    | oracle => exact mssqlEndTran_database link false odbc.ended
    | mssql => exact endTransaction_database link false odbc
  | release odbc =>
    simp only [sessionStep]
    split
    · cases driver with
      | oracle => exact mssqlEndTran_database link false odbc.ended
      | mssql => exact endTransaction_database link false odbc
    · exact List.prefix_rfl
  | reconnect => exact List.prefix_rfl

theorem session_database (link : Link W) (calls : List (SessionCall W)) :
    link.database <+: (session driver settings link calls).database := by
  induction calls generalizing link with
  | nil => exact List.prefix_rfl
  | cons call calls ih => exact (sessionStep_database link call).trans (ih _)

theorem sessionStep_sound (sound : link.Sound settings) (call : SessionCall W) :
    (sessionStep .mssql settings link call).Sound settings := by
  cases call with
  | execute statement => exact statement.perform_sound sound
  | commit odbc => exact endTransaction_sound sound true odbc
  | rollback odbc => exact endTransaction_sound sound false odbc
  | release odbc =>
    simp only [sessionStep]
    split
    · exact endTransaction_sound sound false odbc
    · exact sound
  | reconnect => exact ⟨fun _ => rfl, fun _ => rfl⟩

theorem session_sound (sound : link.Sound settings) (calls : List (SessionCall W)) :
    (session .mssql settings link calls).Sound settings := by
  induction calls generalizing link with
  | nil => exact sound
  | cons call calls ih => exact ih (sessionStep_sound sound call)

/-- A statement that succeeded was given to the driver outside a managed
    transaction, and the driver's function returned 0. -/
theorem executeDdlStatement_succeeded {activeTx : Option TxHandle} {ddlText : CString}
    {operationLabel : Option CString} {isPlsqlBlock copied : Bool}
    {server : CString → DdlCalls W} {effect : W}
    (succeeded : (executeDdlStatement (some driver) settings activeTx link ddlText operationLabel
      isPlsqlBlock copied server effect).1.success = true) :
    ∃ ran, ran = dmlExecute driver settings link
        ((server (execText ddlText isPlsqlBlock)).statement driver effect) ∧ ran.rc = 0 ∧
      (executeDdlStatement (some driver) settings activeTx link ddlText operationLabel
        isPlsqlBlock copied server effect).2 = ran.link := by
  refine ⟨_, rfl, ?_⟩
  cases activeTx with
  | some handle => cases succeeded
  | none =>
    cases copied with
    | false => cases succeeded
    | true =>
      simp only [executeDdlStatement, Bool.not_true, Bool.false_eq_true, if_false]
        at succeeded ⊢
      split at succeeded
      · cases succeeded
      · next returned =>
        rw [if_neg returned]
        exact ⟨Decidable.not_not.mp returned, rfl⟩

/-- Inside a managed transaction nothing is executed. -/
theorem executeDdlStatement_refuses (driver : Option Driver) (handle : TxHandle)
    (ddlText : CString) (operationLabel : Option CString) (isPlsqlBlock copied : Bool)
    (server : CString → DdlCalls W) (effect : W) :
    (executeDdlStatement driver settings (some handle) link ddlText operationLabel isPlsqlBlock
        copied server effect).1.success = false ∧
      (executeDdlStatement driver settings (some handle) link ddlText operationLabel isPlsqlBlock
        copied server effect).2 = link :=
  ⟨rfl, rfl⟩

theorem DdlExecutionResult.failed_length (message : CString) :
    (DdlExecutionResult.failed message).errorMessage.length < ddlExecErrorMsgLen := by
  simp only [failed, List.length_take, ddlExecErrorMsgLen]
  omega

theorem executeDdlStatement_message (driver : Option Driver) (activeTx : Option TxHandle)
    (ddlText : CString) (operationLabel : Option CString) (isPlsqlBlock copied : Bool)
    (server : CString → DdlCalls W) (effect : W) :
    (executeDdlStatement driver settings activeTx link ddlText operationLabel isPlsqlBlock copied
      server effect).1.errorMessage.length < ddlExecErrorMsgLen := by
  unfold executeDdlStatement
  dsimp only
  split
  · exact DdlExecutionResult.failed_length _
  split
  · exact DdlExecutionResult.failed_length _
  split
  · exact DdlExecutionResult.failed_length _
  split
  · exact DdlExecutionResult.failed_length _
  · simp [ddlExecErrorMsgLen]

theorem execute_returned {calls : DdlCalls W} {effect : W}
    (returned : (Mssql.execute link (calls.statement driver effect)).rc = 0) :
    (Mssql.execute link (calls.statement driver effect)).link =
      link.run (ddlEffect effect driver) := by
  unfold Mssql.execute at returned ⊢
  cases calls.executed <;> cases prepared : calls.prepared <;>
    simp_all [DdlCalls.statement, Link.runAll]

theorem oracle_ddl_link {calls : DdlCalls W} {effect : W}
    (returned : (dmlExecute .oracle settings link (calls.statement .oracle effect)).rc = 0) :
    (dmlExecute .oracle settings link (calls.statement .oracle effect)).link =
      { link with
        uncommitted := [], database := link.database ++ link.uncommitted ++ [effect] } :=
  execute_returned returned

/-- On SQL Server the effect goes where the mode sends it. -/
theorem mssql_ddl_link {calls : DdlCalls W} {effect : W}
    (returned : (dmlExecute .mssql settings link (calls.statement .mssql effect)).rc = 0) :
    settings.autocommitMode = true ∧
        (dmlExecute .mssql settings link (calls.statement .mssql effect)).link =
          link.run (.applied [effect]) ∨
      settings.autocommitMode = false ∧
        (dmlExecute .mssql settings link (calls.statement .mssql effect)).link =
          { link with autocommit := false, uncommitted := link.uncommitted ++ [effect] } := by
  have begun : (mssqlTxBeginWrite settings link calls.mode).1 = 0 := by
    by_contra failed
    simp [dmlExecute, mssqlDmlExecute, write, DdlCalls.statement, failed] at returned
  have executed : dmlExecute .mssql settings link (calls.statement .mssql effect) =
      Mssql.execute (mssqlTxBeginWrite settings link calls.mode).2
        (calls.statement .mssql effect) := by
    simp [dmlExecute, mssqlDmlExecute, write, DdlCalls.statement, begun]
  rw [executed] at returned ⊢
  rw [execute_returned returned]
  cases mode : settings.autocommitMode with
  | true => exact Or.inl ⟨rfl, by simp [mssqlTxBeginWrite, mode, ddlEffect]⟩
  | false =>
    refine Or.inr ⟨rfl, ?_⟩
    obtain ⟨kept, configured | manual⟩ | ⟨-, failed | switched⟩ :=
      mssqlTxBeginWrite_cases settings link calls.mode
    · rw [mode] at configured
      contradiction
    · simp [kept, ddlEffect, Link.run, manual]
    · rw [failed] at begun
      simp at begun
    · simp [switched, ddlEffect, Link.run]

theorem permanent_of_database {effect : W} (committed : effect ∈ link.database)
    (settled : effect ∉ link.uncommitted) : Permanent driver settings effect link :=
  ⟨committed, settled, fun later => (session_database link later).subset committed⟩

/-- The effect of a DDL statement that succeeded on a session is committed for
    good if and only if the driver is Oracle's or `autocommit_mode` is 1. -/
theorem ddl_permanent_iff (driver : Driver) (settings : Settings) (database : List W)
    (earlier : List (SessionCall W)) (activeTx : Option TxHandle) (ddlText : CString)
    (operationLabel : Option CString) (isPlsqlBlock copied : Bool)
    (server : CString → DdlCalls W) (effect : W)
    (new : effect ∉ (session driver settings (driver.open database) earlier).database ∧
      effect ∉ (session driver settings (driver.open database) earlier).uncommitted)
    (succeeded : (executeDdlStatement (some driver) settings activeTx
      (session driver settings (driver.open database) earlier) ddlText operationLabel
      isPlsqlBlock copied server effect).1.success = true) :
    Permanent driver settings effect
        (executeDdlStatement (some driver) settings activeTx
          (session driver settings (driver.open database) earlier) ddlText operationLabel
          isPlsqlBlock copied server effect).2 ↔
      driver = .oracle ∨ settings.autocommitMode = true := by
  obtain ⟨ran, same, returned, after⟩ := executeDdlStatement_succeeded succeeded
  rw [after, same]
  rw [same] at returned
  obtain ⟨notCommitted, notOpen⟩ := new
  cases driver with
  | oracle =>
    refine iff_of_true ?_ (Or.inl rfl)
    rw [oracle_ddl_link returned]
    exact permanent_of_database (by simp) (by simp)
  | mssql =>
    have opened : ((Driver.open .mssql database).Sound settings) := ⟨fun _ => rfl, fun _ => rfl⟩
    have sound := session_sound opened earlier
    obtain ⟨configured, linked⟩ | ⟨free, linked⟩ := mssql_ddl_link returned
    · refine iff_of_true ?_ (Or.inr configured)
      have automatic := sound.configured configured
      rw [linked]
      apply permanent_of_database
      · simp [Link.run, automatic]
      · simpa [Link.run, automatic] using notOpen
    · refine iff_of_false ?_ (by simp [free])
      rw [linked]
      exact fun permanent => notCommitted permanent.1

theorem ddl_permanent_oracle :
    Permanent .oracle ⟨false, true, true, 4⟩ 5
      (executeDdlStatement (some .oracle) ⟨false, true, true, 4⟩ none
        (session .oracle ⟨false, true, true, 4⟩ (Driver.open .oracle [1])
          [.execute (.dmlExecute ⟨⟨true, true⟩, true, [.applied [2]], true⟩)])
        "DROP TABLE T;".toList (some "DROP_TABLE".toList) false true
        (fun _ => ⟨⟨true, true⟩, true, true, [], true, []⟩) 5).2 :=
  (ddl_permanent_iff .oracle ⟨false, true, true, 4⟩ [1]
    [.execute (.dmlExecute ⟨⟨true, true⟩, true, [.applied [2]], true⟩)] none
    "DROP TABLE T;".toList (some "DROP_TABLE".toList) false true
    (fun _ => ⟨⟨true, true⟩, true, true, [], true, []⟩) 5 ⟨by decide, by decide⟩ rfl).mpr
    (Or.inl rfl)

/-- On SQL Server, a DDL statement that succeeded is undone by the release of its session. -/
theorem ddl_is_rolled_back :
    (executeDdlStatement (some .mssql) ⟨false, true, true, 4⟩ none (Driver.open .mssql [1])
        "DROP TABLE T;".toList (some "DROP_TABLE".toList) false true
        (fun _ => ⟨⟨true, true⟩, true, true, [], true, []⟩) 5) =
        (⟨true, []⟩, ⟨false, [5], [1]⟩) ∧
      session .mssql ⟨false, true, true, 4⟩ ⟨false, [5], [1]⟩ [.release ⟨true, ⟨true, true⟩⟩] =
        ⟨true, [], [1]⟩ := by
  decide

end OciWrapper.Ddl
