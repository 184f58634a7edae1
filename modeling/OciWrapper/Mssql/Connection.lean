import Mathlib.Tactic

namespace OciWrapper.Mssql

variable {W : Type}

/-- One `SQLHDBC` as the driver and the server see it: the value of
    `SQL_ATTR_AUTOCOMMIT`, the writes of the transaction open on it, and the
    committed writes of the database behind it. -/
structure Link (W : Type) where
  autocommit : Bool
  uncommitted : List W
  database : List W
  deriving DecidableEq

structure Settings where
  autocommitMode : Bool
  rollbackOnReturnToPool : Bool
  connectionValidationOnBorrow : Bool
  poolMaxSize : Nat

/-- What the server did with one execution: its writes took effect, it rolled
    the open transaction back, or the executed batch itself committed. -/
inductive Effect (W : Type)
  | applied (writes : List W)
  | aborted
  | committed (writes : List W)
  deriving DecidableEq

def Link.run (link : Link W) : Effect W → Link W
  | .applied writes =>
    if link.autocommit then { link with database := link.database ++ writes }
    else { link with uncommitted := link.uncommitted ++ writes }
  | .aborted => if link.autocommit then link else { link with uncommitted := [] }
  | .committed writes =>
    { link with uncommitted := [], database := link.database ++ link.uncommitted ++ writes }

def Link.runAll (link : Link W) (effects : List (Effect W)) : Link W :=
  effects.foldl Link.run link

/-- `SQLEndTran`. -/
def mssqlEndTran (link : Link W) (commit succeeds : Bool) : Int × Link W :=
  if !succeeds then (-1, link)
  else if commit then
    (0, { link with uncommitted := [], database := link.database ++ link.uncommitted })
  else (0, { link with uncommitted := [] })

/-- The outcomes of `SQLGetConnectAttr` and `SQLSetConnectAttr` on `SQL_ATTR_AUTOCOMMIT`. -/
structure ModeCalls where
  readable : Bool
  settable : Bool
  deriving DecidableEq

def mssqlTxInManual (link : Link W) (readable : Bool) : Int :=
  if !readable then -1 else if !link.autocommit then 1 else 0

def mssqlTxBeginWrite (settings : Settings) (link : Link W) (odbc : ModeCalls) : Int × Link W :=
  if settings.autocommitMode then (0, link)
  else if mssqlTxInManual link odbc.readable = 1 then (0, link)
  else if !odbc.settable then (-1, link)
  else (0, { link with autocommit := false })

-- Setting autocommit on commits the transaction that is open.
def mssqlTxEndWrite (settings : Settings) (link : Link W) (odbc : ModeCalls) : Int × Link W :=
  if settings.autocommitMode then (0, link)
  else if mssqlTxInManual link odbc.readable = 0 then (0, link)
  else if !odbc.settable then (-1, link)
  else (0, ⟨true, [], link.database ++ link.uncommitted⟩)

structure EndCalls where
  ended : Bool
  mode : ModeCalls
  deriving DecidableEq

def endTransaction (commit : Bool) (settings : Settings) (link : Link W) (odbc : EndCalls) :
    Int × Link W :=
  let ended := mssqlEndTran link commit odbc.ended
  if ended.1 ≠ 0 then (-1, ended.2)
  else (0, (mssqlTxEndWrite settings ended.2 odbc.mode).2)

def mssqlCommit : Settings → Link W → EndCalls → Int × Link W := endTransaction true

def mssqlRollback : Settings → Link W → EndCalls → Int × Link W := endTransaction false

/-- The ODBC calls of a statement: switching the mode, allocating, preparing
    and binding it, its executions, and whether reading their results succeeded. -/
structure StatementCalls (W : Type) where
  mode : ModeCalls
  prepared : Bool
  executions : List (Effect W)
  succeeded : Bool
  deriving DecidableEq

/-- A statement's return code, the connection after it, and the mode it ran in
    (nothing when it was not run). -/
structure Ran (W : Type) where
  rc : Int
  link : Link W
  manual : Option Bool
  deriving DecidableEq

def execute (link : Link W) (odbc : StatementCalls W) : Ran W :=
  if !odbc.prepared then ⟨-1, link, none⟩
  else ⟨if odbc.succeeded then 0 else -1, link.runAll odbc.executions, some !link.autocommit⟩

/-- What the three functions that change data do in the same words: a write
    runs in manual-commit. -/
def write (settings : Settings) (link : Link W) (odbc : StatementCalls W) : Ran W :=
  let switched := mssqlTxBeginWrite settings link odbc.mode
  if switched.1 ≠ 0 then ⟨-1, switched.2, none⟩ else execute switched.2 odbc

def mssqlDmlExecute : Settings → Link W → StatementCalls W → Ran W := write

def mssqlDmlExecuteReturningRowids : Settings → Link W → StatementCalls W → Ran W := write

/-- `empty` is a BLOB without a file path or a CLOB without text; `keyed` a
    table with one key column and a row that has its value. -/
def mssqlLobWriteByRowid (settings : Settings) (link : Link W) (empty keyed : Bool)
    (odbc : StatementCalls W) : Ran W :=
  if empty then ⟨0, link, none⟩
  else if !keyed then ⟨-1, link, none⟩
  else write settings link odbc

structure ProcedureCalls (W : Type) extends StatementCalls W where
  allocated : Bool
  -- SQLGetConnectAttr and the rollback when there is no managed transaction
  readable : Bool
  undo : EndCalls
  deriving DecidableEq

def mssqlDmlExecuteProcedure (settings : Settings) (link : Link W) (activeTx : Bool)
    (odbc : ProcedureCalls W) : Ran W :=
  if !odbc.allocated then ⟨-1, link, none⟩
  else if settings.autocommitMode then execute link odbc.toStatementCalls
  else if activeTx then
    let switched := mssqlTxBeginWrite settings link odbc.mode
    if switched.1 ≠ 0 then ⟨-1, switched.2, none⟩ else execute switched.2 odbc.toStatementCalls
  else if mssqlTxInManual link odbc.readable ≠ 0 then
    let ended := mssqlEndTran link false odbc.undo.ended
    if ended.1 ≠ 0 then ⟨-1, ended.2, none⟩
    else
      let returned := mssqlTxEndWrite settings ended.2 odbc.undo.mode
      if returned.1 ≠ 0 then ⟨-1, returned.2, none⟩
      else execute returned.2 odbc.toStatementCalls
  else execute link odbc.toStatementCalls

/-- A connection in autocommit has no transaction open, and with
    `autocommit_mode = 1` it is never in another mode. -/
structure Link.Sound (settings : Settings) (link : Link W) : Prop where
  settled : link.autocommit → link.uncommitted = []
  configured : settings.autocommitMode → link.autocommit

variable {settings : Settings} {link : Link W}

theorem Link.Sound.run (sound : link.Sound settings) (effect : Effect W) :
    (link.run effect).Sound settings := by
  cases effect with
  | applied writes =>
    simp only [Link.run]
    split
    · exact ⟨sound.settled, sound.configured⟩
    · next manual => exact ⟨fun automatic => absurd automatic manual, sound.configured⟩
  | aborted =>
    simp only [Link.run]
    split
    · exact sound
    · exact ⟨fun _ => rfl, sound.configured⟩
  | committed writes => exact ⟨fun _ => rfl, sound.configured⟩

@[simp] theorem Link.run_autocommit (link : Link W) (effect : Effect W) :
    (link.run effect).autocommit = link.autocommit := by
  cases effect <;> simp only [Link.run] <;> split <;> rfl

theorem Link.Sound.runAll (sound : link.Sound settings) (effects : List (Effect W)) :
    (link.runAll effects).Sound settings := by
  induction effects generalizing link with
  | nil => exact sound
  | cons effect effects ih => exact ih (sound.run effect)

theorem mssqlTxInManual_manual {readable : Bool} (h : mssqlTxInManual link readable = 1) :
    link.autocommit = false := by
  unfold mssqlTxInManual at h
  split at h
  · omega
  · split at h
    · next manual => simpa using manual
    · omega

theorem mssqlTxInManual_automatic {readable : Bool} (h : mssqlTxInManual link readable = 0) :
    link.autocommit = true := by
  unfold mssqlTxInManual at h
  split at h
  · omega
  · split at h
    · omega
    · next automatic => simpa using automatic

theorem mssqlEndTran_cases (link : Link W) (commit succeeds : Bool) :
    succeeds = false ∧ mssqlEndTran link commit succeeds = (-1, link) ∨
    succeeds = true ∧ (mssqlEndTran link commit succeeds).1 = 0 ∧
      (mssqlEndTran link commit succeeds).2 =
        ⟨link.autocommit, [], if commit then link.database ++ link.uncommitted
          else link.database⟩ := by
  cases succeeds <;> cases commit <;> simp [mssqlEndTran]

theorem mssqlEndTran_sound (sound : link.Sound settings) (commit succeeds : Bool) :
    (mssqlEndTran link commit succeeds).2.Sound settings := by
  obtain ⟨-, failed⟩ | ⟨-, -, ended⟩ := mssqlEndTran_cases link commit succeeds
  · rw [failed]
    exact sound
  · rw [ended]
    exact ⟨fun _ => rfl, sound.configured⟩

/-- Everything `mssql_tx_begin_write` can do. -/
theorem mssqlTxBeginWrite_cases (settings : Settings) (link : Link W) (odbc : ModeCalls) :
    mssqlTxBeginWrite settings link odbc = (0, link) ∧
      (settings.autocommitMode = true ∨ link.autocommit = false) ∨
    settings.autocommitMode = false ∧
      (mssqlTxBeginWrite settings link odbc = (-1, link) ∨
        mssqlTxBeginWrite settings link odbc = (0, { link with autocommit := false })) := by
  unfold mssqlTxBeginWrite
  split
  · next configured => exact Or.inl ⟨rfl, Or.inl configured⟩
  · next free =>
    split
    · next manual => exact Or.inl ⟨rfl, Or.inr (mssqlTxInManual_manual manual)⟩
    · refine Or.inr ⟨by simpa using free, ?_⟩
      split
      · exact Or.inl rfl
      · exact Or.inr rfl

theorem mssqlTxBeginWrite_sound (sound : link.Sound settings) (odbc : ModeCalls) :
    (mssqlTxBeginWrite settings link odbc).2.Sound settings := by
  obtain ⟨kept, -⟩ | ⟨free, kept | switched⟩ := mssqlTxBeginWrite_cases settings link odbc
  · rw [kept]
    exact sound
  · rw [kept]
    exact sound
  · rw [switched]
    exact ⟨fun automatic => absurd automatic (by simp), fun configured => by simp_all⟩

theorem mssqlTxBeginWrite_mode {odbc : ModeCalls}
    (begun : (mssqlTxBeginWrite settings link odbc).1 = 0) :
    settings.autocommitMode = true ∨
      (mssqlTxBeginWrite settings link odbc).2.autocommit = false := by
  obtain ⟨kept, configured | manual⟩ | ⟨-, failed | switched⟩ :=
    mssqlTxBeginWrite_cases settings link odbc
  · exact Or.inl configured
  · rw [kept]
    exact Or.inr manual
  · rw [failed] at begun
    simp at begun
  · rw [switched]
    exact Or.inr rfl

/-- Everything `mssql_tx_end_write` can do. -/
theorem mssqlTxEndWrite_cases (settings : Settings) (link : Link W) (odbc : ModeCalls) :
    mssqlTxEndWrite settings link odbc = (0, link) ∧
      (settings.autocommitMode = true ∨ link.autocommit = true) ∨
    settings.autocommitMode = false ∧
      (odbc.settable = false ∧ mssqlTxEndWrite settings link odbc = (-1, link) ∨
        mssqlTxEndWrite settings link odbc =
          (0, ⟨true, [], link.database ++ link.uncommitted⟩)) := by
  unfold mssqlTxEndWrite
  split
  · next configured => exact Or.inl ⟨rfl, Or.inl configured⟩
  · next free =>
    split
    · next automatic => exact Or.inl ⟨rfl, Or.inr (mssqlTxInManual_automatic automatic)⟩
    · refine Or.inr ⟨by simpa using free, ?_⟩
      split
      · next unset => exact Or.inl ⟨by simpa using unset, rfl⟩
      · exact Or.inr rfl

theorem mssqlTxEndWrite_sound (sound : link.Sound settings) (odbc : ModeCalls) :
    (mssqlTxEndWrite settings link odbc).2.Sound settings := by
  obtain ⟨kept, -⟩ | ⟨-, ⟨-, kept⟩ | switched⟩ := mssqlTxEndWrite_cases settings link odbc
  · rw [kept]
    exact sound
  · rw [kept]
    exact sound
  · rw [switched]
    exact ⟨fun _ => rfl, fun _ => rfl⟩

theorem mssqlTxEndWrite_automatic (sound : link.Sound settings) {odbc : ModeCalls}
    (returned : (mssqlTxEndWrite settings link odbc).1 = 0) :
    (mssqlTxEndWrite settings link odbc).2.autocommit = true := by
  obtain ⟨kept, configured | automatic⟩ | ⟨-, ⟨-, failed⟩ | switched⟩ :=
    mssqlTxEndWrite_cases settings link odbc
  · rw [kept]
    exact sound.configured configured
  · rw [kept]
    exact automatic
  · rw [failed] at returned
    simp at returned
  · rw [switched]

theorem mssqlTxEndWrite_uncommitted (settled : link.uncommitted = []) (odbc : ModeCalls) :
    (mssqlTxEndWrite settings link odbc).2.uncommitted = [] := by
  obtain ⟨kept, -⟩ | ⟨-, ⟨-, kept⟩ | switched⟩ := mssqlTxEndWrite_cases settings link odbc
  · rw [kept]
    exact settled
  · rw [kept]
    exact settled
  · rw [switched]

theorem mssqlTxEndWrite_settable (sound : link.Sound settings) {odbc : ModeCalls}
    (settable : odbc.settable = true) :
    (mssqlTxEndWrite settings link odbc).2.autocommit = true := by
  apply mssqlTxEndWrite_automatic sound
  obtain ⟨kept, -⟩ | ⟨-, ⟨unset, -⟩ | switched⟩ := mssqlTxEndWrite_cases settings link odbc
  · rw [kept]
  · rw [settable] at unset
    contradiction
  · rw [switched]

theorem endTransaction_sound (sound : link.Sound settings) (commit : Bool) (odbc : EndCalls) :
    (endTransaction commit settings link odbc).2.Sound settings := by
  have ended := mssqlEndTran_sound sound commit odbc.ended
  unfold endTransaction
  dsimp only
  split
  · exact ended
  · exact mssqlTxEndWrite_sound ended odbc.mode

/-- A commit or rollback that returns 0 leaves no transaction open; it leaves
    the connection in autocommit unless the switch back failed. -/
theorem endTransaction_settles (sound : link.Sound settings) {commit : Bool} {odbc : EndCalls}
    (returned : (endTransaction commit settings link odbc).1 = 0) :
    odbc.ended = true ∧ (endTransaction commit settings link odbc).2.uncommitted = [] ∧
      (odbc.mode.settable = true →
        (endTransaction commit settings link odbc).2.autocommit = true) := by
  have endedSound := mssqlEndTran_sound sound commit odbc.ended
  unfold endTransaction at returned ⊢
  obtain ⟨-, failed⟩ | ⟨through, zero, ended⟩ := mssqlEndTran_cases link commit odbc.ended
  · simp [failed] at returned
  · have settled : (mssqlEndTran link commit odbc.ended).2.uncommitted = [] := by rw [ended]
    simp only [zero, ne_eq, not_true_eq_false, if_false]
    exact ⟨through, mssqlTxEndWrite_uncommitted settled odbc.mode,
      mssqlTxEndWrite_settable endedSound⟩

theorem endTransaction_returns (settings : Settings) (link : Link W) (commit : Bool)
    {odbc : EndCalls} (ended : odbc.ended = true) :
    (endTransaction commit settings link odbc).1 = 0 := by
  unfold endTransaction
  obtain ⟨failed, -⟩ | ⟨-, zero, -⟩ := mssqlEndTran_cases link commit odbc.ended
  · rw [ended] at failed
    contradiction
  · simp [zero]

theorem execute_sound (sound : link.Sound settings) (odbc : StatementCalls W) :
    (execute link odbc).link.Sound settings := by
  unfold execute
  split
  · exact sound
  · exact sound.runAll odbc.executions

theorem execute_manual {odbc : StatementCalls W} {manual : Bool}
    (ran : (execute link odbc).manual = some manual) : manual = !link.autocommit := by
  unfold execute at ran
  split at ran
  · cases ran
  · exact (Option.some.inj ran).symm

theorem write_sound (sound : link.Sound settings) (odbc : StatementCalls W) :
    (write settings link odbc).link.Sound settings := by
  have switched := mssqlTxBeginWrite_sound sound odbc.mode
  unfold write
  dsimp only
  split
  · exact switched
  · exact execute_sound switched odbc

theorem write_manual {odbc : StatementCalls W} {manual : Bool}
    (ran : (write settings link odbc).manual = some manual) :
    settings.autocommitMode = true ∨ manual = true := by
  unfold write at ran
  dsimp only at ran
  split at ran
  · cases ran
  · next begun =>
    have mode := execute_manual ran
    rcases mssqlTxBeginWrite_mode (Decidable.not_not.mp begun) with configured | switched
    · exact Or.inl configured
    · rw [switched] at mode
      exact Or.inr mode

theorem mssqlLobWriteByRowid_sound (sound : link.Sound settings) (empty keyed : Bool)
    (odbc : StatementCalls W) :
    (mssqlLobWriteByRowid settings link empty keyed odbc).link.Sound settings := by
  unfold mssqlLobWriteByRowid
  split
  · exact sound
  · split
    · exact sound
    · exact write_sound sound odbc

theorem mssqlLobWriteByRowid_manual {empty keyed : Bool} {odbc : StatementCalls W} {manual : Bool}
    (ran : (mssqlLobWriteByRowid settings link empty keyed odbc).manual = some manual) :
    settings.autocommitMode = true ∨ manual = true := by
  unfold mssqlLobWriteByRowid at ran
  split at ran
  · cases ran
  · split at ran
    · cases ran
    · exact write_manual ran

theorem mssqlDmlExecuteProcedure_sound (sound : link.Sound settings) (activeTx : Bool)
    (odbc : ProcedureCalls W) :
    (mssqlDmlExecuteProcedure settings link activeTx odbc).link.Sound settings := by
  have switched := mssqlTxBeginWrite_sound sound odbc.mode
  have ended := mssqlEndTran_sound sound false odbc.undo.ended
  have returned := mssqlTxEndWrite_sound ended odbc.undo.mode
  unfold mssqlDmlExecuteProcedure
  split
  · exact sound
  split
  · exact execute_sound sound _
  split
  · dsimp only
    split
    · exact switched
    · exact execute_sound switched _
  split
  · dsimp only
    split
    · exact ended
    split
    · exact returned
    · exact execute_sound returned _
  · exact execute_sound sound _

/-- A procedure inside a managed transaction runs in manual-commit, any other
    one in autocommit. -/
theorem mssqlDmlExecuteProcedure_manual (sound : link.Sound settings) {activeTx : Bool}
    {odbc : ProcedureCalls W} {manual : Bool}
    (ran : (mssqlDmlExecuteProcedure settings link activeTx odbc).manual = some manual) :
    settings.autocommitMode = true ∨ manual = activeTx := by
  have endedSound := mssqlEndTran_sound sound false odbc.undo.ended
  unfold mssqlDmlExecuteProcedure at ran
  split at ran
  · cases ran
  split at ran
  · next configured => exact Or.inl configured
  split at ran
  · next managed =>
    dsimp only at ran
    split at ran
    · cases ran
    · next begun =>
      rcases mssqlTxBeginWrite_mode (Decidable.not_not.mp begun) with configured | switched
      · exact Or.inl configured
      · rw [execute_manual ran, switched, managed]
        exact Or.inr rfl
  · next unmanaged =>
    have notManaged : activeTx = false := by simpa using unmanaged
    split at ran
    · dsimp only at ran
      split at ran
      · cases ran
      split at ran
      · cases ran
      · next returned =>
        have automatic := mssqlTxEndWrite_automatic endedSound (Decidable.not_not.mp returned)
        rw [execute_manual ran, automatic, notManaged]
        exact Or.inr rfl
    · next found =>
      have automatic := mssqlTxInManual_automatic (Decidable.not_not.mp found)
      rw [execute_manual ran, automatic, notManaged]
      exact Or.inr rfl

/-! What is committed stays committed. -/

theorem Link.run_database (link : Link W) (effect : Effect W) :
    link.database <+: (link.run effect).database := by
  cases effect with
  | applied writes =>
    simp only [Link.run]
    split
    · exact List.prefix_append _ _
    · exact List.prefix_rfl
  | aborted =>
    simp only [Link.run]
    split <;> exact List.prefix_rfl
  | committed writes =>
    simp only [Link.run, List.append_assoc]
    exact List.prefix_append _ _

theorem Link.runAll_database (link : Link W) (effects : List (Effect W)) :
    link.database <+: (link.runAll effects).database := by
  induction effects generalizing link with
  | nil => exact List.prefix_rfl
  | cons effect effects ih => exact (link.run_database effect).trans (ih (link.run effect))

theorem mssqlEndTran_database (link : Link W) (commit succeeds : Bool) :
    link.database <+: (mssqlEndTran link commit succeeds).2.database := by
  obtain ⟨-, failed⟩ | ⟨-, -, ended⟩ := mssqlEndTran_cases link commit succeeds
  · rw [failed]
  · rw [ended]
    dsimp only
    split
    · exact List.prefix_append _ _
    · exact List.prefix_rfl

theorem mssqlTxBeginWrite_database (settings : Settings) (link : Link W) (odbc : ModeCalls) :
    (mssqlTxBeginWrite settings link odbc).2.database = link.database := by
  obtain ⟨kept, -⟩ | ⟨-, kept | switched⟩ := mssqlTxBeginWrite_cases settings link odbc
  · rw [kept]
  · rw [kept]
  · rw [switched]

theorem mssqlTxEndWrite_database (settings : Settings) (link : Link W) (odbc : ModeCalls) :
    link.database <+: (mssqlTxEndWrite settings link odbc).2.database := by
  obtain ⟨kept, -⟩ | ⟨-, ⟨-, kept⟩ | switched⟩ := mssqlTxEndWrite_cases settings link odbc
  · rw [kept]
  · rw [kept]
  · rw [switched]
    exact List.prefix_append _ _

theorem endTransaction_database (link : Link W) (commit : Bool) (odbc : EndCalls) :
    link.database <+: (endTransaction commit settings link odbc).2.database := by
  have ended := mssqlEndTran_database link commit odbc.ended
  unfold endTransaction
  dsimp only
  split
  · exact ended
  · exact ended.trans (mssqlTxEndWrite_database settings _ odbc.mode)

theorem execute_database (link : Link W) (odbc : StatementCalls W) :
    link.database <+: (execute link odbc).link.database := by
  unfold execute
  split
  · exact List.prefix_rfl
  · exact link.runAll_database odbc.executions

theorem write_database (link : Link W) (odbc : StatementCalls W) :
    link.database <+: (write settings link odbc).link.database := by
  have same := mssqlTxBeginWrite_database settings link odbc.mode
  unfold write
  dsimp only
  split
  · rw [same]
  · rw [← same]
    exact execute_database _ odbc

theorem mssqlLobWriteByRowid_database (link : Link W) (empty keyed : Bool)
    (odbc : StatementCalls W) :
    link.database <+: (mssqlLobWriteByRowid settings link empty keyed odbc).link.database := by
  unfold mssqlLobWriteByRowid
  split
  · exact List.prefix_rfl
  · split
    · exact List.prefix_rfl
    · exact write_database link odbc

theorem mssqlDmlExecuteProcedure_database (link : Link W) (activeTx : Bool)
    (odbc : ProcedureCalls W) :
    link.database <+: (mssqlDmlExecuteProcedure settings link activeTx odbc).link.database := by
  have same := mssqlTxBeginWrite_database settings link odbc.mode
  have ended := mssqlEndTran_database link false odbc.undo.ended
  unfold mssqlDmlExecuteProcedure
  split
  · exact List.prefix_rfl
  split
  · exact execute_database link _
  split
  · dsimp only
    split
    · rw [same]
    · rw [← same]
      exact execute_database _ _
  split
  · dsimp only
    split
    · exact ended
    have returned := ended.trans
      (mssqlTxEndWrite_database settings _ odbc.undo.mode)
    split
    · exact returned
    · exact returned.trans (execute_database _ _)
  · exact execute_database link _

end OciWrapper.Mssql
