import OciWrapper.Execute.StandaloneIdentity

namespace OciWrapper.Execute

open OciWrapper.Text OciWrapper.Store OciWrapper.Audit

variable {Row R : Type}

/-- A business request with what each of its internal steps brings. -/
inductive Request (Row : Type)
  | insert (req : InsertRequest Row) (outcome : InsertOutcome) (snapshot : SnapshotOutcome)
  | update (req : UpdateRequest) (outcome : UpdateOutcome Row)
  | delete (req : DeleteRequest) (outcome : DeleteOutcome Row)

def runRequest (w : World Row) : Request Row → World Row × Bool
  | .insert req outcome snapshot => executeInsertBatch w req outcome snapshot
  | .update req outcome => executeUpdateBatch w req outcome
  | .delete req outcome => executeDeleteBatch w req outcome

/-- The effects and the result of each request of a sequence on one connection. -/
def runRequests (w : World Row) : List (Request Row) → List (List (Effect Row) × Bool)
  | [] => []
  | request :: requests =>
    let (after, ok) := runRequest { w with effects := [] } request
    (after.effects, ok) :: runRequests after requests

/-- What the database holds after a sequence of requests. -/
def databaseAfter (s : TxStore (Write Row)) (blocks : List (List (Effect Row) × Bool)) :
    TxStore (Write Row) :=
  s.replay (actionsOf (blocks.flatMap Prod.fst))

/-- The request ends with nothing pending: it succeeded with all it wrote
    committed, or failed with nothing committed. -/
def Verdict (block : List (Effect Row)) (ok : Bool) : Prop :=
  actionsOf block = (writtenBy block).map .write ++ [.commit] ∧ ok = true ∨
    TxStore.empty.replay (actionsOf block) = .empty ∧ ok = false

theorem Verdict.settles {block : List (Effect Row)} {ok : Bool} (verdict : Verdict block ok) :
    TxStore.Settles (actionsOf block) ∧
      TxStore.effectOf (actionsOf block) = if ok then writtenBy block else [] := by
  rcases verdict with ⟨same, rfl⟩ | ⟨same, rfl⟩
  · rw [TxStore.Settles, TxStore.effectOf, same, TxStore.replay_append, TxStore.replay_writes]
    simp [TxStore.apply, TxStore.empty]
  · rw [TxStore.Settles, TxStore.effectOf, same]
    exact ⟨rfl, rfl⟩

theorem actionsOf_flatMap (blocks : List (List (Effect Row) × Bool)) :
    actionsOf (blocks.flatMap Prod.fst) = (blocks.map (actionsOf ·.1)).flatten := by
  induction blocks with
  | nil => rfl
  | cons block blocks ih =>
    rw [List.flatMap_cons, actionsOf_append, ih]
    rfl

/-- Requests that each end with a verdict add up to the writes of the successful ones. -/
theorem databaseAfter_verdicts {blocks : List (List (Effect Row) × Bool)}
    (verdicts : ∀ block ∈ blocks, Verdict block.1 block.2) {s : TxStore (Write Row)}
    (clean : s.pending = []) :
    databaseAfter s blocks =
      ⟨s.committed ++ (blocks.filter Prod.snd).flatMap (writtenBy ·.1), []⟩ := by
  have settle : ∀ actions ∈ blocks.map (actionsOf ·.1), TxStore.Settles actions := by
    intro actions member
    obtain ⟨block, within, rfl⟩ := List.mem_map.mp member
    exact (verdicts block within).settles.1
  rw [databaseAfter, actionsOf_flatMap, TxStore.replay_blocks settle clean]
  congr 2
  clear settle
  induction blocks with
  | nil => rfl
  | cons block blocks ih =>
    have here := (verdicts block List.mem_cons_self).settles.2
    have there := ih fun other member => verdicts other (List.mem_cons_of_mem _ member)
    rw [List.map_cons, List.flatMap_cons, here, there]
    obtain ⟨effects, ok⟩ := block
    cases ok <;> simp

/-- What is left after the commit of a request whose own transaction it is. -/
def Completion.Clears (c : Completion) (ini : IniConfig) (rows : Nat) (untouched : Prop) : Prop :=
  match lastCommit c.commits ini.txMaxRetries with
  | .ok => c.responded = true
  | .failed true => True
  | .failed false | .retryable => untouched ∨ 0 < rows ∧ c.rolledBack = true

theorem Completion.Clears.mono {c : Completion} {ini : IniConfig} {rows : Nat}
    {untouched empty : Prop} (weaker : untouched → empty) (clears : c.Clears ini rows untouched) :
    c.Clears ini rows empty := by
  unfold Completion.Clears at *
  split at clears
  · exact clears
  · trivial
  · exact clears.imp_left weaker
  · exact clears.imp_left weaker

/-- The label `Cleanup` of a request that owns its transaction. -/
theorem cleanup_owned (guarded : Bool) (c : Completion) (w : World Row) (rows : Nat) (ok : Bool) :
    cleanup guarded true c (w, rows, ok) =
      ({ w with activeTx := none }.emit
        (if !ok && 0 < rows then [.rollback c.rolledBack] else []), ok) := by
  simp only [cleanup, endStandaloneTxIfOwned, Bool.not_true, Bool.and_false, Bool.not_false,
    Bool.and_true, if_true]
  split <;> simp [World.emit]

theorem commitAndRespond_committed {w : World Row} {c : Completion} (table : CString)
    (committed : lastCommit c.commits w.ini.txMaxRetries = .ok) :
    ∃ ending, writtenBy ending = [] ∧ actionsOf ending = [.commit] ∧
      commitAndRespond w true table c = (w.emit ending, c.responded) := by
  obtain ⟨effects, emits, unwritten, acts, done⟩ :=
    txCommitWithRetry_spec w c.commits w.ini.txMaxRetries
  rw [committed] at acts done
  have ran : txCommitWithRetry w c.commits w.ini.txMaxRetries = (w.emit effects, true) :=
    Prod.ext emits (done.mpr rfl)
  refine ⟨effects ++ [.invalidate table], ?_, ?_, ?_⟩
  · rw [writtenBy_append, unwritten]
    rfl
  · rw [actionsOf_append, acts]
    rfl
  · simp [commitAndRespond, ran]

theorem commitAndRespond_uncommitted {w : World Row} {c : Completion} (table : CString)
    (uncommitted : lastCommit c.commits w.ini.txMaxRetries ≠ .ok) :
    ∃ ending, writtenBy ending = [] ∧
      actionsOf ending = List.replicate
        (if lastCommit c.commits w.ini.txMaxRetries = .failed true then 1 else 0) .rollback ∧
      commitAndRespond w true table c = (w.emit ending, false) := by
  obtain ⟨effects, emits, unwritten, acts, done⟩ :=
    txCommitWithRetry_spec w c.commits w.ini.txMaxRetries
  have ran : txCommitWithRetry w c.commits w.ini.txMaxRetries = (w.emit effects, false) :=
    Prod.ext emits (Bool.eq_false_iff.mpr fun ok => uncommitted (done.mp ok))
  refine ⟨effects, unwritten, acts.trans ?_, by simp [commitAndRespond, ran]⟩
  cases last : lastCommit c.commits w.ini.txMaxRetries with
  | ok => exact absurd last uncommitted
  | retryable => rfl
  | failed undone => cases undone <;> rfl

/-- Writes followed by a rollback leave nothing. -/
theorem replay_discards {ws : List (Write Row)} {n : Nat} (undone : ws = [] ∨ 0 < n) :
    TxStore.empty.replay (ws.map .write ++ List.replicate n .rollback) = TxStore.empty := by
  rw [TxStore.replay_append, TxStore.replay_writes]
  have emptied : ∀ (n : Nat) (s : TxStore (Write Row)), s.pending = [] →
      s.replay (List.replicate n .rollback) = s := by
    intro n
    induction n with
    | zero => exact fun s _ => rfl
    | succ n ih =>
      intro s clean
      obtain ⟨committed, pending⟩ := s
      subst clean
      exact ih _ rfl
  cases n with
  | zero =>
    have none : ws = [] := undone.resolve_right (Nat.lt_irrefl 0)
    rw [none]
    rfl
  | succ n => exact emptied n _ rfl

theorem actionsOf_rollback (done tried : Bool) :
    actionsOf (if tried then [(.rollback done : Effect Row)] else []) =
      List.replicate (if tried && done then 1 else 0) .rollback := by
  cases tried <;> cases done <;> rfl

theorem Verdict.undone {effects ending : List (Effect Row)} {n : Nat} (only : OnlyWrites effects)
    (ends : actionsOf ending = List.replicate n .rollback)
    (undone : writtenBy effects = [] ∨ 0 < n) : Verdict (effects ++ ending) false := by
  right
  rw [actionsOf_append, only.actions, ends]
  exact ⟨replay_discards undone, rfl⟩

/-- A request that owns its transaction ends with a verdict, if what stops it
    leaves nothing or is rolled back. -/
theorem Course.verdict {w : World Row} {table : CString} {c : Completion}
    {stop complete : Nat → List (Effect Row) → Prop} {reached : World Row × Nat × Bool}
    (course : Course w true table c stop complete reached) (fresh : w.effects = [])
    (stops : ∀ rows effects, stop rows effects →
      writtenBy effects = [] ∨ 0 < rows ∧ c.rolledBack = true)
    (completes : ∀ rows effects, complete rows effects →
      c.Clears w.ini rows (writtenBy effects = [])) (guarded : Bool) :
    Verdict (cleanup guarded true c reached).1.effects (cleanup guarded true c reached).2 := by
  cases course with
  | @stopped rows effects only how =>
    rw [cleanup_owned]
    simp only [World.emit_effects, fresh, List.nil_append, Bool.not_false, Bool.true_and]
    refine .undone only (actionsOf_rollback _ _) ((stops rows effects how).imp_right ?_)
    rintro ⟨counted, done⟩
    simp [counted, done]
  | @completed rows effects only how =>
    have clears := completes rows effects how
    unfold Completion.Clears at clears
    by_cases committed : lastCommit c.commits w.ini.txMaxRetries = .ok
    · obtain ⟨ending, unwritten, acts, same⟩ :=
        commitAndRespond_committed (w := w.emit effects) table committed
      rw [committed] at clears
      rw [same, cleanup_owned]
      left
      simp only [World.emit_effects, fresh, List.nil_append, clears, Bool.not_true,
        Bool.false_and, Bool.false_eq_true, if_false, List.append_nil, writtenBy_append, unwritten,
        and_true]
      rw [actionsOf_append, only.actions, acts]
    · obtain ⟨ending, unwritten, acts, same⟩ :=
        commitAndRespond_uncommitted (w := w.emit effects) table committed
      rw [same, cleanup_owned]
      simp only [World.emit_effects, fresh, List.nil_append, List.append_assoc, Bool.not_false,
        Bool.true_and]
      refine .undone only (by rw [actionsOf_append, acts, actionsOf_rollback,
        ← List.replicate_add]) ?_
      split at clears
      · rename_i ok
        exact absurd ok committed
      · rename_i undone
        simp [undone]
      · rcases clears with untouched | ⟨counted, done⟩
        · exact .inl untouched
        · simp [counted, done]
      · rcases clears with untouched | ⟨counted, done⟩
        · exact .inl untouched
        · simp [counted, done]

/-- An update whose audit writes nothing: no before-image, no change in the row
    it audits, or an audit insert that stays silent. -/
def UpdateUnaudited (ini : IniConfig) (req : UpdateRequest) (outcome : UpdateOutcome Row) : Prop :=
  ∀ image, auditTrailFetchBeforeImage (req.fields.map Prod.fst) outcome.beforeImage = some image →
    ∀ br < updateRowCount,
      (rowChanges image (setColumns req.fields outcome.metadata) br = [] ∨
        (outcome.audits br).Silent ini
          (rowChanges image (setColumns req.fields outcome.metadata) br).length)

def DeleteUnaudited (ini : IniConfig) (req : DeleteRequest) (outcome : DeleteOutcome Row) : Prop :=
  ∀ image, auditTrailFetchBeforeImage (req.keys.map Prod.fst) outcome.beforeImage = some image →
    ∀ br < image.rowCount, (outcome.audits br).Silent ini req.keys.length

theorem updateAudit_silent {w : World Row} (active : w.activeTx.isSome = true)
    {req : UpdateRequest} {outcome : UpdateOutcome Row}
    (unaudited : UpdateUnaudited w.ini req outcome) (oldValues : Option BeforeImage)
    (fetched : ∀ image, oldValues = some image →
      auditTrailFetchBeforeImage (req.fields.map Prod.fst) outcome.beforeImage = some image) :
    ∃ effects, writtenBy effects = [] ∧ updateAudit w req outcome oldValues = w.emit effects := by
  cases oldValues with
  | none => exact ⟨[], rfl, w.emit_nil.symm⟩
  | some image =>
    simp only [updateAudit]
    split
    · exact ⟨[], rfl, w.emit_nil.symm⟩
    · rename_i notIdle
      refine auditRows_silent (fun br member v (same : v.ini = w.ini) idle running => ?_) rfl
        (Bool.eq_false_iff.mpr notIdle) active
      dsimp only
      split
      · exact ⟨[], rfl, v.emit_nil.symm⟩
      · rename_i changed
        refine auditTrailInsert_silent idle running _ ?_
        have silent := (unaudited image (fetched image rfl) br (List.mem_range.mp member)).resolve_left
          changed
        simpa [rowRequest, same] using silent

theorem deleteAudit_silent {w : World Row} (active : w.activeTx.isSome = true)
    {req : DeleteRequest} {outcome : DeleteOutcome Row}
    (unaudited : DeleteUnaudited w.ini req outcome) :
    ∃ effects, writtenBy effects = [] ∧ deleteAudit w req outcome = w.emit effects := by
  unfold deleteAudit
  split
  · exact ⟨[], rfl, w.emit_nil.symm⟩
  · rename_i notIdle
    split
    · exact ⟨[], rfl, w.emit_nil.symm⟩
    · rename_i image fetched
      refine auditRows_silent (fun br member v (same : v.ini = w.ini) idle running => ?_) rfl
        (Bool.eq_false_iff.mpr notIdle) active
      refine auditTrailInsert_silent idle running _ ?_
      have silent := unaudited image fetched br (List.mem_range.mp member)
      simpa [rowRequest, keyColumns, same] using silent

/-- What a statement that stops its request, or a commit that fails, leaves
    pending is nothing, or the failure path rolls it back. -/
def InsertClean (ini : IniConfig) (req : InsertRequest Row) (outcome : InsertOutcome) : Prop :=
  outcome.validated = true ∧ (insertReady ini req.rows.length outcome = true →
    match outcome.statement with
    | .failed done => req.rows.take done = []
    | .executed rows =>
      if outcome.lobs.ok then outcome.completion.Clears ini rows False
      else 0 < rows ∧ outcome.completion.rolledBack = true)

def UpdateClean (ini : IniConfig) (req : UpdateRequest) (outcome : UpdateOutcome Row) : Prop :=
  outcome.validated = true ∧ (updateSteps.all outcome.prepared = true →
    match outcome.statement with
    | .failed changed => changed = []
    | .executed changed rows =>
      if outcome.lobs.ok then
        outcome.completion.Clears ini rows
          (changed = [] ∧ outcome.lobs.done = 0 ∧ UpdateUnaudited ini req outcome)
      else
        changed = [] ∧ outcome.lobs.done = 0 ∨ 0 < rows ∧ outcome.completion.rolledBack = true)

def DeleteClean (ini : IniConfig) (req : DeleteRequest) (outcome : DeleteOutcome Row) : Prop :=
  outcome.validated = true → deleteSteps.all outcome.prepared = true →
    match outcome.statement with
    | .failed changed => changed = [] ∧ DeleteUnaudited ini req outcome
    | .executed changed rows =>
      outcome.completion.Clears ini rows (changed = [] ∧ DeleteUnaudited ini req outcome)

def Request.Clean (ini : IniConfig) : Request Row → Prop
  | .insert req outcome _ => InsertClean ini req outcome
  | .update req outcome => UpdateClean ini req outcome
  | .delete req outcome => DeleteClean ini req outcome

/-- The connection between two standalone requests. -/
structure Idle (w : World Row) : Prop where
  noTx : w.activeTx = none
  noAudit : w.auditTrailInProgress = false

theorem begin_idle {w : World Row} (idle : Idle w) (uuid : CString) :
    beginStandaloneTxIfNeeded w uuid =
      ({ w with activeTx := some { txInit with transactionId := uuid, status := .active } }, true) := by
  rw [beginStandaloneTxIfNeeded, idle.noTx]

/-- A course of an idle connection ends idle. -/
theorem Course.idle {w : World Row} {uuid table : CString} {c : Completion}
    {stop complete : Nat → List (Effect Row) → Prop} {reached : World Row × Nat × Bool}
    (course : Course (beginStandaloneTxIfNeeded w uuid).1 true table c stop complete reached)
    (idle : Idle w) (guarded : Bool) :
    Idle (cleanup guarded true c reached).1 ∧ (cleanup guarded true c reached).1.ini = w.ini := by
  obtain ⟨effects, same⟩ := course.frame
  obtain ⟨after, rows, ok⟩ := reached
  dsimp only at same
  subst same
  rw [cleanup_owned]
  refine ⟨⟨rfl, ?_⟩, ?_⟩
  · simpa using idle.noAudit
  · simp

theorem emit_cancel {w : World Row} {first later : List (Effect Row)}
    (same : w.emit first = w.emit later) : first = later :=
  List.append_cancel_left (congrArg World.effects same)

theorem insert_verdict {w : World Row} (idle : Idle w) (fresh : w.effects = [])
    {req : InsertRequest Row} {outcome : InsertOutcome} (snapshot : SnapshotOutcome)
    (clean : InsertClean w.ini req outcome) :
    Verdict (executeInsertBatch w req outcome snapshot).1.effects
        (executeInsertBatch w req outcome snapshot).2 ∧
      Idle (executeInsertBatch w req outcome snapshot).1 ∧
      (executeInsertBatch w req outcome snapshot).1.ini = w.ini := by
  obtain ⟨validated, sound⟩ := clean
  have course := insertRows_course (.row req.tableName)
    (fun w => auditTrailInsertSnapshot_audits (insertAuditRequest w req snapshot.lastRowid)
      snapshot w) true (beginStandaloneTxIfNeeded_active w outcome.uuid) req outcome
  have owns : (beginStandaloneTxIfNeeded w outcome.uuid).2 = true := by rw [begin_idle idle]
  simp only [executeInsertBatch, insertBatch, validated, owns, Bool.not_true, Bool.false_eq_true,
    if_false]
  refine ⟨course.verdict (by simpa using fresh) ?_ ?_ true, course.idle idle true⟩
  · intro rows effects how
    cases how with
    | unprepared => exact .inl rfl
    | statement ready failed =>
      have none := sound (by simpa using ready)
      rw [failed] at none
      exact .inl (by rw [none]; rfl)
    | lobs ready ran failed =>
      have undone := sound (by simpa using ready)
      simp only [ran, failed, Bool.false_eq_true, if_false] at undone
      exact .inr undone
  · intro rows effects how
    cases how with
    | audited ready ran written is same =>
      have clears := sound (by simpa using ready)
      simp only [ran, written, if_true] at clears
      exact (beginStandaloneTxIfNeeded_ini w outcome.uuid).symm ▸ clears.mono False.elim

theorem written_row_lob (table : CString) {changed : List Row} {lobs : LobWrites}
    (none : changed = [] ∧ lobs.done = 0) :
    writtenBy (writes (changed.map (Write.row table)) ++ lobEffects table lobs) = [] := by
  obtain ⟨rfl, done⟩ := none
  simp [lobEffects, done]

theorem update_verdict {w : World Row} (idle : Idle w) (fresh : w.effects = [])
    {req : UpdateRequest} {outcome : UpdateOutcome Row} (clean : UpdateClean w.ini req outcome) :
    Verdict (executeUpdateBatch w req outcome).1.effects (executeUpdateBatch w req outcome).2 ∧
      Idle (executeUpdateBatch w req outcome).1 ∧ (executeUpdateBatch w req outcome).1.ini = w.ini := by
  obtain ⟨validated, sound⟩ := clean
  have active := beginStandaloneTxIfNeeded_active w outcome.uuid
  have course := updateRows_course true active req outcome
  have owns : (beginStandaloneTxIfNeeded w outcome.uuid).2 = true := by rw [begin_idle idle]
  simp only [executeUpdateBatch, validated, owns, Bool.not_true, Bool.false_eq_true, if_false]
  refine ⟨course.verdict (by simpa using fresh) ?_ ?_ false, course.idle idle false⟩
  · intro rows effects how
    cases how with
    | unprepared => exact .inl rfl
    | statement ready failed =>
      have none := sound ready
      rw [failed] at none
      exact .inl (by rw [none]; rfl)
    | lobs ready ran failed =>
      have undone := sound ready
      simp only [ran, failed, Bool.false_eq_true, if_false] at undone
      rcases undone with ⟨unchanged, unwritten⟩ | rolledBack
      · exact .inl (written_row_lob _ ⟨unchanged, unwritten⟩)
      · exact .inr rolledBack
  · intro rows effects how
    cases how with
    | audited ready ran written is same =>
      have clears := sound ready
      simp only [ran, written, if_true] at clears
      rw [beginStandaloneTxIfNeeded_ini]
      refine clears.mono ?_
      rintro ⟨unchanged, unwritten, unaudited⟩
      obtain ⟨silent, none, also⟩ := updateAudit_silent
        (w := (beginStandaloneTxIfNeeded w outcome.uuid).1.emit _) active (by simpa using unaudited)
        (updateOldValues (beginStandaloneTxIfNeeded w outcome.uuid).1 req outcome)
        (fun image old => by simpa [updateOldValues, idle.noAudit] using old)
      rw [emit_cancel (same.symm.trans also), writtenBy_append, none, is,
        written_row_lob _ ⟨unchanged, unwritten⟩]
      rfl

theorem delete_verdict {w : World Row} (idle : Idle w) (fresh : w.effects = [])
    {req : DeleteRequest} {outcome : DeleteOutcome Row} (clean : DeleteClean w.ini req outcome) :
    Verdict (executeDeleteBatch w req outcome).1.effects (executeDeleteBatch w req outcome).2 ∧
      Idle (executeDeleteBatch w req outcome).1 ∧ (executeDeleteBatch w req outcome).1.ini = w.ini := by
  have active := beginStandaloneTxIfNeeded_active w outcome.uuid
  have course := deleteRows_course true active req outcome
  have owns : (beginStandaloneTxIfNeeded w outcome.uuid).2 = true := by rw [begin_idle idle]
  have unaudited_writes : DeleteUnaudited w.ini req outcome →
      ∀ {audited}, deleteAudit (beginStandaloneTxIfNeeded w outcome.uuid).1 req outcome =
        (beginStandaloneTxIfNeeded w outcome.uuid).1.emit audited → writtenBy audited = [] := by
    intro unaudited audited same
    obtain ⟨silent, none, also⟩ := deleteAudit_silent active (by simpa using unaudited)
    rw [emit_cancel (same.symm.trans also), none]
  simp only [executeDeleteBatch, owns]
  cases validated : outcome.validated with
  | false =>
    have ended : (endStandaloneTxIfOwned (beginStandaloneTxIfNeeded w outcome.uuid).1 true) = w := by
      obtain ⟨ini, activeTx, flag, effects⟩ := w
      obtain ⟨noTx, noAudit⟩ := idle
      dsimp only at noTx
      subst noTx
      rfl
    rw [if_pos (by rfl), ended, fresh]
    exact ⟨.inr ⟨rfl, rfl⟩, idle, rfl⟩
  | true =>
    have sound := clean validated
    rw [if_neg (by simp)]
    refine ⟨course.verdict (by simpa using fresh) ?_ ?_ false, course.idle idle false⟩
    · intro rows effects how
      cases how with
      | unprepared => exact .inl rfl
      | statement ready same failed =>
        have none := sound ready
        rw [failed] at none
        obtain ⟨unchanged, unaudited⟩ := none
        rw [unchanged, writtenBy_append, unaudited_writes unaudited same]
        exact .inl rfl
    · intro rows effects how
      cases how with
      | statement ready same ran =>
        have clears := sound ready
        rw [ran] at clears
        rw [beginStandaloneTxIfNeeded_ini]
        refine clears.mono ?_
        rintro ⟨unchanged, unaudited⟩
        rw [unchanged, writtenBy_append, unaudited_writes unaudited same]
        rfl

theorem runRequest_verdict {w : World Row} (idle : Idle w) (fresh : w.effects = [])
    {request : Request Row} (clean : request.Clean w.ini) :
    Verdict (runRequest w request).1.effects (runRequest w request).2 ∧
      Idle (runRequest w request).1 ∧ (runRequest w request).1.ini = w.ini := by
  cases request with
  | insert req outcome snapshot => exact insert_verdict idle fresh snapshot clean
  | update req outcome => exact update_verdict idle fresh clean
  | delete req outcome => exact delete_verdict idle fresh clean

theorem runRequests_verdicts {w : World Row} (idle : Idle w) {requests : List (Request Row)}
    (clean : ∀ request ∈ requests, request.Clean w.ini) :
    ∀ block ∈ runRequests w requests, Verdict block.1 block.2 := by
  induction requests generalizing w with
  | nil => exact fun _ none => by cases none
  | cons request requests ih =>
    obtain ⟨verdict, after, ini⟩ := runRequest_verdict (w := { w with effects := [] })
      ⟨idle.noTx, idle.noAudit⟩ rfl (clean request List.mem_cons_self)
    intro block member
    rcases List.mem_cons.mp member with rfl | later
    · exact verdict
    · refine ih after (fun other within => ?_) block later
      rw [ini]
      exact clean other (List.mem_cons_of_mem _ within)

/-- An insert whose second LOB write fails. -/
def lobFailure : InsertOutcome := { sampleInsert true 2 with lobs := ⟨1, false⟩ }

end OciWrapper.Execute
