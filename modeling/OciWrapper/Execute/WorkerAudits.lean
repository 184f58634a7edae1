import OciWrapper.Audit.FlagPrograms
import OciWrapper.Execute.RequestSequence

namespace OciWrapper.Execute

open OciWrapper.Text OciWrapper.Audit OciWrapper.Concurrent
open FlagProgram (readFlag setFlag)

variable {Row R : Type}

def executeInsertBatchProgram (w : World Row) (req : InsertRequest Row) (outcome : InsertOutcome)
    (outcomes : List SnapshotOutcome) : FlagProgram (World Row × Bool) :=
  insertBatchProgram (.row req.tableName) (insertAuditProgram outcomes req) w req outcome

def updateAuditProgram (w : World Row) (req : UpdateRequest) (outcome : UpdateOutcome Row)
    (deeper : Nat → List SnapshotOutcome) (oldValues : Option BeforeImage) :
    FlagProgram (World Row) := do
  let inProgress ← readFlag
  match oldValues with
  | none => pure w
  | some image =>
    if inProgress then pure w
    else do
      let (w, _) ← auditTrailInsertUpdateProgram deeper w (updateAuditRequest w req)
        (setColumns req.fields outcome.metadata) updateRowCount image outcome.audits
      pure w

def updateRowsProgram (owns : Bool) (w : World Row) (req : UpdateRequest)
    (outcome : UpdateOutcome Row) (deeper : Nat → List SnapshotOutcome) :
    FlagProgram (World Row × Nat × Bool) :=
  if !updateSteps.all outcome.prepared then pure (w, 0, false)
  else do
    let inProgress ← readFlag
    let oldValues :=
      if inProgress then none
      else auditTrailFetchBeforeImage (req.fields.map Prod.fst) outcome.beforeImage
    match outcome.statement with
    | .failed changed => pure (w.emit (writes (changed.map (.row req.tableName))), 0, false)
    | .executed changed reported =>
      let w := w.emit (writes (changed.map (.row req.tableName)) ++
        lobEffects req.tableName outcome.lobs)
      if !outcome.lobs.ok then pure (w, reported, false)
      else do
        let w ← updateAuditProgram w req outcome deeper oldValues
        let (w, ok) := commitAndRespond w owns req.tableName outcome.completion
        pure (w, reported, ok)

def executeUpdateBatchProgram (w : World Row) (req : UpdateRequest) (outcome : UpdateOutcome Row)
    (deeper : Nat → List SnapshotOutcome) : FlagProgram (World Row × Bool) :=
  let (w, owns) := beginStandaloneTxIfNeeded w outcome.uuid
  if !outcome.validated then pure (w, false)
  else do
    let reached ← updateRowsProgram owns w req outcome deeper
    pure (cleanup false owns outcome.completion reached)

def deleteAuditProgram (w : World Row) (req : DeleteRequest) (outcome : DeleteOutcome Row)
    (deeper : Nat → List SnapshotOutcome) : FlagProgram (World Row) := do
  let inProgress ← readFlag
  if inProgress then pure w
  else
    match auditTrailFetchBeforeImage (req.keys.map Prod.fst) outcome.beforeImage with
    | none => pure w
    | some image => do
      let (w, _) ← auditTrailInsertDeleteProgram deeper w (deleteAuditRequest w req)
        (keyColumns req.keys outcome.metadata) image outcome.audits
      pure w

def deleteRowsProgram (owns : Bool) (w : World Row) (req : DeleteRequest)
    (outcome : DeleteOutcome Row) (deeper : Nat → List SnapshotOutcome) :
    FlagProgram (World Row × Nat × Bool) :=
  if !deleteSteps.all outcome.prepared then pure (w, 0, false)
  else do
    let w ← deleteAuditProgram w req outcome deeper
    match outcome.statement with
    | .failed changed => pure (w.emit (writes (changed.map (.row req.tableName))), 0, false)
    | .executed changed reported =>
      let w := w.emit (writes (changed.map (.row req.tableName)))
      let (w, ok) := commitAndRespond w owns req.tableName outcome.completion
      pure (w, reported, ok)

def executeDeleteBatchProgram (w : World Row) (req : DeleteRequest) (outcome : DeleteOutcome Row)
    (deeper : Nat → List SnapshotOutcome) : FlagProgram (World Row × Bool) :=
  let (w, owns) := beginStandaloneTxIfNeeded w outcome.uuid
  if !outcome.validated then pure (endStandaloneTxIfOwned w owns, false)
  else do
    let reached ← deleteRowsProgram owns w req outcome deeper
    pure (cleanup false owns outcome.completion reached)

/-- A business request a thread takes from its queue, with what audits of its audits
    would bring. -/
structure Job (Row : Type) where
  request : Request Row
  deeper : Nat → List SnapshotOutcome

/-- What a request leaves behind: the effects it had and its result. -/
abbrev Block (Row : Type) := List (Effect Row) × Bool

def requestProgram (w : World Row) (job : Job Row) : FlagProgram (World Row × Bool) :=
  match job.request with
  | .insert req outcome snapshot =>
    executeInsertBatchProgram w req outcome (snapshot :: job.deeper 0)
  | .update req outcome => executeUpdateBatchProgram w req outcome job.deeper
  | .delete req outcome => executeDeleteBatchProgram w req outcome job.deeper

/-- The request of a job on a thread whose context holds this transaction. -/
def jobProgram (ini : IniConfig) (activeTx : Option TxHandle) (job : Job Row) :
    FlagProgram (Option TxHandle × Block Row) := do
  let (w, ok) ← requestProgram ⟨ini, activeTx, false, []⟩ job
  pure (w.activeTx, w.effects, ok)

/-- The same when no other thread runs. -/
def jobAlone (ini : IniConfig) (activeTx : Option TxHandle) (job : Job Row) :
    Option TxHandle × Block Row :=
  let (w, ok) := runRequest ⟨ini, activeTx, false, []⟩ job.request
  (w.activeTx, w.effects, ok)

variable {sees : Bool → Bool → Prop}

/-- What reaches the label `Cleanup` is the same but for added effects. -/
structure SameButEffects (sees : Bool → Bool → Prop) (alone shared : World Row × Nat × Bool) :
    Prop where
  result : shared.2 = alone.2
  world : shared.1 = { alone.1 with effects := shared.1.effects }
  effects : Extends sees alone.1.effects shared.1.effects

theorem SameButEffects.refl (reached : World Row × Nat × Bool) :
    SameButEffects sees reached reached := ⟨rfl, rfl, .refl _⟩

/-- The end of a request does not depend on what it did before. -/
theorem commitAndRespond_extends (w : World Row) (owns : Bool) (table : CString)
    (completion : Completion) (rows : Nat) {alone shared : List (Effect Row)}
    (held : Extends sees alone shared) :
    SameButEffects sees
      ((commitAndRespond { w with effects := alone } owns table completion).1, rows,
        (commitAndRespond { w with effects := alone } owns table completion).2)
      ((commitAndRespond { w with effects := shared } owns table completion).1, rows,
        (commitAndRespond { w with effects := shared } owns table completion).2) := by
  have same : ∀ effects : List (Effect Row),
      txCommitWithRetry { w with effects := effects } completion.commits w.ini.txMaxRetries =
        (({ w with effects := effects } : World Row).emit
            ((commitAttempts completion.commits w.ini.txMaxRetries.toNat 0).map Effect.commit),
          decide ((commitAttempts completion.commits w.ini.txMaxRetries.toNat 0).getLast? =
            some .ok)) := by
    intro effects
    rfl
  unfold commitAndRespond
  dsimp only
  split
  · exact ⟨rfl, rfl, held.append (.refl _)⟩
  · rw [same, same]
    cases decide ((commitAttempts completion.commits w.ini.txMaxRetries.toNat 0).getLast? =
      some .ok) with
    | false => exact ⟨rfl, rfl, held.append (.refl _)⟩
    | true => exact ⟨rfl, rfl, (held.append (.refl _)).append (.refl _)⟩

theorem cleanup_extends (guarded owns : Bool) (completion : Completion)
    {alone shared : World Row × Nat × Bool} (same : SameButEffects sees alone shared) :
    (cleanup guarded owns completion shared).2 = (cleanup guarded owns completion alone).2 ∧
      (cleanup guarded owns completion shared).1.activeTx =
        (cleanup guarded owns completion alone).1.activeTx ∧
      Extends sees (cleanup guarded owns completion alone).1.effects
        (cleanup guarded owns completion shared).1.effects := by
  obtain ⟨w, rows, ok⟩ := alone
  obtain ⟨v, rows', ok'⟩ := shared
  obtain ⟨result, world, held⟩ := same
  dsimp only at result world held
  obtain ⟨rfl, rfl⟩ := Prod.mk.inj result
  rw [world]
  unfold cleanup endStandaloneTxIfOwned
  dsimp only
  split <;> split <;> first
    | exact ⟨rfl, rfl, held.append (.refl _)⟩
    | exact ⟨rfl, rfl, held⟩

/-- The result is the one of the thread alone, and nothing that it does alone is missing. -/
def Holds (sees : Bool → Bool → Prop) (alone shared : Block Row) : Prop :=
  shared.2 = alone.2 ∧ Extends sees alone.1 shared.1

/-- Each end of the program agrees with the request alone. -/
def RequestAgrees (sees : Bool → Bool → Prop) (program : FlagProgram (World Row × Bool))
    (alone : World Row × Bool) : Prop :=
  ∀ after ended, FlagProgram.Ends sees false program after ended →
    after = false ∧ ended.2 = alone.2 ∧ ended.1.activeTx = alone.1.activeTx ∧
      Extends sees alone.1.effects ended.1.effects

theorem RequestAgrees.of_pure (result : World Row × Bool) :
    RequestAgrees sees (pure result) result := by
  intro after ended ends
  obtain ⟨rfl, rfl⟩ := ends.of_pure
  exact ⟨rfl, rfl, rfl, .refl _⟩

/-- From the rows of a module to its end. -/
theorem requestAgrees_cleanup (guarded owns : Bool) (completion : Completion)
    {program : FlagProgram (World Row × Nat × Bool)} {alone : World Row × Nat × Bool}
    (rows : ∀ after reached, FlagProgram.Ends sees false program after reached →
      after = false ∧ SameButEffects sees alone reached) :
    RequestAgrees sees (do pure (cleanup guarded owns completion (← program)))
      (cleanup guarded owns completion alone) := by
  intro after ended ends
  obtain ⟨mid, reached, first, last⟩ := FlagProgram.Ends.of_bind ends
  obtain ⟨rfl, rfl⟩ := last.of_pure
  obtain ⟨rfl, same⟩ := rows _ _ first
  exact ⟨rfl, cleanup_extends guarded owns completion same⟩

/-- The audit call of a module, whose result it only logs. -/
theorem auditCall_extends {program : World Row → FlagProgram (World Row × Bool)}
    {audit : World Row → World Row × Bool} (shares : Shares sees program audit) {w : World Row}
    (idle : w.auditTrailInProgress = false) (active : w.activeTx.isSome = true) {after : Bool}
    {ended : World Row}
    (ends : FlagProgram.Ends sees false (do let (w, _) ← program w; pure w) after ended) :
    after = false ∧ ∃ alone shared, Extends sees alone shared ∧ (audit w).1 = w.emit alone ∧
      ended = w.emit shared := by
  obtain ⟨mid, ⟨v, ok⟩, call, last⟩ := ends.of_bind
  obtain ⟨rfl, rfl⟩ := last.of_pure
  obtain ⟨rfl, alone, shared, held, audited, rfl⟩ := shares w w.effects _ _ idle active call
  exact ⟨rfl, alone, shared, held, congrArg Prod.fst audited, rfl⟩

section

variable (unseen : ¬ sees false true)
include unseen

theorem insertAudit_extends {w : World Row} (idle : w.auditTrailInProgress = false)
    (active : w.activeTx.isSome = true) (req : InsertRequest R) (snapshot : SnapshotOutcome)
    (deeper : List SnapshotOutcome) {after : Bool} {ended : World Row}
    (ends : FlagProgram.Ends sees false (insertAuditProgram (snapshot :: deeper) req w)
      after ended) :
    after = false ∧ ∃ alone shared, Extends sees alone shared ∧
      (auditTrailInsertSnapshot w (insertAuditRequest w req snapshot.lastRowid) snapshot).1 =
        w.emit alone ∧ ended = w.emit shared :=
  auditCall_extends (auditTrailInsertSnapshot_shares unseen snapshot deeper
    (insertAuditRequest w req snapshot.lastRowid)) idle active ends

theorem insertRows_agrees {w : World Row} (idle : w.auditTrailInProgress = false)
    (active : w.activeTx.isSome = true) (owns : Bool) (req : InsertRequest Row)
    (outcome : InsertOutcome) (snapshot : SnapshotOutcome) (deeper : List SnapshotOutcome)
    {after : Bool} {reached : World Row × Nat × Bool}
    (ends : FlagProgram.Ends sees false (insertRowsProgram (.row req.tableName)
      (insertAuditProgram (snapshot :: deeper) req) owns w req outcome) after reached) :
    after = false ∧ SameButEffects sees
      (insertRows (.row req.tableName) (fun w => (auditTrailInsertSnapshot w
        (insertAuditRequest w req snapshot.lastRowid) snapshot).1) owns w req outcome) reached := by
  unfold insertRowsProgram at ends
  unfold insertRows
  split at ends
  · rename_i unready
    rw [if_pos unready]
    obtain ⟨rfl, rfl⟩ := ends.of_pure
    exact ⟨rfl, .refl _⟩
  · rename_i ready
    rw [if_neg ready]
    cases statement : outcome.statement with
    | failed done =>
      rw [statement] at ends
      obtain ⟨rfl, rfl⟩ := ends.of_pure
      exact ⟨rfl, .refl _⟩
    | executed reported =>
      rw [statement] at ends
      dsimp only at ends ⊢
      split at ends
      · rename_i failed
        rw [if_pos failed]
        obtain ⟨rfl, rfl⟩ := ends.of_pure
        exact ⟨rfl, .refl _⟩
      · rename_i written
        rw [if_neg written]
        obtain ⟨seen, allowed, audited⟩ := ends.of_readFlag
        cases seen with
        | true => exact absurd allowed unseen
        | false =>
          rw [if_neg (by simp)] at audited
          obtain ⟨mid, v, call, last⟩ := audited.of_bind
          obtain ⟨rfl, rfl⟩ := last.of_pure
          obtain ⟨rfl, alone, shared, held, audit, rfl⟩ :=
            insertAudit_extends unseen (by exact idle) (by exact active) req snapshot deeper call
          rw [World.emit_auditTrailInProgress, idle, if_neg (by simp), audit]
          refine ⟨rfl, ?_⟩
          exact commitAndRespond_extends w owns _ _ _
            (.append (.refl (w.effects ++ (writes (req.rows.map (.row req.tableName)) ++
              lobEffects req.tableName outcome.lobs))) held)

theorem updateAudit_extends {w : World Row} (idle : w.auditTrailInProgress = false)
    (active : w.activeTx.isSome = true) (req : UpdateRequest) (outcome : UpdateOutcome Row)
    (deeper : Nat → List SnapshotOutcome) (oldValues : Option BeforeImage) {after : Bool}
    {ended : World Row}
    (ends : FlagProgram.Ends sees false (updateAuditProgram w req outcome deeper oldValues)
      after ended) :
    after = false ∧ ∃ alone shared, Extends sees alone shared ∧
      updateAudit w req outcome oldValues = w.emit alone ∧ ended = w.emit shared := by
  obtain ⟨seen, allowed, audited⟩ := FlagProgram.Ends.of_readFlag ends
  unfold updateAudit
  cases oldValues with
  | none =>
    obtain ⟨rfl, rfl⟩ := FlagProgram.Ends.of_pure audited
    exact ⟨rfl, [], [], .refl [], by simp, by simp⟩
  | some image =>
    cases seen with
    | true => exact absurd allowed unseen
    | false =>
      dsimp only at audited ⊢
      rw [if_neg (by simp)] at audited
      rw [if_neg (by simp [idle])]
      exact auditCall_extends (auditTrailInsertUpdate_shares unseen deeper _ _ _ image
        outcome.audits) idle active audited

theorem updateRows_agrees {w : World Row} (idle : w.auditTrailInProgress = false)
    (active : w.activeTx.isSome = true) (owns : Bool) (req : UpdateRequest)
    (outcome : UpdateOutcome Row) (deeper : Nat → List SnapshotOutcome) {after : Bool}
    {reached : World Row × Nat × Bool}
    (ends : FlagProgram.Ends sees false (updateRowsProgram owns w req outcome deeper) after reached) :
    after = false ∧ SameButEffects sees (updateRows owns w req outcome) reached := by
  unfold updateRowsProgram at ends
  unfold updateRows
  split at ends
  · rename_i unready
    rw [if_pos unready]
    obtain ⟨rfl, rfl⟩ := ends.of_pure
    exact ⟨rfl, .refl _⟩
  · rename_i ready
    rw [if_neg ready]
    obtain ⟨seen, allowed, rest⟩ := ends.of_readFlag
    cases seen with
    | true => exact absurd allowed unseen
    | false =>
      simp only [idle, Bool.false_eq_true, if_false] at rest ⊢
      cases statement : outcome.statement with
      | failed changed =>
        rw [statement] at rest
        obtain ⟨rfl, rfl⟩ := rest.of_pure
        exact ⟨rfl, .refl _⟩
      | executed changed reported =>
        rw [statement] at rest
        dsimp only at rest ⊢
        split at rest
        · rename_i failed
          rw [if_pos failed]
          obtain ⟨rfl, rfl⟩ := rest.of_pure
          exact ⟨rfl, .refl _⟩
        · rename_i written
          rw [if_neg written]
          obtain ⟨mid, v, call, last⟩ := rest.of_bind
          obtain ⟨rfl, rfl⟩ := last.of_pure
          obtain ⟨rfl, alone, shared, held, audit, rfl⟩ :=
            updateAudit_extends unseen (by exact idle) (by exact active) req outcome deeper _ call
          rw [audit]
          refine ⟨rfl, ?_⟩
          exact commitAndRespond_extends w owns _ _ _
            (.append (.refl (w.effects ++ (writes (changed.map (.row req.tableName)) ++
              lobEffects req.tableName outcome.lobs))) held)

theorem deleteAudit_extends {w : World Row} (idle : w.auditTrailInProgress = false)
    (active : w.activeTx.isSome = true) (req : DeleteRequest) (outcome : DeleteOutcome Row)
    (deeper : Nat → List SnapshotOutcome) {after : Bool} {ended : World Row}
    (ends : FlagProgram.Ends sees false (deleteAuditProgram w req outcome deeper) after ended) :
    after = false ∧ ∃ alone shared, Extends sees alone shared ∧
      deleteAudit w req outcome = w.emit alone ∧ ended = w.emit shared := by
  obtain ⟨seen, allowed, audited⟩ := FlagProgram.Ends.of_readFlag ends
  unfold deleteAudit
  rw [if_neg (by simp [idle])]
  cases seen with
  | true => exact absurd allowed unseen
  | false =>
    rw [if_neg (by simp)] at audited
    cases fetched : auditTrailFetchBeforeImage (req.keys.map Prod.fst) outcome.beforeImage with
    | none =>
      rw [fetched] at audited
      obtain ⟨rfl, rfl⟩ := FlagProgram.Ends.of_pure audited
      exact ⟨rfl, [], [], .refl [], by simp, by simp⟩
    | some image =>
      rw [fetched] at audited
      exact auditCall_extends (auditTrailInsertDelete_shares unseen deeper _ _ image
        outcome.audits) idle active audited

theorem deleteRows_agrees {w : World Row} (idle : w.auditTrailInProgress = false)
    (active : w.activeTx.isSome = true) (owns : Bool) (req : DeleteRequest)
    (outcome : DeleteOutcome Row) (deeper : Nat → List SnapshotOutcome) {after : Bool}
    {reached : World Row × Nat × Bool}
    (ends : FlagProgram.Ends sees false (deleteRowsProgram owns w req outcome deeper) after reached) :
    after = false ∧ SameButEffects sees (deleteRows owns w req outcome) reached := by
  unfold deleteRowsProgram at ends
  unfold deleteRows
  split at ends
  · rename_i unready
    rw [if_pos unready]
    obtain ⟨rfl, rfl⟩ := ends.of_pure
    exact ⟨rfl, .refl _⟩
  · rename_i ready
    rw [if_neg ready]
    obtain ⟨mid, v, call, rest⟩ := ends.of_bind
    obtain ⟨rfl, alone, shared, held, audit, rfl⟩ :=
      deleteAudit_extends unseen idle active req outcome deeper call
    dsimp only
    rw [audit]
    have emitted : Extends sees (w.effects ++ alone) (w.effects ++ shared) := .append (.refl _) held
    cases statement : outcome.statement with
    | failed changed =>
      rw [statement] at rest
      obtain ⟨rfl, rfl⟩ := rest.of_pure
      exact ⟨rfl, rfl, rfl, emitted.append (.refl _)⟩
    | executed changed reported =>
      rw [statement] at rest
      obtain ⟨rfl, rfl⟩ := rest.of_pure
      exact ⟨rfl, commitAndRespond_extends w owns _ _ _ (emitted.append (.refl _))⟩

theorem executeInsertBatch_agrees {w : World Row} (idle : w.auditTrailInProgress = false)
    (req : InsertRequest Row) (outcome : InsertOutcome) (snapshot : SnapshotOutcome)
    (deeper : List SnapshotOutcome) :
    RequestAgrees sees (executeInsertBatchProgram w req outcome (snapshot :: deeper))
      (executeInsertBatch w req outcome snapshot) := by
  unfold executeInsertBatchProgram insertBatchProgram executeInsertBatch insertBatch
  dsimp only
  split
  · exact .of_pure _
  · exact requestAgrees_cleanup _ _ _ fun after reached =>
      insertRows_agrees unseen (by simpa using idle)
        (beginStandaloneTxIfNeeded_active w outcome.uuid) _ req outcome snapshot deeper

theorem executeUpdateBatch_agrees {w : World Row} (idle : w.auditTrailInProgress = false)
    (req : UpdateRequest) (outcome : UpdateOutcome Row) (deeper : Nat → List SnapshotOutcome) :
    RequestAgrees sees (executeUpdateBatchProgram w req outcome deeper)
      (executeUpdateBatch w req outcome) := by
  unfold executeUpdateBatchProgram executeUpdateBatch
  dsimp only
  split
  · exact .of_pure _
  · exact requestAgrees_cleanup _ _ _ fun after reached =>
      updateRows_agrees unseen (by simpa using idle)
        (beginStandaloneTxIfNeeded_active w outcome.uuid) _ req outcome deeper

theorem executeDeleteBatch_agrees {w : World Row} (idle : w.auditTrailInProgress = false)
    (req : DeleteRequest) (outcome : DeleteOutcome Row) (deeper : Nat → List SnapshotOutcome) :
    RequestAgrees sees (executeDeleteBatchProgram w req outcome deeper)
      (executeDeleteBatch w req outcome) := by
  unfold executeDeleteBatchProgram executeDeleteBatch
  dsimp only
  split
  · exact .of_pure _
  · exact requestAgrees_cleanup _ _ _ fun after reached =>
      deleteRows_agrees unseen (by simpa using idle)
        (beginStandaloneTxIfNeeded_active w outcome.uuid) _ req outcome deeper

theorem requestProgram_agrees {w : World Row} (idle : w.auditTrailInProgress = false)
    (job : Job Row) : RequestAgrees sees (requestProgram w job) (runRequest w job.request) := by
  obtain ⟨request, deeper⟩ := job
  cases request with
  | insert req outcome snapshot =>
    exact executeInsertBatch_agrees unseen idle req outcome snapshot (deeper 0)
  | update req outcome => exact executeUpdateBatch_agrees unseen idle req outcome deeper
  | delete req outcome => exact executeDeleteBatch_agrees unseen idle req outcome deeper

theorem jobProgram_agrees (ini : IniConfig) :
    Agrees (jobProgram ini) sees (jobAlone ini : Option TxHandle → Job Row → _) (Holds sees) := by
  intro activeTx job after ended ends
  obtain ⟨mid, ⟨w, ok⟩, request, last⟩ := FlagProgram.Ends.of_bind ends
  obtain ⟨rfl, rfl⟩ := last.of_pure
  obtain ⟨rfl, result, context, held⟩ := requestProgram_agrees unseen rfl job _ _ request
  exact ⟨rfl, context, result, held⟩

end

/-- Alone every thread sees what it set last, and does what the module does. -/
theorem jobProgram_alone (ini : IniConfig) (activeTx : Option TxHandle) (job : Job Row)
    {after : Bool} {ended : Option TxHandle × Block Row}
    (ends : FlagProgram.Ends (· = ·) false (jobProgram ini activeTx job) after ended) :
    ended = jobAlone ini activeTx job := by
  have unseen : ¬ (fun own seen : Bool => own = seen) false true := Bool.false_ne_true
  obtain ⟨-, context, result, held⟩ := jobProgram_agrees unseen ini activeTx job after ended ends
  exact Prod.ext context (Prod.ext (held.same (by simp)) result)

/-- A thread sees the flag up only if it set it itself. -/
def SeesOwn (own seen : Bool) : Prop := seen = true → own = true

instance : DecidableRel SeesOwn := fun own seen =>
  inferInstanceAs (Decidable (seen = true → own = true))

/-- If no thread reads the flag outside its own audit insert while another holds it,
    every request does all it does alone, its audit rows included. -/
theorem workers_keep_audits {I : Type} [DecidableEq I] (ini : IniConfig) (jobs : I → List (Job Row))
    {schedule : List I}
    (undisturbed : Workers.AllAllowed (jobProgram ini) SeesOwn
      (.start (fun _ => none) jobs) schedule) (i : I) :
    let blocks := (((Workers.start (fun _ => none) jobs).run (jobProgram ini) schedule).worker
      i).results
    List.Forall₂ (fun alone shared => shared.2 = alone.2 ∧ alone.1.Sublist shared.1)
      ((runAlone (jobAlone ini) none (jobs i)).2.take blocks.length) blocks :=
  (run_agrees (jobProgram_agrees (by simp [SeesOwn]) ini) _ jobs undisturbed i).imp
    fun _ _ same => ⟨same.1, same.2.kept⟩

/-- An audit that is written without trouble. -/
def audited : SnapshotOutcome where
  allocated := true
  nested := sampleInsert true 1
  lastRowid := "AAA".toList
  snapshots := fun _ => "ID=1".toList

def insertJob (row : Nat) : Job Nat :=
  ⟨.insert (insertInto "T" [row]) (sampleInsert true 1) audited, fun _ => []⟩

/-- One thread after the other, each for its job's eight steps. -/
theorem workers_keep_audits_in_turn :
    let blocks := (((Workers.start (fun _ : Bool => none) fun i => [insertJob i.toNat]).run
      (jobProgram sampleIni) (List.replicate 8 false ++ List.replicate 8 true)).worker true).results
    List.Forall₂ (fun alone shared => shared.2 = alone.2 ∧ alone.1.Sublist shared.1)
      ((runAlone (jobAlone sampleIni) none [insertJob 1]).2.take blocks.length) blocks :=
  workers_keep_audits sampleIni (fun i : Bool => [insertJob i.toNat]) (by decide) true

/-- While the first thread is in its audit insert, the second inserts its row
    without an audit row. -/
theorem insert_loses_audit :
    ¬ (∀ (schedule : List Bool) (i : Bool),
      let blocks := (((Workers.start (fun _ => none) fun i : Bool => [insertJob i.toNat]).run
        (jobProgram sampleIni) schedule).worker i).results
      List.Forall₂ (fun alone shared => shared.2 = alone.2 ∧ alone.1.Sublist shared.1)
        ((runAlone (jobAlone sampleIni) none [insertJob i.toNat]).2.take blocks.length) blocks) ∧
    (((Workers.start (fun _ => none) fun i : Bool => [insertJob i.toNat]).run
        (jobProgram sampleIni) (List.replicate 5 false ++ List.replicate 3 true)).worker
      true).results =
      [([.write (.row "T".toList 1), .commit .ok, .invalidate "T".toList], true)] := by
  constructor
  · intro keeps
    have kept := keeps (List.replicate 5 false ++ List.replicate 3 true) true
    have fewer := (List.forall₂_iff_get.mp kept).2 0 (by decide) (by decide)
    exact absurd fewer.2.length_le (by decide)
  · decide

end OciWrapper.Execute
