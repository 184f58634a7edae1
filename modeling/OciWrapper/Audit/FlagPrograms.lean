import OciWrapper.Concurrent.SharedFlag
import OciWrapper.Execute.BatchModules

namespace OciWrapper.Audit

open OciWrapper.Text OciWrapper.Execute OciWrapper.Concurrent
open FlagProgram (readFlag setFlag)

variable {Row R : Type}

/-! The functions of the audit and of the modules as programs over the flag that
    all threads share; the field of `World` for it stays unused. -/

/-- `insertRows`, from the end of Stage 1 to the label `Cleanup`. -/
def insertRowsProgram (inject : R → Write Row) (audit : World Row → FlagProgram (World Row))
    (owns : Bool) (w : World Row) (req : InsertRequest R) (outcome : InsertOutcome) :
    FlagProgram (World Row × Nat × Bool) :=
  if !insertReady w.ini req.rows.length outcome then pure (w, 0, false)
  else
    match outcome.statement with
    | .failed done => pure (w.emit (writes ((req.rows.take done).map inject)), 0, false)
    | .executed reported =>
      let w := w.emit (writes (req.rows.map inject) ++ lobEffects req.tableName outcome.lobs)
      if !outcome.lobs.ok then pure (w, reported, false)
      else do
        let inProgress ← readFlag
        let w ← if inProgress then pure w else audit w
        let (w, ok) := commitAndRespond w owns req.tableName outcome.completion
        pure (w, reported, ok)

/-- `execute_insert_batch`. -/
def insertBatchProgram (inject : R → Write Row) (audit : World Row → FlagProgram (World Row))
    (w : World Row) (req : InsertRequest R) (outcome : InsertOutcome) :
    FlagProgram (World Row × Bool) :=
  let (w, owns) := beginStandaloneTxIfNeeded w outcome.uuid
  if !outcome.validated then pure (w, false)
  else do
    let reached ← insertRowsProgram inject audit owns w req outcome
    pure (cleanup true owns outcome.completion reached)

/-- The guard both audit functions begin with. -/
def unlessInProgress (w : World Row) (rest : FlagProgram (World Row × Bool)) :
    FlagProgram (World Row × Bool) := do
  let inProgress ← readFlag
  if inProgress then pure (w, true) else rest

/-- `audit_trail_insert` up to the place where its two ways part. -/
def auditEntry (w : World Row) (atr : AuditTrailRequest)
    (rest : FlagProgram (World Row × Bool)) : FlagProgram (World Row × Bool) :=
  unlessInProgress w
    (match auditArguments atr with
    | some result => pure (w, result)
    | none => rest)

/-- `writeAuditRows`; `nested` is the audit of the insert into the audit trail, made
    when that insert finds the flag down. -/
def writeAuditRowsProgram (nested : InsertRequest AuditRow → World Row → FlagProgram (World Row))
    (w : World Row) (fieldCount : Nat) (rows : List AuditRow) (outcome : AuditOutcome) :
    FlagProgram (World Row × Bool) :=
  if !outcome.allocated then pure (w, false)
  else do
    setFlag true
    let (w, ok) ← insertBatchProgram .audit (nested ⟨auditTableName, fieldCount, rows⟩) w
      ⟨auditTableName, fieldCount, rows⟩ outcome.nested
    setFlag false
    pure (w, ok)

/-- The key of the last row of an insert whose audits go on with these outcomes. -/
def lastRowidOf (outcomes : List SnapshotOutcome) : CString :=
  (outcomes.head?.map SnapshotOutcome.lastRowid).getD []

/-- `audit_trail_insert` for an insert, with what each level of audits of audits
    brings; where the list ends nothing can be allocated. -/
def auditTrailInsertSnapshotProgram :
    List SnapshotOutcome → AuditTrailRequest → World Row → FlagProgram (World Row × Bool)
  | [], atr, w => auditEntry w atr (unlessInProgress w (pure (w, false)))
  | outcome :: deeper, atr, w =>
    auditEntry w atr (unlessInProgress w
      (writeAuditRowsProgram
        (fun req inner => do
          let (inner, _) ← auditTrailInsertSnapshotProgram deeper
            (insertAuditRequest inner req (lastRowidOf deeper)) inner
          pure inner)
        w 14 (snapshotRows (auditIdentity w atr) atr outcome.snapshots) outcome.toAuditOutcome))

/-- The call a module makes for the rows it inserted. -/
def insertAuditProgram (outcomes : List SnapshotOutcome) (req : InsertRequest R) (w : World Row) :
    FlagProgram (World Row) := do
  let (w, _) ← auditTrailInsertSnapshotProgram outcomes
    (insertAuditRequest w req (lastRowidOf outcomes)) w
  pure w

/-- `audit_trail_insert` for an update or a delete. -/
def auditTrailInsertProgram (deeper : List SnapshotOutcome) (atr : AuditTrailRequest)
    (outcome : AuditOutcome) (w : World Row) : FlagProgram (World Row × Bool) :=
  auditEntry w atr
    (writeAuditRowsProgram (insertAuditProgram deeper) w 15 (fieldRows (auditIdentity w atr) atr)
      outcome)

def auditRowsProgram (audit : World Row → Nat → FlagProgram (World Row × Bool)) :
    World Row → List Nat → FlagProgram (World Row × Bool)
  | w, [] => pure (w, true)
  | w, br :: rest => do
    let (w, ok) ← audit w br
    let (w, restOk) ← auditRowsProgram audit w rest
    pure (w, ok && restOk)

def auditTrailInsertUpdateProgram (deeper : Nat → List SnapshotOutcome) (w : World Row)
    (atr : AuditTrailRequest) (columns : List SetColumn) (rowCount : Nat) (image : BeforeImage)
    (outcomes : Nat → AuditOutcome) : FlagProgram (World Row × Bool) :=
  auditRowsProgram (fun w br =>
    let changes := rowChanges image columns br
    if changes = [] then pure (w, true)
    else
      auditTrailInsertProgram (deeper br)
        (rowRequest atr updateAction (changes.map FieldChange.field)) (outcomes br) w)
    w (List.range rowCount)

def auditTrailInsertDeleteProgram (deeper : Nat → List SnapshotOutcome) (w : World Row)
    (atr : AuditTrailRequest) (keys : List (CString × CString)) (image : BeforeImage)
    (outcomes : Nat → AuditOutcome) : FlagProgram (World Row × Bool) :=
  auditRowsProgram (fun w br =>
    auditTrailInsertProgram (deeper br)
      (rowRequest atr deleteAction (keys.zipIdx.map fun ((name, dataType), c) =>
        let old := image.get br c
        ⟨name, dataType, some ⟨old.value, old.isNull⟩, none⟩))
      (outcomes br) w)
    w (List.range image.rowCount)

section Sharing

variable {sees : Bool → Bool → Prop}

/-- What a thread emits holds all that it emits alone, in order; it holds nothing
    more when no thread that set the flag sees it down. -/
structure Extends (sees : Bool → Bool → Prop) (alone shared : List (Effect Row)) : Prop where
  kept : alone.Sublist shared
  same : ¬ sees true false → shared = alone

theorem Extends.refl (effects : List (Effect Row)) : Extends sees effects effects :=
  ⟨.refl _, fun _ => rfl⟩

theorem Extends.append {first first' later later' : List (Effect Row)}
    (left : Extends sees first first') (right : Extends sees later later') :
    Extends sees (first ++ later) (first' ++ later') :=
  ⟨left.kept.append right.kept, fun never => by rw [left.same never, right.same never]⟩

/-- The program of an audit that only adds effects. -/
def Emits (sees : Bool → Bool → Prop) (audit : World Row → FlagProgram (World Row)) : Prop :=
  ∀ own w after ended, w.activeTx.isSome = true → FlagProgram.Ends sees own (audit w) after ended →
    ∃ effects, ended = w.emit effects

/-- An insert inside a transaction; it makes no audit call of its own unless it
    sees the flag down. -/
theorem insertBatchProgram_nested {nested : World Row → FlagProgram (World Row)}
    (emits : Emits sees nested) (inject : R → Write Row) {w : World Row}
    (active : w.activeTx.isSome = true) (req : InsertRequest R) (outcome : InsertOutcome)
    {own after : Bool} {ended : World Row × Bool}
    (ends : FlagProgram.Ends sees own (insertBatchProgram inject nested w req outcome) after ended) :
    ∃ effects, ended = (w.emit effects, (nestedInsert inject w.ini req outcome).2) ∧
      (own = true → Extends sees (nestedInsert inject w.ini req outcome).1 effects) := by
  unfold insertBatchProgram at ends
  rw [begin_managed active] at ends
  unfold nestedInsert
  dsimp only at ends
  cases validated : outcome.validated with
  | false =>
    rw [validated, if_pos (by rfl)] at ends
    obtain ⟨-, rfl⟩ := ends.of_pure
    exact ⟨[], by simp, fun _ => by simpa using Extends.refl []⟩
  | true =>
    rw [validated, if_neg (by simp)] at ends
    obtain ⟨mid, reached, rows, cleaned⟩ := ends.of_bind
    obtain ⟨-, rfl⟩ := cleaned.of_pure
    unfold insertRowsProgram at rows
    simp only [Bool.not_true, Bool.false_eq_true, if_false]
    split at rows
    · rename_i unready
      obtain ⟨-, rfl⟩ := rows.of_pure
      rw [if_pos unready, cleanup_managed active]
      exact ⟨[], by simp, fun _ => .refl []⟩
    · rename_i ready
      rw [if_neg ready]
      cases statement : outcome.statement with
      | failed done =>
        rw [statement] at rows
        obtain ⟨-, rfl⟩ := rows.of_pure
        rw [cleanup_managed (by exact active)]
        exact ⟨_, rfl, fun _ => .refl _⟩
      | executed reported =>
        rw [statement] at rows
        dsimp only at rows ⊢
        split at rows
        · rename_i failed
          obtain ⟨-, rfl⟩ := rows.of_pure
          rw [if_pos failed, cleanup_managed (by exact active)]
          exact ⟨_, rfl, fun _ => .refl _⟩
        · rename_i written
          rw [if_neg written]
          obtain ⟨seen, allowed, audited⟩ := rows.of_readFlag
          cases seen with
          | true =>
            rw [if_pos rfl] at audited
            obtain ⟨between, v, audit, rest⟩ := audited.of_bind
            obtain ⟨-, rfl⟩ := rest.of_pure
            obtain ⟨-, rfl⟩ := audit.of_pure
            rw [commitAndRespond_managed (by exact active), cleanup_managed (by exact active),
              World.emit_emit]
            exact ⟨_, rfl, fun _ => .refl _⟩
          | false =>
            rw [if_neg (by simp)] at audited
            obtain ⟨between, v, audit, rest⟩ := audited.of_bind
            obtain ⟨-, rfl⟩ := rest.of_pure
            obtain ⟨extra, rfl⟩ := emits _ _ _ _ (by exact active) audit
            rw [World.emit_emit, commitAndRespond_managed (by exact active),
              cleanup_managed (by exact active), World.emit_emit]
            refine ⟨_, rfl, fun holder => ⟨?_, fun never => absurd (holder ▸ allowed) never⟩⟩
            exact (List.sublist_append_left _ extra).append (.refl _)

theorem writeAuditRowsProgram_extends
    {nested : InsertRequest AuditRow → World Row → FlagProgram (World Row)}
    (emits : ∀ req, Emits sees (nested req)) {w : World Row} (active : w.activeTx.isSome = true)
    {fieldCount : Nat} {rows : List AuditRow} {outcome : AuditOutcome} {own after : Bool}
    {ended : World Row × Bool}
    (ends : FlagProgram.Ends sees own (writeAuditRowsProgram nested w fieldCount rows outcome)
      after ended) :
    (own = false → after = false) ∧ ∃ effects,
      ended = (w.emit effects,
        (auditEffects w.ini fieldCount rows outcome : List (Effect Row) × Bool).2) ∧
      Extends sees (auditEffects w.ini fieldCount rows outcome).1 effects := by
  unfold writeAuditRowsProgram at ends
  unfold auditEffects
  split at ends
  · rename_i unallocated
    obtain ⟨rfl, rfl⟩ := ends.of_pure
    rw [if_pos unallocated]
    exact ⟨id, [], by simp, .refl []⟩
  · rename_i allocated
    rw [if_neg allocated]
    obtain ⟨mid, inserted, insert, rest⟩ := (ends.of_setFlag).of_bind
    obtain ⟨rfl, rfl⟩ := (rest.of_setFlag).of_pure
    obtain ⟨effects, rfl, held⟩ := insertBatchProgram_nested (emits _) .audit active _ _ insert
    exact ⟨fun _ => rfl, effects, rfl, held rfl⟩

theorem unlessInProgress_ends {w : World Row} {rest : FlagProgram (World Row × Bool)}
    {own after : Bool} {ended : World Row × Bool}
    (ends : FlagProgram.Ends sees own (unlessInProgress w rest) after ended) :
    sees own true ∧ after = own ∧ ended = (w, true) ∨ FlagProgram.Ends sees own rest after ended := by
  obtain ⟨seen, allowed, next⟩ := ends.of_readFlag
  cases seen with
  | true => exact .inl ⟨allowed, (next : FlagProgram.Ends sees own (pure (w, true)) _ _).of_pure⟩
  | false => exact .inr next

theorem auditEntry_ends {w : World Row} {atr : AuditTrailRequest}
    {rest : FlagProgram (World Row × Bool)} {own after : Bool} {ended : World Row × Bool}
    (ends : FlagProgram.Ends sees own (auditEntry w atr rest) after ended) :
    sees own true ∧ after = own ∧ ended = (w, true) ∨
      (∃ result, auditArguments atr = some result ∧ after = own ∧ ended = (w, result)) ∨
      auditArguments atr = none ∧ FlagProgram.Ends sees own rest after ended := by
  rcases unlessInProgress_ends ends with skipped | entered
  · exact .inl skipped
  · cases arguments : auditArguments atr with
    | some result =>
      rw [arguments] at entered
      exact .inr (.inl ⟨result, rfl, entered.of_pure⟩)
    | none =>
      rw [arguments] at entered
      exact .inr (.inr ⟨rfl, entered⟩)

/-- However often audits of audits find the flag down, they only add effects. -/
theorem auditTrailInsertSnapshotProgram_emits (outcomes : List SnapshotOutcome)
    (atr : AuditTrailRequest) {own after : Bool} {w : World Row} {ended : World Row × Bool}
    (active : w.activeTx.isSome = true)
    (ends : FlagProgram.Ends sees own (auditTrailInsertSnapshotProgram outcomes atr w) after ended) :
    ∃ effects, ended.1 = w.emit effects := by
  induction outcomes generalizing atr own after w ended with
  | nil =>
    unfold auditTrailInsertSnapshotProgram at ends
    rcases auditEntry_ends ends with ⟨-, -, rfl⟩ | ⟨result, -, -, rfl⟩ | ⟨-, entered⟩
    · exact ⟨[], w.emit_nil.symm⟩
    · exact ⟨[], w.emit_nil.symm⟩
    · rcases unlessInProgress_ends entered with ⟨-, -, rfl⟩ | unallocated
      · exact ⟨[], w.emit_nil.symm⟩
      · obtain ⟨-, rfl⟩ := unallocated.of_pure
        exact ⟨[], w.emit_nil.symm⟩
  | cons outcome deeper ih =>
    unfold auditTrailInsertSnapshotProgram at ends
    rcases auditEntry_ends ends with ⟨-, -, rfl⟩ | ⟨result, -, -, rfl⟩ | ⟨-, entered⟩
    · exact ⟨[], w.emit_nil.symm⟩
    · exact ⟨[], w.emit_nil.symm⟩
    · rcases unlessInProgress_ends entered with ⟨-, -, rfl⟩ | written
      · exact ⟨[], w.emit_nil.symm⟩
      · have emits : ∀ req : InsertRequest AuditRow,
            Emits sees (insertAuditProgram deeper req : World Row → FlagProgram (World Row)) := by
          intro req mine v later audited running nested
          obtain ⟨between, inner, call, rest⟩ := nested.of_bind
          obtain ⟨-, rfl⟩ := rest.of_pure
          exact ih _ running call
        obtain ⟨-, effects, rfl, -⟩ := writeAuditRowsProgram_extends emits active written
        exact ⟨effects, rfl⟩

theorem insertAuditProgram_emits (outcomes : List SnapshotOutcome) (req : InsertRequest R) :
    Emits sees (insertAuditProgram outcomes req : World Row → FlagProgram (World Row)) := by
  intro own w after ended active ends
  obtain ⟨between, inner, call, rest⟩ := ends.of_bind
  obtain ⟨-, rfl⟩ := rest.of_pure
  exact auditTrailInsertSnapshotProgram_emits outcomes _ active call

/-- The program does what `audit` does, when the thread does not see the flag up
    before it sets it. -/
def Shares (sees : Bool → Bool → Prop) (program : World Row → FlagProgram (World Row × Bool))
    (audit : World Row → World Row × Bool) : Prop :=
  ∀ (w : World Row) (before : List (Effect Row)) after ended,
    w.auditTrailInProgress = false → w.activeTx.isSome = true →
    FlagProgram.Ends sees false (program { w with effects := before }) after ended →
    after = false ∧ ∃ alone shared, Extends sees alone shared ∧
      audit w = (w.emit alone, ended.2) ∧ ended.1 = { w with effects := before ++ shared }

theorem Shares.skip (ok : Bool) :
    Shares sees (fun w : World Row => pure (w, ok)) fun w => (w, ok) := by
  intro w before after ended idle active ends
  obtain ⟨rfl, rfl⟩ := ends.of_pure
  exact ⟨rfl, [], [], .refl [], by simp, by simp⟩

variable (unseen : ¬ sees false true)
include unseen

theorem auditTrailInsertSnapshot_shares (outcome : SnapshotOutcome)
    (deeper : List SnapshotOutcome) (atr : AuditTrailRequest) :
    Shares sees (auditTrailInsertSnapshotProgram (outcome :: deeper) atr)
      fun w : World Row => auditTrailInsertSnapshot w atr outcome := by
  intro w before after ended idle active ends
  unfold auditTrailInsertSnapshotProgram at ends
  simp only [auditTrailInsertSnapshot, auditGuard_idle idle]
  rcases auditEntry_ends ends with ⟨up, -⟩ | ⟨result, arguments, rfl, rfl⟩ | ⟨arguments, entered⟩
  · exact absurd up unseen
  · rw [arguments]
    exact ⟨rfl, [], [], .refl [], by simp, by simp⟩
  · rw [arguments]
    rcases unlessInProgress_ends entered with ⟨up, -⟩ | written
    · exact absurd up unseen
    · obtain ⟨down, effects, rfl, held⟩ := writeAuditRowsProgram_extends
        (fun req => insertAuditProgram_emits deeper req) (by exact active) written
      exact ⟨down rfl, _, effects, held, writeAuditRows_eq idle active _ _ _, rfl⟩

theorem auditTrailInsert_shares (deeper : List SnapshotOutcome) (atr : AuditTrailRequest)
    (outcome : AuditOutcome) :
    Shares sees (auditTrailInsertProgram deeper atr outcome)
      fun w : World Row => auditTrailInsert w atr outcome := by
  intro w before after ended idle active ends
  unfold auditTrailInsertProgram at ends
  simp only [auditTrailInsert, auditGuard_idle idle]
  rcases auditEntry_ends ends with ⟨up, -⟩ | ⟨result, arguments, rfl, rfl⟩ | ⟨arguments, written⟩
  · exact absurd up unseen
  · rw [arguments]
    exact ⟨rfl, [], [], .refl [], by simp, by simp⟩
  · rw [arguments]
    obtain ⟨down, effects, rfl, held⟩ := writeAuditRowsProgram_extends
      (fun req => insertAuditProgram_emits deeper req) (by exact active) written
    exact ⟨down rfl, _, effects, held, writeAuditRows_eq idle active _ _ _, rfl⟩

omit unseen in
theorem auditRows_shares {program : World Row → Nat → FlagProgram (World Row × Bool)}
    {audit : World Row → Nat → World Row × Bool}
    (each : ∀ br, Shares sees (program · br) (audit · br)) (rows : List Nat) :
    Shares sees (auditRowsProgram program · rows) (auditRows audit · rows) := by
  induction rows with
  | nil => exact .skip true
  | cons br rest ih =>
    intro w before after ended idle active ends
    obtain ⟨mid, ⟨v, ok⟩, call, others⟩ := FlagProgram.Ends.of_bind ends
    obtain ⟨late, ⟨u, restOk⟩, calls, last⟩ := others.of_bind
    obtain ⟨rfl, rfl⟩ := last.of_pure
    obtain ⟨rfl, first, first', here, audited, rfl⟩ := each br w before _ _ idle active call
    obtain ⟨rfl, later, later', there, others, rfl⟩ :=
      ih (w.emit first) (before ++ first') _ _ idle active calls
    refine ⟨rfl, first ++ later, first' ++ later', here.append there, ?_, ?_⟩
    · dsimp only at audited others
      simp only [auditRows, audited, others, World.emit_emit]
    · simp [World.emit]

theorem auditTrailInsertUpdate_shares (deeper : Nat → List SnapshotOutcome)
    (atr : AuditTrailRequest) (columns : List SetColumn) (rowCount : Nat) (image : BeforeImage)
    (outcomes : Nat → AuditOutcome) :
    Shares sees
      (fun w : World Row =>
        auditTrailInsertUpdateProgram deeper w atr columns rowCount image outcomes)
      fun w => auditTrailInsertUpdate w atr columns rowCount image outcomes := by
  apply auditRows_shares
  intro br
  dsimp only
  split
  · exact .skip true
  · exact auditTrailInsert_shares unseen _ _ _

theorem auditTrailInsertDelete_shares (deeper : Nat → List SnapshotOutcome)
    (atr : AuditTrailRequest) (keys : List (CString × CString)) (image : BeforeImage)
    (outcomes : Nat → AuditOutcome) :
    Shares sees
      (fun w : World Row => auditTrailInsertDeleteProgram deeper w atr keys image outcomes)
      fun w => auditTrailInsertDelete w atr keys image outcomes :=
  auditRows_shares (fun _ => auditTrailInsert_shares unseen _ _ _) _

end Sharing

end OciWrapper.Audit
