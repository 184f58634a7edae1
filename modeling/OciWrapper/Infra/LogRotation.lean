import OciWrapper.Text.Buffers
import OciWrapper.Text.Numerals

namespace OciWrapper.Infra

open OciWrapper.Text

open scoped List

/-- The files of a directory by name. -/
abbrev LogFiles := CString → Option CString

/-- A logger whose file names no other logger has. `maxSize` is `max_size` as it is compared. -/
structure Logger where
  filename : CString
  maxSize : Int
  rotationCount : Int
  level : Int

/-- The names that `rotate_log_if_needed` builds: the file's own for 0. -/
def logName (filename : CString) (i : Nat) : CString :=
  if i = 0 then filename.take 511 else (filename ++ '.' :: decimal i).take 511

def renameFile (files : LogFiles) (oldname newname : CString) : LogFiles :=
  if oldname = newname then files
  else Function.update (Function.update files newname (files oldname)) oldname none

/-- The loop of `rotate_log_if_needed` from `i - 1` down. -/
def rotateFiles (filename : CString) : Nat → LogFiles → LogFiles
  | 0, files => files
  | i + 1, files =>
    rotateFiles filename i
      (if (files (logName filename i)).isSome then
        renameFile files (logName filename i) (logName filename (i + 1))
      else files)

/-- `fopen` for appending; the outcome says whether it gives a stream. -/
def openLog (filename : CString) (files : LogFiles) : LogFiles :=
  Function.update files filename (some ((files filename).getD []))

/-- The files, and whether the logger has its stream. -/
structure LogState where
  files : LogFiles
  file : Bool

def loggerInit (logger : Logger) (files : LogFiles) (opens : Bool) : LogState :=
  ⟨if opens then openLog logger.filename files else files, opens⟩

def rotateLogIfNeeded (logger : Logger) (s : LogState) (opens : Bool) : LogState :=
  match s.file, s.files logger.filename with
  | true, some content =>
    if content.length ≥ logger.maxSize then
      let files := rotateFiles logger.filename logger.rotationCount.toNat s.files
      ⟨if opens then openLog logger.filename files else files, opens⟩
    else s
  | _, _ => s

/-- `fprintf` through the logger's stream; with a NULL stream there is no behaviour. -/
def appendLine (logger : Logger) (s : LogState) (line : CString) : Option LogState :=
  if s.file then
    some { s with
      files := Function.update s.files logger.filename
        (some ((s.files logger.filename).getD [] ++ line)) }
  else none

def logDebug : Int := 0
def logInfo : Int := 1
def logWarn : Int := 2
def logError : Int := 3

def levelStr (level : Int) : CString :=
  if level = logDebug then "DEBUG".toList
  else if level = logInfo then "INFO".toList
  else if level = logWarn then "WARN".toList
  else if level = logError then "ERROR".toList
  else "INFO".toList

/-- What a call is given and finds: the time as text and its microseconds, the thread's number and
its trace context, and the formatted message. -/
structure LogCall where
  level : Int
  func : CString
  text : CString
  time : CString
  micros : Nat
  worker : Int
  traced : Bool
  sid : CString
  txid : CString

def traceContext (call : LogCall) : CString :=
  if call.traced then
    if call.sid ≠ [] ∧ call.txid ≠ [] then
      " sid=".toList ++ call.sid ++ " txid=".toList ++ call.txid
    else if call.sid ≠ [] then " sid=".toList ++ call.sid
    else if call.txid ≠ [] then " txid=".toList ++ call.txid
    else []
  else []

def logMsg (call : LogCall) : CString := strncat 4096 (call.text.take 4095) (traceContext call)

def logLine (call : LogCall) : CString :=
  let micros := decimal call.micros
  call.time ++ '.' :: List.replicate (6 - micros.length) '0' ++ micros ++ " [".toList ++
    levelStr call.level ++ "] [T".toList ++ decimal call.worker ++ "] [".toList ++ call.func ++
    "] ".toList ++ logMsg call ++ ['\n']

/-- A call of `logger_write`, or an error of a logger whose `error_logger` this one is. -/
inductive LogEvent where
  | write (call : LogCall) (opens : Bool)
  | mirror (call : LogCall)

/-- The line that comes to the logger's file. -/
def LogEvent.line (logger : Logger) : LogEvent → CString
  | .write call _ => if call.level < logger.level then [] else logLine call
  | .mirror call => logLine call

def LogEvent.opens : LogEvent → Bool
  | .write _ opens => opens
  | .mirror _ => true

def loggerWrite (logger : Logger) (s : LogState) (call : LogCall) (opens : Bool) :
    Option LogState :=
  if s.file then
    if call.level < logger.level then some s
    else appendLine logger (rotateLogIfNeeded logger s opens) (logLine call)
  else some s

namespace LogState

def step (logger : Logger) (s : LogState) : LogEvent → Option LogState
  | .write call opens => loggerWrite logger s call opens
  | .mirror call => appendLine logger s (logLine call)

def run (logger : Logger) (s : LogState) (events : List LogEvent) : Option LogState :=
  events.foldlM (step logger) s

end LogState

/-- The content of the files from the oldest, number `n`, to the logger's own. -/
def logHistory (filename : CString) (files : LogFiles) : Nat → CString
  | 0 => (files (logName filename 0)).getD []
  | n + 1 => (files (logName filename (n + 1))).getD [] ++ logHistory filename files n

section Rotation

variable {filename : CString} {files : LogFiles} {last : Nat}

/-- No two of the names up to `last` are one. -/
def NamesApart (filename : CString) (last : Nat) : Prop :=
  ∀ i j, i ≤ last → j ≤ last → logName filename i = logName filename j → i = j

theorem apart_of_fits
    (fits : ∀ i, 1 ≤ i → i ≤ last → (filename ++ '.' :: decimal i).length < 512)
    (short : filename.length < 512) : NamesApart filename last := by
  have shown : ∀ i, i ≤ last → logName filename i =
      if i = 0 then filename else filename ++ '.' :: decimal i := by
    intro i inside
    unfold logName
    split
    · exact List.take_of_length_le (by omega)
    · have room := fits i (by omega) inside
      exact List.take_of_length_le (by omega)
  intro i j insideI insideJ same
  rw [shown i insideI, shown j insideJ] at same
  by_cases zeroI : i = 0
  · by_cases zeroJ : j = 0
    · rw [zeroI, zeroJ]
    · rw [if_pos zeroI, if_neg zeroJ] at same
      have lengths := congrArg List.length same
      simp at lengths
  · by_cases zeroJ : j = 0
    · rw [if_neg zeroI, if_pos zeroJ] at same
      have lengths := congrArg List.length same
      simp at lengths
    · rw [if_neg zeroI, if_neg zeroJ] at same
      have digits := (List.cons.inj (List.append_cancel_left same)).2
      have numbers := congrArg atol digits
      rw [atol_decimal, atol_decimal] at numbers
      omega

theorem rename_at (apart : NamesApart filename last) {i k : Nat} (inside : i + 1 ≤ last)
    (bound : k ≤ last) :
    renameFile files (logName filename i) (logName filename (i + 1)) (logName filename k) =
      if k = i then none
      else if k = i + 1 then files (logName filename i) else files (logName filename k) := by
  have different : logName filename i ≠ logName filename (i + 1) := fun same =>
    absurd (apart i (i + 1) (by omega) inside same) (by omega)
  have names : ∀ j, j ≤ last → (logName filename k = logName filename j ↔ k = j) := fun j inside =>
    ⟨apart k j bound inside, fun same => same ▸ rfl⟩
  rw [renameFile, if_neg different]
  simp only [Function.update_apply, names i (by omega), names (i + 1) inside]

theorem logHistory_congr {other : LogFiles} (n : Nat)
    (same : ∀ k, k ≤ n →
      (files (logName filename k)).getD [] = (other (logName filename k)).getD []) :
    logHistory filename files n = logHistory filename other n := by
  induction n with
  | zero => rw [logHistory, logHistory, same 0 (Nat.le_refl 0)]
  | succ n ih =>
    rw [logHistory, logHistory, same (n + 1) (Nat.le_refl _),
      ih fun k bound => same k (Nat.le_succ_of_le bound)]

/-- The loop from `n` down leaves the files behind `n` alone. -/
theorem rotateFiles_behind (apart : NamesApart filename last) (n : Nat) :
    ∀ (files : LogFiles), n ≤ last → ∀ k, n < k → k ≤ last →
      rotateFiles filename n files (logName filename k) = files (logName filename k) := by
  induction n with
  | zero =>
    intro files _ k _ _
    rfl
  | succ n ih =>
    intro files inside k behind bound
    rw [rotateFiles, ih _ (by omega) k (by omega) bound]
    split
    · rw [rename_at apart inside bound, if_neg (by omega), if_neg (by omega)]
    · rfl

theorem rotateFiles_other {name : CString} (n : Nat) :
    ∀ files : LogFiles, (∀ k, k ≤ n → name ≠ logName filename k) →
      rotateFiles filename n files name = files name := by
  induction n with
  | zero =>
    intro files _
    rfl
  | succ n ih =>
    intro files foreign
    rw [rotateFiles, ih _ fun k bound => foreign k (Nat.le_succ_of_le bound)]
    split
    · unfold renameFile
      split
      · rfl
      · rw [Function.update_of_ne (foreign n (Nat.le_succ n)),
          Function.update_of_ne (foreign (n + 1) (Nat.le_refl _))]
    · rfl

/-- What the files behind `n` are given comes from before the loop. -/
theorem rotateFiles_from (apart : NamesApart filename last) (n : Nat) :
    ∀ (files : LogFiles), n ≤ last → ∀ k content, k ≤ last →
      rotateFiles filename n files (logName filename k) = some content →
      ∃ j, j ≤ k ∧ files (logName filename j) = some content := by
  induction n with
  | zero =>
    intro files _ k content _ found
    exact ⟨k, Nat.le_refl k, found⟩
  | succ n ih =>
    intro files inside k content bound found
    rw [rotateFiles] at found
    obtain ⟨j, before, found⟩ := ih _ (by omega) k content bound found
    split at found
    · rw [rename_at apart inside (by omega)] at found
      split at found
      · cases found
      · split at found
        · exact ⟨n, by omega, found⟩
        · exact ⟨j, before, found⟩
    · exact ⟨j, before, found⟩

/-- With no file `n`, the loop from `n` down moves the files and loses nothing. -/
theorem rotateFiles_keeps (apart : NamesApart filename last) (n : Nat) :
    ∀ (files : LogFiles), n ≤ last → files (logName filename n) = none →
      logHistory filename (rotateFiles filename n files) n = logHistory filename files n := by
  induction n with
  | zero =>
    intro files _ _
    rfl
  | succ n ih =>
    intro files inside absent
    rw [logHistory, logHistory, absent, rotateFiles,
      rotateFiles_behind apart n _ (by omega) (n + 1) (by omega) inside]
    cases present : files (logName filename n) with
    | none =>
      rw [if_neg (by simp), absent, ih files (by omega) present]
    | some content =>
      have moved : ∀ k, k ≤ last →
          renameFile files (logName filename n) (logName filename (n + 1)) (logName filename k) =
            if k = n then none
            else if k = n + 1 then some content else files (logName filename k) := by
        intro k bound
        rw [rename_at apart inside bound, present]
      rw [if_pos (by simp), ih _ (by omega) (by rw [moved n (by omega), if_pos rfl]),
        moved (n + 1) inside, if_neg (by omega), if_pos rfl]
      cases n with
      | zero => simp [logHistory, moved 0 (by omega), present]
      | succ n =>
        rw [logHistory, logHistory, moved (n + 1) (by omega), if_pos rfl, present]
        have same : logHistory filename
            (renameFile files (logName filename (n + 1)) (logName filename (n + 2))) n =
            logHistory filename files n := by
          refine logHistory_congr n fun k bound => ?_
          rw [moved k (by omega), if_neg (by omega), if_neg (by omega)]
        rw [same]
        rfl

/-- What has the name that a file is given is not read. -/
theorem renameFile_behind (oldname newname : CString) (different : oldname ≠ newname) :
    renameFile (Function.update files newname none) oldname newname =
      renameFile files oldname newname := by
  rw [renameFile, renameFile, if_neg different, if_neg different, Function.update_idem,
    Function.update_of_ne different]

variable (files) in
/-- A rotation drops nothing but the last file, and that only when a file takes its name. -/
theorem rotateFiles_history (apart : NamesApart filename last) :
    ∃ dropped, logHistory filename files last =
        dropped ++ logHistory filename (rotateFiles filename last files) last ∧
      (dropped = [] ∨
        last ≠ 0 ∧ (rotateFiles filename last files (logName filename last)).isSome) ∧
      ((files (logName filename last)).isSome → last ≠ 0 →
        (rotateFiles filename last files (logName filename last)).isSome) := by
  cases last with
  | zero => exact ⟨[], rfl, Or.inl rfl, fun _ numbered => absurd rfl numbered⟩
  | succ n =>
    have top := rotateFiles_behind apart n
      (if (files (logName filename n)).isSome then
        renameFile files (logName filename n) (logName filename (n + 1)) else files)
      (by omega) (n + 1) (by omega) (Nat.le_refl _)
    cases present : files (logName filename n) with
    | none =>
      rw [present, if_neg (by simp)] at top
      refine ⟨[], ?_, Or.inl rfl, fun some _ => ?_⟩
      · rw [List.nil_append, logHistory, logHistory, rotateFiles, present, if_neg (by simp), top,
          rotateFiles_keeps apart n files (by omega) present]
      · rw [rotateFiles, present, if_neg (by simp), top]
        exact some
    | some content =>
      have different : logName filename n ≠ logName filename (n + 1) := fun same =>
        absurd (apart n (n + 1) (by omega) (Nat.le_refl _) same) (by omega)
      have overwritten : rotateFiles filename (n + 1)
          (Function.update files (logName filename (n + 1)) none) =
          rotateFiles filename (n + 1) files := by
        rw [rotateFiles, rotateFiles, Function.update_of_ne different,
          renameFile_behind _ _ different, if_pos (by simp [present]), if_pos (by simp [present])]
      have keeps := rotateFiles_keeps apart (n + 1)
        (Function.update files (logName filename (n + 1)) none) (Nat.le_refl _)
        (Function.update_self ..)
      have below : logHistory filename (Function.update files (logName filename (n + 1)) none) n =
          logHistory filename files n := by
        refine logHistory_congr n fun k bound => ?_
        rw [Function.update_of_ne fun same =>
          absurd (apart k (n + 1) (by omega) (Nat.le_refl _) same) (by omega)]
      have taken : rotateFiles filename (n + 1) files (logName filename (n + 1)) =
          some content := by
        rw [present, if_pos (by simp), rename_at apart (Nat.le_refl _) (Nat.le_refl _),
          if_neg (by omega), if_pos rfl, present] at top
        rw [rotateFiles, present, if_pos (by simp), top]
      rw [overwritten] at keeps
      refine ⟨(files (logName filename (n + 1))).getD [], ?_, Or.inr ⟨by omega, ?_⟩, fun _ _ => ?_⟩
      · rw [keeps, logHistory, logHistory, Function.update_self, below]
        rfl
      · rw [taken]
        rfl
      · rw [taken]
        rfl

theorem logName_zero (short : filename.length < 512) : logName filename 0 = filename := by
  rw [logName, if_pos rfl]
  exact List.take_of_length_le (by omega)

variable (files) in
/-- The own file of the logger, with a name that is none of the others. -/
theorem logHistory_own (apart : NamesApart filename last) (short : filename.length < 512)
    (content line : CString) (found : (files filename).getD [] = content) (n : Nat)
    (inside : n ≤ last) :
    logHistory filename (Function.update files filename (some (content ++ line))) n =
      logHistory filename files n ++ line := by
  have own := logName_zero short
  induction n with
  | zero =>
    rw [logHistory, logHistory, own, Function.update_self, found]
    rfl
  | succ n ih =>
    have different : logName filename (n + 1) ≠ filename := fun same =>
      absurd (apart (n + 1) 0 inside (Nat.zero_le _) (same.trans own.symm)) (by omega)
    rw [logHistory, logHistory, Function.update_of_ne different, ih (by omega), List.append_assoc]

end Rotation

section Lines

variable {logger : Logger} {files : LogFiles} {s : LogState} {lines : CString}

/-- How many files a rotation moves. -/
def Logger.last (logger : Logger) : Nat := logger.rotationCount.toNat

/-- Every file but the logger's own is as long as a file must be to be moved. -/
def Logger.Full (logger : Logger) (files : LogFiles) : Prop :=
  ∀ k content, 1 ≤ k → k ≤ logger.last → files (logName logger.filename k) = some content →
    logger.maxSize ≤ content.length

/-- What the files hold after the lines; a text is lost only from the front, and only when a file
has the last name. The files with other names stay. -/
structure LogKept (logger : Logger) (files : LogFiles) (s : LogState) (lines : CString) : Prop where
  file : s.file = true
  present : (s.files logger.filename).isSome
  kept : ∃ dropped, logHistory logger.filename files logger.last ++ lines =
      dropped ++ logHistory logger.filename s.files logger.last ∧
    (dropped = [] ∨
      logger.last ≠ 0 ∧ (s.files (logName logger.filename logger.last)).isSome)
  full : logger.Full files → logger.Full s.files
  others : ∀ name, (∀ k, k ≤ logger.last → name ≠ logName logger.filename k) →
    s.files name = files name

variable (apart : NamesApart logger.filename logger.last) (short : logger.filename.length < 512)

include apart short

theorem update_numbered {k : Nat} (numbered : k ≠ 0) (inside : k ≤ logger.last)
    (content : Option CString) :
    Function.update files logger.filename content (logName logger.filename k) =
      files (logName logger.filename k) := by
  refine Function.update_of_ne (fun same => numbered ?_) _ _
  exact apart k 0 inside (Nat.zero_le _) (same.trans (logName_zero short).symm)

omit apart in
/-- A name that is none of the logger's is not its file's. -/
theorem foreign_own {name : CString}
    (foreign : ∀ k, k ≤ logger.last → name ≠ logName logger.filename k) :
    name ≠ logger.filename := by
  have own := foreign 0 (Nat.zero_le _)
  rwa [logName_zero short] at own

theorem LogKept.append (keeps : LogKept logger files s lines) (line : CString) :
    ∃ after, appendLine logger s line = some after ∧
      LogKept logger files after (lines ++ line) := by
  refine ⟨_, if_pos keeps.file, keeps.file, ?_, ?_, fun before => ?_, fun name foreign => ?_⟩
  · dsimp only
    rw [Function.update_self]
    rfl
  · obtain ⟨dropped, all, lost⟩ := keeps.kept
    refine ⟨dropped, ?_, ?_⟩
    · rw [logHistory_own s.files apart short _ line rfl _ (Nat.le_refl _), ← List.append_assoc,
        ← List.append_assoc, all]
    · rcases lost with none | ⟨numbered, present⟩
      · exact Or.inl none
      · refine Or.inr ⟨numbered, ?_⟩
        dsimp only
        rw [update_numbered apart short numbered (Nat.le_refl _)]
        exact present
  · intro k content first inside found
    dsimp only at found
    rw [update_numbered apart short (by omega) inside] at found
    exact keeps.full before k content first inside found
  · exact (Function.update_of_ne (foreign_own short foreign) _ _).trans (keeps.others name foreign)

/-- A file is moved only when it has the size for it. -/
theorem LogKept.rotate (keeps : LogKept logger files s lines) :
    LogKept logger files (rotateLogIfNeeded logger s true) lines := by
  obtain ⟨content, found⟩ := Option.isSome_iff_exists.mp keeps.present
  unfold rotateLogIfNeeded
  rw [keeps.file, found]
  dsimp only
  split
  · rename_i large
    obtain ⟨dropped, all, lost⟩ := keeps.kept
    obtain ⟨more, moved, lostMore, stays⟩ := rotateFiles_history s.files apart
    refine ⟨rfl, ?_, ?_, fun before => ?_, fun name foreign => ?_⟩
    · dsimp only
      rw [if_pos rfl, openLog, Function.update_self]
      rfl
    · have opened : logHistory logger.filename (openLog logger.filename
          (rotateFiles logger.filename logger.last s.files)) logger.last =
          logHistory logger.filename (rotateFiles logger.filename logger.last s.files)
            logger.last := by
        have same := logHistory_own
          (rotateFiles logger.filename logger.last s.files) apart short _ [] rfl _ (Nat.le_refl _)
        rw [List.append_nil, List.append_nil] at same
        exact same
      refine ⟨dropped ++ more, ?_, ?_⟩
      · rw [all, moved, List.append_assoc]
        exact congrArg (dropped ++ ·) (congrArg (more ++ ·) opened.symm)
      · by_cases none : dropped ++ more = []
        · exact Or.inl none
        · refine Or.inr ?_
          have last : logger.last ≠ 0 ∧ (rotateFiles logger.filename logger.last s.files
              (logName logger.filename logger.last)).isSome := by
            rcases lost with rfl | ⟨numbered, present⟩
            · exact lostMore.resolve_left none
            · exact ⟨numbered, stays present numbered⟩
          refine ⟨last.1, ?_⟩
          dsimp only
          rw [if_pos rfl, openLog, update_numbered apart short last.1 (Nat.le_refl _)]
          exact last.2
    · intro k moved first inside filled
      dsimp only at filled
      rw [if_pos rfl, openLog, update_numbered apart short (by omega) inside] at filled
      obtain ⟨j, behind, source⟩ :=
        rotateFiles_from apart _ s.files (Nat.le_refl _) k moved inside filled
      by_cases zero : j = 0
      · rw [zero, logName_zero short, found] at source
        cases source
        exact large
      · exact keeps.full before j moved (by omega) (by omega) source
    · dsimp only
      rw [if_pos rfl, openLog, Function.update_of_ne (foreign_own short foreign)]
      exact (rotateFiles_other _ s.files foreign).trans (keeps.others name foreign)
  · exact keeps

theorem LogKept.step (keeps : LogKept logger files s lines) {event : LogEvent} {after : LogState}
    (went : s.step logger event = some after) :
    LogKept logger files after (lines ++ event.line logger) := by
  cases event with
  | write call opens =>
    simp only [LogState.step, loggerWrite, keeps.file, if_true] at went
    split at went
    · rename_i low
      cases went
      rw [LogEvent.line, if_pos low, List.append_nil]
      exact keeps
    · rename_i high
      rw [LogEvent.line, if_neg high]
      have rotated : rotateLogIfNeeded logger s opens = rotateLogIfNeeded logger s true := by
        cases opens with
        | true => rfl
        | false =>
          obtain ⟨content, found⟩ := Option.isSome_iff_exists.mp keeps.present
          by_cases large : content.length ≥ logger.maxSize
          · -- without a stream the line that follows has no behaviour
            simp [rotateLogIfNeeded, keeps.file, found, large, appendLine] at went
          · simp [rotateLogIfNeeded, keeps.file, found, large]
      rw [rotated] at went
      obtain ⟨next, appended, kept⟩ := (keeps.rotate apart short).append apart short (logLine call)
      cases appended.symm.trans went
      exact kept
  | mirror call =>
    obtain ⟨next, appended, kept⟩ := keeps.append apart short (logLine call)
    cases appended.symm.trans went
    exact kept

theorem LogKept.run (keeps : LogKept logger files s lines) {events : List LogEvent}
    {after : LogState} (ran : s.run logger events = some after) :
    LogKept logger files after (lines ++ (events.map (·.line logger)).flatten) := by
  induction events generalizing s lines with
  | nil =>
    cases ran
    simpa using keeps
  | cons event events ih =>
    obtain ⟨next, went, ran⟩ := Option.bind_eq_some_iff.mp ran
    have kept := ih (keeps.step apart short went) ran
    rw [List.append_assoc] at kept
    simpa using kept

theorem LogKept.goes (keeps : LogKept logger files s lines) (event : LogEvent)
    (opens : event.opens = true) : ∃ after, s.step logger event = some after := by
  cases event with
  | write call opens' =>
    cases opens
    simp only [LogState.step, loggerWrite, keeps.file, if_true]
    split
    · exact ⟨s, rfl⟩
    · obtain ⟨after, appended, -⟩ :=
        (keeps.rotate apart short).append apart short (logLine call)
      exact ⟨after, appended⟩
  | mirror call =>
    obtain ⟨after, appended, -⟩ := keeps.append apart short (logLine call)
    exact ⟨after, appended⟩

/-- As long as the log opens again, the logger goes on. -/
theorem LogKept.goesOn (keeps : LogKept logger files s lines) {events : List LogEvent}
    (opens : ∀ event ∈ events, event.opens = true) : (s.run logger events).isSome := by
  induction events generalizing s lines with
  | nil => rfl
  | cons event events ih =>
    obtain ⟨next, went⟩ := keeps.goes apart short event (opens event List.mem_cons_self)
    have later := ih (keeps.step apart short went) fun e member =>
      opens e (List.mem_cons_of_mem _ member)
    simpa [LogState.run, went] using later

variable (files) in
theorem loggerInit_keeps : LogKept logger files (loggerInit logger files true) [] := by
  refine ⟨rfl, ?_, ⟨[], ?_, Or.inl rfl⟩, fun before => ?_, fun name foreign => ?_⟩
  · simp [loggerInit, openLog]
  · have same := logHistory_own files apart short _ [] rfl _ (Nat.le_refl _)
    rw [List.append_nil] at same
    rw [List.nil_append, ← same]
    simp [loggerInit, openLog]
  · intro k content first inside found
    simp only [loggerInit, if_true, openLog] at found
    rw [update_numbered apart short (by omega) inside] at found
    exact before k content first inside found
  · exact Function.update_of_ne (foreign_own short foreign) _ _

end Lines

/-- In every run of a logger whose rotated names are not cut. -/
theorem log_files_keep_lines (logger : Logger) (files : LogFiles) (events : List LogEvent)
    (fits : ∀ i : Nat, i ≤ logger.rotationCount.toNat →
      (logger.filename ++ '.' :: decimal i).length < 512) :
    (∀ after, (loggerInit logger files true).run logger events = some after →
      LogKept logger files after (events.map (·.line logger)).flatten) ∧
    ((∀ event ∈ events, event.opens = true) →
      ((loggerInit logger files true).run logger events).isSome) := by
  have short : logger.filename.length < 512 := by
    have first := fits 0 (Nat.zero_le _)
    rw [List.length_append] at first
    omega
  have apart : NamesApart logger.filename logger.last :=
    apart_of_fits (fun i _ inside => fits i inside) short
  have keeps := loggerInit_keeps files apart short
  refine ⟨fun after ran => ?_, keeps.goesOn apart short⟩
  have kept := keeps.run apart short ran
  rwa [List.nil_append] at kept

/-- A logger that keeps one file besides its own. -/
def smallLogger : Logger := ⟨"a".toList, 10, 1, logInfo⟩

def shortCall : LogCall := ⟨logError, ['f'], ['x'], ['0'], 0, 0, false, [], []⟩

def shortCalls : List LogEvent :=
  [.write shortCall true, .mirror shortCall, .write shortCall true]

theorem log_files_keep_lines_shortCalls :
    (∀ after, (loggerInit smallLogger (fun _ => none) true).run smallLogger shortCalls =
        some after →
      LogKept smallLogger (fun _ => none) after
        (shortCalls.map (·.line smallLogger)).flatten) ∧
    ((∀ event ∈ shortCalls, event.opens = true) →
      ((loggerInit smallLogger (fun _ => none) true).run smallLogger shortCalls).isSome) :=
  log_files_keep_lines smallLogger (fun _ => none) shortCalls (by decide)

end OciWrapper.Infra
