import OciWrapper.Concurrent.Runs
import OciWrapper.Store.Directory
import OciWrapper.Text.Chars

namespace OciWrapper.Infra

open OciWrapper.Text OciWrapper.Concurrent OciWrapper.Store

inductive Format where
  | xml
  | json
  deriving DecidableEq

/-- A file of `Input_XML` or `Input_JSON`. -/
structure InputFile where
  format : Format
  name : CString
  deriving DecidableEq

/-- The directories of one format. -/
inductive Dir where
  | input
  | processing
  | output
  | error
  deriving DecidableEq

structure Path where
  dir : Dir
  format : Format
  name : CString
  deriving DecidableEq

inductive Content where
  | original (file : InputFile)
  | response (file : InputFile)
  deriving DecidableEq

def InputFile.within (file : InputFile) (dir : Dir) : Path := ⟨dir, file.format, file.name⟩

/-- `write_response_file`'s `<dir>/<filename>.response.<ext>`. -/
def InputFile.responseIn (file : InputFile) (dir : Dir) (isJson : Bool) : Path :=
  ⟨dir, file.format, file.name ++ ".response.".toList ++ (if isJson then "json" else "xml").toList⟩

def destDir (pass : Bool) : Dir := if pass then .output else .error

/-- The error codes of `reject_immediately`. -/
inductive Rejection where
  | fileReadFailed
  | pathTooLong
  | requestObjectAllocFailed
  | queueFull
  deriving DecidableEq

/-- Where `process_directory` stands with the file at hand: before `queue_manager_enqueue_*`, before
the rename to Processing, or before the move of a rejected file. -/
inductive ConsumerAct where
  | reading
  | enqueued
  | rejected
  deriving DecidableEq

/-- Where `worker_thread_main` stands with its request: before `process_xml_file`, before the response
is written, or before the original is moved. -/
inductive WorkerAct where
  | dequeued
  | executed (pass : Bool)
  | answered (pass : Bool)
  deriving DecidableEq

/-- A call of `process_xml_file`; `afterRefusal` says that the file had been answered with
QUEUE_FULL. -/
structure Execution where
  file : InputFile
  afterRefusal : Bool

/-- The directories, the File Consumer's thread, the queues and the workers. -/
structure FileRun (W Q : Type) where
  fs : Path → Option Content
  arrived : List InputFile
  consumer : Option (ConsumerAct × InputFile)
  queues : Q → List InputFile
  worker : W → Option (WorkerAct × InputFile)
  executions : List Execution
  refused : List InputFile

/-- `allowed` and `written` are the outcomes of `rename` and of writing the response file. -/
inductive FileEvent (W Q : Type) where
  | arrive (file : InputFile)
  | read (file : InputFile)
  | enqueue (queue : Q)
  | reject (why : Rejection) (written : Bool)
  | moveToProcessing (allowed : Bool)
  | moveRejected (allowed : Bool)
  | dequeue (worker : W) (queue : Q)
  | execute (worker : W) (pass : Bool)
  | respond (worker : W) (isJson written : Bool)
  | moveOriginal (worker : W) (allowed : Bool)

/-- A `rename` whose source may be missing. -/
def tryRename (allowed : Bool) (fs : Path → Option Content) (source target : Path) :
    Path → Option Content :=
  if allowed && (fs source).isSome then rename fs source target else fs

namespace FileRun

variable {W Q : Type} [DecidableEq W] [DecidableEq Q]

def start : FileRun W Q where
  fs _ := none
  arrived := []
  consumer := none
  queues _ := []
  worker _ := none
  executions := []
  refused := []

/-- A new file, of a name that has not been used, is put into an input directory. -/
def arrive (s : FileRun W Q) (file : InputFile) : FileRun W Q :=
  if file ∈ s.arrived then s
  else
    { s with arrived := s.arrived ++ [file], fs := put s.fs (file.within .input) (.original file) }

/-- A scan pass comes to a file that it finds in an input directory. -/
def read (s : FileRun W Q) (file : InputFile) : FileRun W Q :=
  if s.consumer = none ∧ s.fs (file.within .input) = some (.original file) then
    { s with consumer := some (.reading, file) }
  else s

def enqueue (s : FileRun W Q) (queue : Q) : FileRun W Q :=
  match s.consumer with
  | some (.reading, file) =>
    { s with
      queues := Function.update s.queues queue (s.queues queue ++ [file])
      consumer := some (.enqueued, file) }
  | _ => s

/-- The first half of `reject_immediately`, which takes the response's format from the directory. -/
def reject (s : FileRun W Q) (why : Rejection) (written : Bool) : FileRun W Q :=
  match s.consumer with
  | some (.reading, file) =>
    { s with
      fs := if written then
          put s.fs (file.responseIn .error (file.format = .json)) (.response file)
        else s.fs
      refused := if why = .queueFull then s.refused ++ [file] else s.refused
      consumer := some (.rejected, file) }
  | _ => s

def moveToProcessing (s : FileRun W Q) (allowed : Bool) : FileRun W Q :=
  match s.consumer with
  | some (.enqueued, file) =>
    { s with
      fs := tryRename allowed s.fs (file.within .input) (file.within .processing)
      consumer := none }
  | _ => s

def moveRejected (s : FileRun W Q) (allowed : Bool) : FileRun W Q :=
  match s.consumer with
  | some (.rejected, file) =>
    { s with
      fs := tryRename allowed s.fs (file.within .input) (file.within .error)
      consumer := none }
  | _ => s

def dequeue (s : FileRun W Q) (worker : W) (queue : Q) : FileRun W Q :=
  match s.worker worker, s.queues queue with
  | none, file :: rest =>
    { s with
      queues := Function.update s.queues queue rest
      worker := Function.update s.worker worker (some (.dequeued, file)) }
  | _, _ => s

def execute (s : FileRun W Q) (worker : W) (pass : Bool) : FileRun W Q :=
  match s.worker worker with
  | some (.dequeued, file) =>
    { s with
      executions := s.executions ++ [⟨file, decide (file ∈ s.refused)⟩]
      worker := Function.update s.worker worker (some (.executed pass, file)) }
  | _ => s

/-- The first half of `response_manager_write`. -/
def respond (s : FileRun W Q) (worker : W) (isJson written : Bool) : FileRun W Q :=
  match s.worker worker with
  | some (.executed pass, file) =>
    { s with
      fs := if written then put s.fs (file.responseIn (destDir pass) isJson) (.response file)
        else s.fs
      worker := Function.update s.worker worker (some (.answered pass, file)) }
  | _ => s

/-- `move_original_file`. -/
def moveOriginal (s : FileRun W Q) (worker : W) (allowed : Bool) : FileRun W Q :=
  match s.worker worker with
  | some (.answered pass, file) =>
    { s with
      fs := tryRename allowed s.fs (file.within .processing) (file.within (destDir pass))
      worker := Function.update s.worker worker none }
  | _ => s

def step (s : FileRun W Q) : FileEvent W Q → FileRun W Q
  | .arrive file => s.arrive file
  | .read file => s.read file
  | .enqueue queue => s.enqueue queue
  | .reject why written => s.reject why written
  | .moveToProcessing allowed => s.moveToProcessing allowed
  | .moveRejected allowed => s.moveRejected allowed
  | .dequeue worker queue => s.dequeue worker queue
  | .execute worker pass => s.execute worker pass
  | .respond worker isJson written => s.respond worker isJson written
  | .moveOriginal worker allowed => s.moveOriginal worker allowed

/-- All queues are empty and all workers idle. -/
def Quiet (s : FileRun W Q) : Prop := (∀ queue, s.queues queue = []) ∧ ∀ worker, s.worker worker = none

/-- The original is in Output or Error and nowhere else, its only response beside it. -/
def Settled (s : FileRun W Q) (file : InputFile) : Prop :=
  ∃ pass isJson, places s.fs (.original file) = {file.within (destDir pass)} ∧
    places s.fs (.response file) = {file.responseIn (destDir pass) isJson}

structure Lawful (s : FileRun W Q) : Prop where
  once : (s.executions.map (·.file)).Nodup
  refused : ∀ execution ∈ s.executions, execution.afterRefusal = false
  settled : s.Quiet → ∀ execution ∈ s.executions, s.Settled execution.file

/-- Every rename and every response takes place, on a path with no other file; and a worker moves an
original only when the File Consumer has moved it to Processing. -/
def KeepsFiles (s : FileRun W Q) : FileEvent W Q → Prop
  | .reject _ written => ∀ file, s.consumer = some (.reading, file) → written = true →
    s.fs (file.responseIn .error (file.format = .json)) = none
  | .moveToProcessing allowed => ∀ file, s.consumer = some (.enqueued, file) → allowed = true
  | .moveRejected allowed => ∀ file, s.consumer = some (.rejected, file) →
    allowed = true ∧ s.fs (file.within .error) = none
  | .respond worker isJson written => ∀ pass file, s.worker worker = some (.executed pass, file) →
    written = true ∧ s.fs (file.responseIn (destDir pass) isJson) = none
  | .moveOriginal worker allowed => ∀ pass file, s.worker worker = some (.answered pass, file) →
    allowed = true ∧ s.fs (file.within .processing) = some (.original file) ∧
      s.fs (file.within (destDir pass)) = none
  | _ => True

end FileRun

end OciWrapper.Infra
