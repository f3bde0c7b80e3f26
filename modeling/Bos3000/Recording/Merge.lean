import Bos3000.Callback.Views
import Mathlib.Logic.Function.Basic

-- HandleMerge as a resumable program: at each stage it waits for the answer of one
-- operation on the row, on a local file or on the bucket.
namespace Bos3000.Recording

open Callback (RecordingStatus)

structure RecordingMergeEvent where
  callID : String
  customerID : UserID
  aFilePath : String
  bFilePath : String
  date : String
  deriving DecidableEq, Repr

-- The files that HandleMerge uploads, in order.
inductive Upload
  | merged | a | b
  deriving DecidableEq, Repr

def RecordingMergeEvent.outputPath (event : RecordingMergeEvent) : String :=
  "/tmp/" ++ event.callID ++ "_merged.mp3"

def RecordingMergeEvent.path (event : RecordingMergeEvent) : Upload → String
  | .merged => event.outputPath
  | .a => event.aFilePath
  | .b => event.bFilePath

def RecordingMergeEvent.key (event : RecordingMergeEvent) (upload : Upload) : String :=
  let folder := "recordings/" ++ toString event.customerID ++ "/" ++ event.date ++ "/"
  match upload with
  | .merged => folder ++ event.callID ++ "_merged.mp3"
  | .a => folder ++ event.callID ++ "_a.wav"
  | .b => folder ++ event.callID ++ "_b.wav"

-- The sizes of the local files, and the names of the objects in RecordingsBucket.
structure Files where
  disk : String → Option Nat
  bucket : List String

def Files.setFile (files : Files) (path : String) (size : Option Nat) : Files :=
  { files with disk := Function.update files.disk path size }

-- What HandleMerge writes to callback_calls.
inductive Update
  | failed
  | ready (recordingKey recordingAKey recordingBKey : String)
  deriving DecidableEq, Repr

def Update.status : Update → RecordingStatus
  | .failed => .failed
  | .ready .. => .ready

-- MergeRecordings looks at its inputs and runs ffmpeg; uploadFile reads the file,
-- writes the object and closes it.
inductive Stage
  | stat (path : String) (rest : List String)
  | ffmpeg
  | recordFailed (e : String)
  | read (upload : Upload)
  | write (upload : Upload)
  | close (upload : Upload)
  | recordReady
  | removeOutput
  | returned (error : Option String)
  deriving DecidableEq, Repr

-- `merged` and `broken` are the ends of ffmpeg, which may leave something of its
-- output behind.
inductive Answer
  | ok
  | fault (e : String)
  | merged (size : Nat)
  | broken (e : String) (left : Option Nat)
  deriving DecidableEq, Repr

-- A delivery of an event to HandleMerge.
structure Execution where
  event : RecordingMergeEvent
  stage : Stage
  deriving DecidableEq, Repr

def Execution.start (event : RecordingMergeEvent) : Execution :=
  ⟨event, .stat event.aFilePath [event.bFilePath]⟩

def Upload.next : Upload → Stage
  | .merged => .read .a
  | .a => .read .b
  | .b => .recordReady

-- Without the merged file HandleMerge gives up; a leg it does without.
def Upload.failed (e : String) : Upload → Stage
  | .merged => .returned (some ("upload merged: " ++ e))
  | .a => .read .b
  | .b => .recordReady

-- The next stage, the files after the operation and what it wrote to the row.
def Stage.step (event : RecordingMergeEvent) (files : Files) :
    Stage → Answer → Option (Stage × Files × Option Update)
  | .stat path rest, .ok =>
      match files.disk path with
      | none => none
      | some 0 => some (.recordFailed ("recording file is empty: " ++ path), files, none)
      | some _ =>
          match rest with
          | [] => some (.ffmpeg, files, none)
          | next :: rest => some (.stat next rest, files, none)
  | .stat path _, .fault e =>
      some (.recordFailed ("recording file not found: " ++ path ++ ": " ++ e), files, none)
  | .ffmpeg, .merged size => some (.read .merged, files.setFile event.outputPath (some size), none)
  | .ffmpeg, .broken e left =>
      some (.recordFailed ("ffmpeg merge failed: " ++ e), files.setFile event.outputPath left, none)
  | .recordFailed e, .ok =>
      some (.returned (some ("merge failed for " ++ event.callID ++ ": " ++ e)), files, some .failed)
  | .recordFailed e, .fault _ =>
      some (.returned (some ("merge failed for " ++ event.callID ++ ": " ++ e)), files, none)
  | .read upload, .ok =>
      if (files.disk (event.path upload)).isSome then some (.write upload, files, none) else none
  | .read upload, .fault e =>
      some (upload.failed ("read " ++ event.path upload ++ ": " ++ e), files, none)
  | .write upload, .ok => some (.close upload, files, none)
  | .write upload, .fault e =>
      some (upload.failed ("write " ++ event.key upload ++ ": " ++ e), files, none)
  | .close upload, .ok =>
      some (upload.next, { files with bucket := event.key upload :: files.bucket }, none)
  | .close upload, .fault e =>
      some (upload.failed ("close " ++ event.key upload ++ ": " ++ e), files, none)
  | .recordReady, .ok =>
      some (.removeOutput, files, some (.ready (event.key .merged) (event.key .a) (event.key .b)))
  | .recordReady, .fault e => some (.returned (some ("update recording status: " ++ e)), files, none)
  | .removeOutput, .ok => some (.returned none, files.setFile event.outputPath none, none)
  | .removeOutput, .fault _ => some (.returned none, files, none)
  | _, _ => none

def Execution.step (files : Files) (x : Execution) (a : Answer) :
    Option (Execution × Files × Option Update) :=
  (x.stage.step x.event files a).map fun (stage, files, update) => (⟨x.event, stage⟩, files, update)

-- How HandleMerge ends, once it is past its UPDATE.
def Stage.outcome : Stage → Option RecordingStatus
  | .removeOutput | .returned none => some .ready
  | .returned (some _) => some .failed
  | .stat .. | .ffmpeg | .recordFailed _ | .read _ | .write _ | .close _ | .recordReady => none

-- The UPDATE goes through, if the stage is one.
def Stage.updates : Stage → Answer → Bool
  | .recordFailed _, .fault _ | .recordReady, .fault _ => false
  | _, _ => true

-- The upload of the merged file goes through, if the stage belongs to it.
def Stage.uploads : Stage → Answer → Bool
  | .read upload, .fault _ | .write upload, .fault _ | .close upload, .fault _ => upload ≠ .merged
  | _, _ => true

@[simp] theorem outcome_next (upload : Upload) : upload.next.outcome = none := by
  cases upload <;> rfl

theorem outcome_failed {upload : Upload} (h : upload ≠ .merged) (e : String) : (upload.failed e).outcome = none := by
  cases upload with
  | merged => exact absurd rfl h
  | a | b => rfl

section Step

variable {event : RecordingMergeEvent} {files next : Files} {stage after : Stage} {a : Answer}
  {update : Option Update}

-- From then on HandleMerge does not write the row.
theorem outcome_kept {r : RecordingStatus} (houtcome : stage.outcome = some r)
    (h : stage.step event files a = some (after, next, update)) : after.outcome = some r ∧ update = none := by
  revert h
  fun_cases Stage.step event files stage a <;> intro h <;> cases h <;> simp_all [Stage.outcome]

-- It ends as it wrote the row, where its operations go through.
theorem outcome_written (houtcome : stage.outcome = none) (hupdates : stage.updates a = true)
    (huploads : stage.uploads a = true) (h : stage.step event files a = some (after, next, update)) :
    after.outcome = update.map Update.status := by
  revert h
  fun_cases Stage.step event files stage a <;> intro h <;> cases h
  case case12 | case14 | case16 => exact outcome_failed (by simpa [Stage.uploads] using huploads) _
  case case15 => exact outcome_next _
  all_goals simp_all [Stage.outcome, Stage.updates, Update.status]

-- Without the upload of the merged file it ends, and has written nothing.
theorem outcome_lost (huploads : stage.uploads a = false)
    (h : stage.step event files a = some (after, next, update)) :
    stage.outcome = none ∧ after.outcome = some .failed ∧ update = none := by
  revert h
  fun_cases Stage.step event files stage a <;> intro h <;> cases h <;>
    simp_all [Stage.outcome, Stage.uploads, Upload.failed]

end Step

end Bos3000.Recording
