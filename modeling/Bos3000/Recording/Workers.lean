import Mathlib.Data.List.ReduceOption
import Bos3000.Lib.Pool
import Bos3000.Recording.Api
import Bos3000.Recording.Merge

-- Executions of HandleMerge for the events of all calls, each delivered any number
-- of times, and of CleanupLocalRecordings, interleaving over callback_calls, the
-- local files and the bucket.
namespace Bos3000.Recording

open Callback (CallRecord CallRow CallStore RecordingStatus)

def recordingsDir : String := "/var/lib/freeswitch/recordings"

-- The merge event of each call. finalizeCall publishes one for a call.
structure MergeTopic where
  event : String → RecordingMergeEvent
  callID_eq : ∀ callID, (event callID).callID = callID

structure Archive where
  calls : CallStore
  files : Files

def initArchive : Archive := ⟨⟨Table.empty, fun _ => none, CallStore.owned_empty⟩, ⟨fun _ => none, []⟩⟩

-- An UPDATE of the call with an id.
def Archive.update (s : Archive) (callID : String) (assign : CallRow → CallRow)
    (hid : ∀ row, (assign row).callID = row.callID) (huser : ∀ row, (assign row).call.userID = row.call.userID) :
    Archive :=
  { s with
    calls :=
      { s.calls with
        rows := s.calls.rows.update callID assign hid
        owned := by
          intro id r hactive
          obtain ⟨row, hrow, howns⟩ := s.calls.owned id r hactive
          refine ⟨_, by rw [Table.find_update, hrow, Option.map_some], ?_⟩
          split
          · rw [huser, howns]
          · exact howns } }

def setRecordingStatus (status : Option RecordingStatus) (row : CallRow) : CallRow :=
  { row with call := { row.call with recordingStatus := status } }

theorem setRecordingStatus_callID (status : Option RecordingStatus) (row : CallRow) :
    (setRecordingStatus status row).callID = row.callID := rfl

theorem setRecordingStatus_userID (status : Option RecordingStatus) (row : CallRow) :
    (setRecordingStatus status row).call.userID = row.call.userID := rfl

def Archive.setStatus (s : Archive) (callID : String) (status : Option RecordingStatus) : Archive :=
  s.update callID (setRecordingStatus status) (setRecordingStatus_callID status) (setRecordingStatus_userID status)

theorem mem_setStatus {s : Archive} {callID : String} {status : Option RecordingStatus} {row : CallRow} :
    row ∈ (s.setStatus callID status).calls.rows.rows ↔
      ∃ old ∈ s.calls.rows.rows, row = if old.callID = callID then setRecordingStatus status old else old :=
  @Table.mem_update _ _ _ _ s.calls.rows row callID _ (setRecordingStatus_callID status)

-- The two UPDATEs of HandleMerge.
def Update.assign (row : CallRow) : Update → CallRow
  | .failed => setRecordingStatus (some .failed) row
  | .ready recordingKey recordingAKey recordingBKey =>
      { setRecordingStatus (some .ready) row with
        recordingKey := some recordingKey
        recordingAKey := some recordingAKey
        recordingBKey := some recordingBKey }

theorem assign_callID (update : Update) (row : CallRow) : (update.assign row).callID = row.callID := by
  cases update <;> rfl

theorem assign_userID (update : Update) (row : CallRow) : (update.assign row).call.userID = row.call.userID := by
  cases update <;> rfl

def Archive.apply (s : Archive) (callID : String) (update : Update) : Archive :=
  s.update callID update.assign (assign_callID update) (assign_userID update)

theorem mem_apply {s : Archive} {callID : String} {update : Update} {row : CallRow} :
    row ∈ (s.apply callID update).calls.rows.rows ↔
      ∃ old ∈ s.calls.rows.rows, row = if old.callID = callID then update.assign old else old :=
  @Table.mem_update _ _ _ _ s.calls.rows row callID update.assign (assign_callID update)

theorem find_apply (s : Archive) (callID : String) (update : Update) (id : String) :
    (s.apply callID update).calls.rows.find id =
      (s.calls.rows.find id).map fun row => if id = callID then update.assign row else row :=
  @Table.find_update _ _ _ _ s.calls.rows callID _ (assign_callID update) id

theorem find_setStatus (s : Archive) (callID : String) (status : Option RecordingStatus) (id : String) :
    (s.setStatus callID status).calls.rows.find id =
      (s.calls.rows.find id).map fun row => if id = callID then setRecordingStatus status row else row :=
  @Table.find_update _ _ _ _ s.calls.rows callID _ (setRecordingStatus_callID status) id

inductive Request
  | handleMerge (callID : String)
  | cleanupLocalRecordings
  deriving DecidableEq

inductive Task
  | merge (x : Execution)
  | walking
  | returned
  deriving DecidableEq

-- The walk visits a path below the directory: whether it is a directory, whether it
-- is older than the cutoff, and whether its removal succeeds.
inductive Reply
  | merge (a : Answer)
  | visited (path : String) (isDir old removed : Bool)
  | walked
  deriving DecidableEq

def Request.start (topic : MergeTopic) : Request → Task
  | .handleMerge callID => .merge (.start (topic.event callID))
  | .cleanupLocalRecordings => .walking

def Task.resume (s : Archive) : Task → Reply → Option (Task × Archive)
  | .merge x, .merge a =>
      (x.step s.files a).map fun (next, files, update) =>
        let after := { s with files }
        (.merge next, update.elim after (after.apply x.event.callID))
  | .walking, .visited path isDir old removed =>
      if path.startsWith recordingsDir then
        some (.walking, if !isDir && old && removed then { s with files := s.files.setFile path none } else s)
      else none
  | .walking, .walked => some (.returned, s)
  | _, _ => none

def program (topic : MergeTopic) : Pool.Program Archive Task Request Reply where
  start := Request.start topic
  resume := fun s => Task.resume s

abbrev State := Pool.State Archive Task

-- Next to the executions, calls are inserted and write their recording status, and
-- FreeSWITCH and others write and remove local files.
inductive ArchiveLabel
  | pool (l : Pool.Label Request Reply)
  | insertCall (record : CallRecord)
  | call (callID : String) (status : Option RecordingStatus)
  | disk (path : String) (size : Option Nat)
  deriving DecidableEq

def Archive.insertCall (s : Archive) (record : CallRecord) : Option Archive :=
  match h : s.calls.rows.insert ⟨record, none, none, none⟩ with
  | none => none
  | some rows =>
      some
        { s with
          calls :=
            { s.calls with
              rows
              owned := by
                intro id r hactive
                obtain ⟨row, hrow, howns⟩ := s.calls.owned id r hactive
                have hne : id ≠ CallRow.callID ⟨record, none, none, none⟩ := by
                  rintro rfl
                  rw [(Table.insert_eq_some h).2] at hrow
                  cases hrow
                exact ⟨row, by rw [Table.find_insert h, if_neg hne, hrow], howns⟩ } }

def archiveStep (topic : MergeTopic) (s : State) : ArchiveLabel → Option State
  | .pool l => Pool.step (program topic) s l
  | .insertCall record =>
      if record.call.recordingStatus = none then
        (s.shared.insertCall record).map fun shared => { s with shared }
      else none
  -- insertCall leaves it NULL, startRecording sets recording, and finalizeCall merging
  | .call callID status =>
      if status = some .ready ∨ status = some .failed then none
      else some { s with shared := s.shared.setStatus callID status }
  | .disk path size => some { s with shared := { s.shared with files := s.shared.files.setFile path size } }

def keysOf (row : CallRow) : List String :=
  [row.recordingKey, row.recordingAKey, row.recordingBKey].reduceOption

-- What one step does to the executions, the rows and the bucket.
inductive Changes (topic : MergeTopic) (s : State) : ArchiveLabel → State → Prop
  | start (request : Request) :
      Changes topic s (.pool (.spawn request)) { s with tasks := s.tasks ++ [request.start topic] }
  | merge {i : Nat} {x : Execution} {a : Answer} {stage : Stage} {files : Files} (htask : s.tasks[i]? = some (.merge x))
      (hstep : x.stage.step x.event s.shared.files a = some (stage, files, none)) :
      Changes topic s (.pool (.move i (.merge a)))
        ⟨{ s.shared with files }, s.tasks.set i (.merge ⟨x.event, stage⟩)⟩
  | update {i : Nat} {x : Execution} {a : Answer} {stage : Stage} {files : Files} (update : Update)
      (htask : s.tasks[i]? = some (.merge x))
      (hstep : x.stage.step x.event s.shared.files a = some (stage, files, some update)) :
      Changes topic s (.pool (.move i (.merge a)))
        ⟨Archive.apply { s.shared with files } x.event.callID update, s.tasks.set i (.merge ⟨x.event, stage⟩)⟩
  | insertCall {record : CallRecord} {shared : Archive} (hnone : record.call.recordingStatus = none)
      (hrows : s.shared.calls.rows.insert ⟨record, none, none, none⟩ = some shared.calls.rows)
      (hfiles : shared.files = s.shared.files) :
      Changes topic s (.insertCall record) { s with shared }
  | call (callID : String) {status : Option RecordingStatus}
      (hstatus : status ≠ some .ready ∧ status ≠ some .failed) :
      Changes topic s (.call callID status)
        { s with shared := s.shared.setStatus callID status }
  -- the walk, and what others do to local files
  | aside {l : ArchiveLabel} {t : State} (htasks : ∀ x, .merge x ∈ t.tasks → .merge x ∈ s.tasks)
      (hcalls : t.shared.calls = s.shared.calls) (hbucket : t.shared.files.bucket = s.shared.files.bucket) :
      Changes topic s l t

theorem insertCall_eq_some {s shared : Archive} {record : CallRecord} (h : s.insertCall record = some shared) :
    s.calls.rows.insert ⟨record, none, none, none⟩ = some shared.calls.rows ∧ shared.files = s.files := by
  unfold Archive.insertCall at h
  split at h
  · cases h
  · rename_i rows hrows
    cases h
    exact ⟨hrows, rfl⟩

theorem move_changes {topic : MergeTopic} {s : State} {i : Nat} {task next : Task} {reply : Reply} {shared : Archive}
    (htask : s.tasks[i]? = some task) (hresume : task.resume s.shared reply = some (next, shared)) :
    Changes topic s (.pool (.move i reply)) ⟨shared, s.tasks.set i next⟩ := by
  cases task with
  | merge x =>
      cases reply with
      | merge a =>
          obtain ⟨⟨_, files, update⟩, hx, heq⟩ := Option.map_eq_some_iff.mp hresume
          obtain ⟨⟨stage, _, _⟩, hstep, heq'⟩ := Option.map_eq_some_iff.mp hx
          cases heq'
          cases update with
          | none =>
              cases heq
              exact .merge htask hstep
          | some update =>
              cases heq
              exact .update update htask hstep
      | visited | walked => cases hresume
  | walking =>
      have haside : ∀ other : Task, (∀ x, other ≠ .merge x) → ∀ x, Task.merge x ∈ s.tasks.set i other →
          Task.merge x ∈ s.tasks := by
        intro other hother x hx
        obtain hnew | ⟨j, -, hj⟩ := Pool.mem_set hx
        · exact absurd hnew.symm (hother x)
        · exact List.mem_of_getElem? hj
      cases reply with
      | visited path isDir old removed =>
          simp only [Task.resume] at hresume
          split at hresume
          · cases hresume
            refine .aside (haside _ (by simp)) ?_ ?_ <;> split <;> rfl
          · cases hresume
      | walked =>
          cases hresume
          exact .aside (haside _ (by simp)) rfl rfl
      | merge => cases hresume
  | returned => cases reply <;> cases hresume

theorem archiveStep_changes {topic : MergeTopic} {s t : State} {l : ArchiveLabel}
    (h : archiveStep topic s l = some t) : Changes topic s l t := by
  cases l with
  | pool l =>
      cases l with
      | spawn request =>
          cases h
          exact .start request
      | move i reply =>
          obtain ⟨task, next, shared, htask, hresume, rfl⟩ := Pool.step_move.mp h
          exact move_changes htask hresume
  | insertCall record =>
      simp only [archiveStep] at h
      split at h
      · rename_i hnone
        obtain ⟨shared, hinsert, rfl⟩ := Option.map_eq_some_iff.mp h
        obtain ⟨hrows, hfiles⟩ := insertCall_eq_some hinsert
        exact .insertCall hnone hrows hfiles
      · cases h
  | call callID status =>
      simp only [archiveStep] at h
      split at h
      · cases h
      · rename_i hstatus
        cases h
        exact .call callID (not_or.mp hstatus)
  | disk path size =>
      cases h
      exact .aside (fun _ hx => hx) rfl rfl

-- The uploads that are behind an execution at a stage.
def Stage.stored : Stage → List Upload
  | .read upload | .write upload | .close upload =>
      match upload with
      | .merged => []
      | .a => [.merged]
      | .b => [.merged, .a]
  | .recordReady | .removeOutput | .returned none => [.merged, .a, .b]
  | .stat .. | .ffmpeg | .recordFailed _ | .returned (some _) => []

-- The operation that fails belongs to the upload of a leg.
def Stage.losesLeg : Stage → Answer → Option Upload
  | .read upload, .fault _ | .write upload, .fault _ | .close upload, .fault _ =>
      if upload = .merged then none else some upload
  | _, _ => none

section Execution

variable {event : RecordingMergeEvent} {files next : Files} {stage after : Stage} {a : Answer} {update : Option Update}

-- Objects are only added.
theorem step_bucket (h : stage.step event files a = some (after, next, update)) : files.bucket ⊆ next.bucket := by
  revert h
  fun_cases Stage.step event files stage a <;> intro h <;> cases h <;> simp [Files.setFile]

theorem stored_next (upload : Upload) : upload.next.stored = (Stage.close upload).stored ++ [upload] := by
  cases upload <;> rfl

theorem stored_failed (upload : Upload) (e : String) {other : Upload} (h : other ∈ (upload.failed e).stored) :
    upload ≠ .merged ∧ other ∈ (Stage.close upload).stored ++ [upload] := by
  cases upload with
  | merged => cases h
  | a | b => exact ⟨by simp, h⟩

-- Every upload behind an execution is stored, as long as a leg that it goes on
-- without has its object.
theorem step_stored (h : stage.step event files a = some (after, next, update))
    (hbefore : ∀ upload ∈ stage.stored, event.key upload ∈ files.bucket)
    (hleg : ∀ upload, stage.losesLeg a = some upload → event.key upload ∈ files.bucket) :
    ∀ upload ∈ after.stored, event.key upload ∈ next.bucket := by
  have hfailed : ∀ upload e, (∀ other ∈ (Stage.close upload).stored, event.key other ∈ files.bucket) →
      (upload ≠ .merged → event.key upload ∈ files.bucket) →
      ∀ other ∈ (upload.failed e).stored, event.key other ∈ files.bucket := by
    intro upload e hclose hown other hother
    obtain ⟨hne, hmem⟩ := stored_failed upload e hother
    obtain hold | hnew := List.mem_append.mp hmem
    · exact hclose other hold
    · rw [List.mem_singleton.mp hnew]
      exact hown hne
  revert h
  fun_cases Stage.step event files stage a <;> intro h <;> cases h
  case case12 upload e | case14 upload e | case16 upload e =>
      refine hfailed upload _ hbefore fun hne => hleg upload ?_
      simp [Stage.losesLeg, hne]
  case case15 upload =>
      intro other hother
      rw [stored_next, List.mem_append, List.mem_singleton] at hother
      obtain hold | rfl := hother
      · exact List.mem_cons_of_mem _ (hbefore other hold)
      · exact List.mem_cons_self
  all_goals first | exact hbefore | (intro other hother; cases hother)

-- What an execution writes to the row.
theorem step_ready {recordingKey recordingAKey recordingBKey : String}
    (h : stage.step event files a = some (after, next, some (.ready recordingKey recordingAKey recordingBKey))) :
    stage.stored = [.merged, .a, .b] ∧ next = files ∧ recordingKey = event.key .merged ∧
      recordingAKey = event.key .a ∧ recordingBKey = event.key .b := by
  revert h
  fun_cases Stage.step event files stage a <;> intro h <;> cases h
  exact ⟨rfl, rfl, rfl, rfl, rfl⟩

theorem step_failed (h : stage.step event files a = some (after, next, some .failed)) :
    a = .ok ∧ ∃ e, stage = .recordFailed e := by
  revert h
  fun_cases Stage.step event files stage a <;> intro h <;> cases h
  exact ⟨rfl, _, rfl⟩

end Execution

def initState : State := ⟨initArchive, []⟩

def sampleTopic : MergeTopic where
  event callID :=
    { callID
      customerID := 1
      aFilePath := recordingsDir ++ "/" ++ callID ++ "_a.wav"
      bFilePath := recordingsDir ++ "/" ++ callID ++ "_b.wav"
      date := "2026-01-05" }
  callID_eq := fun _ => rfl

-- A call whose legs are on disk.
def recordsLegs : List ArchiveLabel :=
  [.insertCall ⟨Callback.sampleCall, [], 0, 0⟩, .call "c1" (some .merging),
   .disk "/var/lib/freeswitch/recordings/c1_a.wav" (some 4096),
   .disk "/var/lib/freeswitch/recordings/c1_b.wav" (some 4096)]

-- A new execution of HandleMerge, with the answers that it gets.
def handlesMerge (i : Nat) (answers : List Answer) : List ArchiveLabel :=
  .pool (.spawn (.handleMerge "c1")) :: answers.map fun a => .pool (.move i (.merge a))

def storesAll : List Answer := [.ok, .ok, .merged 2048] ++ List.replicate 11 .ok

end Bos3000.Recording
