import Bos3000.Recording.Workers

-- Whether a recording that is ready stays so, with its keys, while its merge event is
-- delivered again and its local files are removed.
namespace Bos3000.Recording

open Callback (CallRow)

-- No execution of HandleMerge records a failure of a call that has its recording.
def sparesStored (s : State) : ArchiveLabel → Bool
  | .pool (.move i (.merge .ok)) =>
      match s.tasks[i]? with
      | some (.merge ⟨event, .recordFailed _⟩) =>
          (s.shared.calls.rows.find event.callID).all fun row => row.recordingKey.isNone
      | _ => true
  | _ => true

-- A row with the recording that its event brings.
structure Holds (event : RecordingMergeEvent) (row : CallRow) : Prop where
  recordingKey : row.recordingKey = some (event.key .merged)
  recordingAKey : row.recordingAKey = some (event.key .a)
  recordingBKey : row.recordingBKey = some (event.key .b)
  notFailed : row.call.recordingStatus ≠ some .failed

def Unrecorded (row : CallRow) : Prop := row.recordingKey = none ∧ row.call.recordingStatus ≠ some .ready

theorem Holds.keysOf_eq {event : RecordingMergeEvent} {row : CallRow} (h : Holds event row) :
    keysOf row = [event.key .merged, event.key .a, event.key .b] := by
  simp [keysOf, h.recordingKey, h.recordingAKey, h.recordingBKey, List.reduceOption]

structure Settled (topic : MergeTopic) (s : State) : Prop where
  executions : ∀ x, .merge x ∈ s.tasks → x.event = topic.event x.event.callID
  rows : ∀ id row, s.shared.calls.rows.find id = some row → Unrecorded row ∨ Holds (topic.event id) row

section Step

variable {topic : MergeTopic} {s t : State} {l : ArchiveLabel}

theorem holds_ready {event : RecordingMergeEvent} (row : CallRow) :
    Holds event ((Update.ready (event.key .merged) (event.key .a) (event.key .b)).assign row) :=
  ⟨rfl, rfl, rfl, by simp [Update.assign, setRecordingStatus]⟩

theorem Settled.executions_set (h : Settled topic s) {i : Nat} {x : Execution} (htask : s.tasks[i]? = some (.merge x))
    (stage : Stage) : ∀ y, .merge y ∈ s.tasks.set i (.merge ⟨x.event, stage⟩) →
      y.event = topic.event y.event.callID := by
  intro y hy
  obtain heq | ⟨j, -, hj⟩ := Pool.mem_set hy
  · cases heq
    exact h.executions x (List.mem_of_getElem? htask)
  · exact h.executions y (List.mem_of_getElem? hj)

-- The update of an execution brings the recording of its event, or there is none yet.
theorem Settled.update (h : Settled topic s) {i : Nat} {x : Execution} {a : Answer} {stage : Stage} {files : Files}
    {update : Update} (htask : s.tasks[i]? = some (.merge x))
    (hspares : sparesStored s (.pool (.move i (.merge a))) = true)
    (hstep : x.stage.step x.event s.shared.files a = some (stage, files, some update)) {row : CallRow}
    (hfind : s.shared.calls.rows.find x.event.callID = some row) :
    update = .failed ∧ row.recordingKey = none ∨
      update = .ready ((topic.event x.event.callID).key .merged) ((topic.event x.event.callID).key .a)
        ((topic.event x.event.callID).key .b) := by
  cases update with
  | failed =>
      obtain ⟨rfl, e, hstage⟩ := step_failed hstep
      obtain ⟨event, _⟩ := x
      cases hstage
      simp only [sparesStored, htask, hfind, Option.all_some, Option.isNone_iff_eq_none] at hspares
      exact .inl ⟨rfl, hspares⟩
  | ready recordingKey recordingAKey recordingBKey =>
      obtain ⟨-, -, rfl, rfl, rfl⟩ := step_ready hstep
      rw [← h.executions x (List.mem_of_getElem? htask)]
      exact .inr rfl

theorem Settled.step (h : Settled topic s) (hspares : sparesStored s l = true)
    (hstep : archiveStep topic s l = some t) : Settled topic t := by
  cases archiveStep_changes hstep with
  | start request =>
      refine ⟨fun x hx => ?_, h.rows⟩
      rcases List.mem_append.mp hx with hold | hnew
      · exact h.executions x hold
      · cases request with
        | handleMerge callID =>
            cases List.mem_singleton.mp hnew
            exact congrArg topic.event (topic.callID_eq callID).symm
        | cleanupLocalRecordings => cases List.mem_singleton.mp hnew
  | @merge i x a stage files htask hmerge => exact ⟨h.executions_set htask stage, h.rows⟩
  | @update i x a stage files update htask hmerge =>
      refine ⟨h.executions_set htask stage, fun id row hfind => ?_⟩
      obtain ⟨old, hold, rfl⟩ := Option.map_eq_some_iff.mp ((find_apply _ _ _ id).symm.trans hfind)
      split
      · rename_i hid
        subst hid
        obtain ⟨rfl, hnone⟩ | rfl := h.update htask hspares hmerge hold
        · exact .inl ⟨hnone, by simp [Update.assign, setRecordingStatus]⟩
        · exact .inr (holds_ready old)
      · exact h.rows id old hold
  | @insertCall record shared hnone hrows hfiles =>
      refine ⟨h.executions, fun id row (hfind : shared.calls.rows.find id = some row) => ?_⟩
      rw [Table.find_insert hrows] at hfind
      split at hfind
      · cases hfind
        exact .inl ⟨rfl, by simp [hnone]⟩
      · exact h.rows id row hfind
  | @call callID status hstatus =>
      refine ⟨h.executions, fun id row hfind => ?_⟩
      obtain ⟨old, hold, rfl⟩ := Option.map_eq_some_iff.mp ((find_setStatus _ _ _ id).symm.trans hfind)
      split
      · obtain ⟨hnone, -⟩ | ⟨hkey, hkeyA, hkeyB, -⟩ := h.rows id old hold
        · exact .inl ⟨hnone, hstatus.1⟩
        · exact .inr ⟨hkey, hkeyA, hkeyB, hstatus.2⟩
      · exact h.rows id old hold
  | aside htasks hcalls hbucket =>
      refine ⟨fun x hx => h.executions x (htasks x hx), fun id row hfind => ?_⟩
      rw [hcalls] at hfind
      exact h.rows id row hfind

-- What a step leaves of a row with its recording, and of the bucket.
theorem Settled.kept (h : Settled topic s) (hspares : sparesStored s l = true)
    (hstep : archiveStep topic s l = some t) :
    s.shared.files.bucket ⊆ t.shared.files.bucket ∧
      ∀ id row, s.shared.calls.rows.find id = some row → Holds (topic.event id) row →
        ∃ next, t.shared.calls.rows.find id = some next ∧ Holds (topic.event id) next ∧
          ((∀ status, l ≠ .call id status) → row.call.recordingStatus = some .ready →
            next.call.recordingStatus = some .ready) := by
  have hsame : t.shared.calls.rows.find = s.shared.calls.rows.find → ∀ id row,
      s.shared.calls.rows.find id = some row → Holds (topic.event id) row →
        ∃ next, t.shared.calls.rows.find id = some next ∧ Holds (topic.event id) next ∧
          ((∀ status, l ≠ .call id status) → row.call.recordingStatus = some .ready →
            next.call.recordingStatus = some .ready) := by
    intro heq id row hfind hholds
    exact ⟨row, by rw [heq, hfind], hholds, fun _ hready => hready⟩
  cases archiveStep_changes hstep with
  | start request => exact ⟨fun _ hkey => hkey, hsame rfl⟩
  | merge htask hmerge => exact ⟨step_bucket hmerge, hsame rfl⟩
  | @update i x a stage files update htask hmerge =>
      refine ⟨step_bucket hmerge, fun id row hfind hholds => ?_⟩
      refine ⟨_, (find_apply _ _ _ id).trans (congrArg _ hfind), ?_⟩
      split
      · rename_i hid
        subst hid
        obtain ⟨rfl, hnone⟩ | rfl := h.update htask hspares hmerge hfind
        · rw [hholds.recordingKey] at hnone
          cases hnone
        · exact ⟨holds_ready row, fun _ _ => rfl⟩
      · exact ⟨hholds, fun _ hready => hready⟩
  | @insertCall record shared hnone hrows hfiles =>
      refine ⟨fun key hkey => ?_, fun id row hfind hholds => ?_⟩
      · show key ∈ shared.files.bucket
        rw [hfiles]
        exact hkey
      · have hne : id ≠ CallRow.callID ⟨record, none, none, none⟩ := by
          rintro rfl
          rw [(Table.insert_eq_some hrows).2] at hfind
          cases hfind
        exact ⟨row, by rw [Table.find_insert hrows, if_neg hne, hfind], hholds, fun _ hready => hready⟩
  | @call callID status hstatus =>
      refine ⟨fun _ hkey => hkey, fun id row hfind hholds => ?_⟩
      refine ⟨_, (find_setStatus _ _ _ id).trans (congrArg _ hfind), ?_⟩
      split
      · rename_i hid
        subst hid
        exact ⟨⟨hholds.recordingKey, hholds.recordingAKey, hholds.recordingBKey, hstatus.2⟩,
          fun hother => absurd rfl (hother status)⟩
      · exact ⟨hholds, fun _ hready => hready⟩
  | aside htasks hcalls hbucket => exact ⟨by rw [hbucket]; exact fun _ hkey => hkey, hsame (by rw [hcalls])⟩

end Step

theorem settled_init (topic : MergeTopic) : Settled topic initState where
  executions := fun _ hx => by cases hx
  rows := fun _ _ hfind => by cases hfind

theorem settled_run {topic : MergeTopic} {labels : List ArchiveLabel} {s t : State} (h : Settled topic s)
    (hrun : Machine.run (Machine.restrict sparesStored (archiveStep topic)) s labels = some t) {id : String}
    {row : CallRow} (hfind : s.shared.calls.rows.find id = some row) (hholds : Holds (topic.event id) row) :
    s.shared.files.bucket ⊆ t.shared.files.bucket ∧
      ∃ next, t.shared.calls.rows.find id = some next ∧ Holds (topic.event id) next ∧
        ((∀ status, .call id status ∉ labels) → row.call.recordingStatus = some .ready →
          next.call.recordingStatus = some .ready) := by
  induction labels generalizing s row with
  | nil =>
      cases hrun
      exact ⟨fun _ hkey => hkey, row, hfind, hholds, fun _ hready => hready⟩
  | cons l rest ih =>
      obtain ⟨middle, hfirst, hrest⟩ := Option.bind_eq_some_iff.mp hrun
      obtain ⟨hspares, hstep⟩ := Machine.restrict_eq_some.mp hfirst
      obtain ⟨hbucket, hrows⟩ := h.kept hspares hstep
      obtain ⟨between, hfind', hholds', hready'⟩ := hrows id row hfind hholds
      obtain ⟨hbucket', next, hnext, hlast, hready⟩ := ih (h.step hspares hstep) hrest hfind' hholds'
      refine ⟨fun _ hkey => hbucket' (hbucket hkey), next, hnext, hlast, fun hnone hbefore => ?_⟩
      have hfirst' : ∀ status, l ≠ .call id status := by
        rintro status rfl
        exact hnone status List.mem_cons_self
      exact hready (fun status hmem => hnone status (List.mem_cons_of_mem _ hmem)) (hready' hfirst' hbefore)

-- A recording that is ready in one state of a run and what a later state has of it:
-- it is not failed, and ready unless the call itself wrote another status. It has the
-- keys that it had, and those that named objects still do.
def StaysReady (s t : State) (callID : String) (labels : List ArchiveLabel) : Prop :=
  ∀ row, s.shared.calls.rows.find callID = some row → row.call.recordingStatus = some .ready →
    ∃ next, t.shared.calls.rows.find callID = some next ∧ next.call.recordingStatus ≠ some .failed ∧
      ((∀ status, .call callID status ∉ labels) → next.call.recordingStatus = some .ready) ∧
      keysOf next = keysOf row ∧ ∀ key ∈ keysOf row, key ∈ s.shared.files.bucket →
        key ∈ t.shared.files.bucket

theorem ready_stays {topic : MergeTopic} {labels more : List ArchiveLabel} {s t : State}
    (hrun : Machine.run (Machine.restrict sparesStored (archiveStep topic)) initState labels = some s)
    (hmore : Machine.run (Machine.restrict sparesStored (archiveStep topic)) s more = some t) (callID : String) :
    StaysReady s t callID more := by
  have hsettled : Settled topic s := Machine.restrict_invariant (fun _ _ _ => Settled.step) (settled_init topic) hrun
  intro row hfind hready
  obtain ⟨-, hnot⟩ | hholds := hsettled.rows callID row hfind
  · exact absurd hready hnot
  · obtain ⟨hbucket, next, hnext, hlast, hkept⟩ := settled_run hsettled hmore hfind hholds
    exact ⟨next, hnext, hlast.notFailed, fun hnone => hkept hnone hready, hlast.keysOf_eq.trans hholds.keysOf_eq.symm,
      fun key _ hkey => hbucket hkey⟩

-- HandleMerge is redelivered while the local files are there.
theorem ready_stays_redelivered : ∃ s t,
      Machine.run (Machine.restrict sparesStored (archiveStep sampleTopic)) initState
      (recordsLegs ++ handlesMerge 0 storesAll) = some s ∧
    Machine.run (Machine.restrict sparesStored (archiveStep sampleTopic)) s (handlesMerge 1 storesAll) = some t ∧
    StaysReady s t "c1" (handlesMerge 1 storesAll) := by
  have hcheck : ((Machine.run (Machine.restrict sparesStored (archiveStep sampleTopic)) initState
      (recordsLegs ++ handlesMerge 0 storesAll)).bind fun s =>
        Machine.run (Machine.restrict sparesStored (archiveStep sampleTopic)) s
          (handlesMerge 1 storesAll)).isSome = true := by
    decide +kernel
  obtain ⟨t, hboth⟩ := Option.isSome_iff_exists.mp hcheck
  obtain ⟨s, hrun, hmore⟩ := Option.bind_eq_some_iff.mp hboth
  exact ⟨s, t, hrun, hmore, ready_stays hrun hmore "c1"⟩

-- CleanupLocalRecordings removes the files of the legs, and HandleMerge is redelivered.
def redeliveredLate : List ArchiveLabel :=
  [.pool (.spawn .cleanupLocalRecordings),
   .pool (.move 1 (.visited "/var/lib/freeswitch/recordings/c1_a.wav" false true true)),
   .pool (.move 1 (.visited "/var/lib/freeswitch/recordings/c1_b.wav" false true true)),
   .pool (.move 1 .walked)] ++ handlesMerge 2 [.fault "no such file or directory", .ok]

theorem not_staysReady_late : ∃ s t, Machine.run (archiveStep sampleTopic) initState
      (recordsLegs ++ handlesMerge 0 storesAll) = some s ∧
    Machine.run (archiveStep sampleTopic) s redeliveredLate = some t ∧ ¬ StaysReady s t "c1" redeliveredLate := by
  have hcheck : (Machine.run (archiveStep sampleTopic) initState (recordsLegs ++ handlesMerge 0 storesAll)).any
      (fun s =>
      (s.shared.calls.rows.find "c1").any (fun row => row.call.recordingStatus = some .ready) &&
        (Machine.run (archiveStep sampleTopic) s redeliveredLate).any fun t =>
          (t.shared.calls.rows.find "c1").any fun row => row.call.recordingStatus = some .failed) = true := by
    decide +kernel
  obtain ⟨s, hrun, hboth⟩ := (Option.any_eq_true ..).mp hcheck
  rw [Bool.and_eq_true] at hboth
  obtain ⟨row, hfind, hready⟩ := (Option.any_eq_true ..).mp hboth.1
  obtain ⟨t, hmore, hafter⟩ := (Option.any_eq_true ..).mp hboth.2
  obtain ⟨failed, hfind', hfailed⟩ := (Option.any_eq_true ..).mp hafter
  refine ⟨s, t, hrun, hmore, fun hstays => ?_⟩
  obtain ⟨next, hnext, hnot, -⟩ := hstays row hfind (of_decide_eq_true hready)
  cases hfind'.symm.trans hnext
  exact hnot (of_decide_eq_true hfailed)

end Bos3000.Recording
