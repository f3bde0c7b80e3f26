import Bos3000.Callback.FinalStatus
import Bos3000.Recording.Merge

-- Whether the recording status of a call ends up final: the goroutines of the call
-- next to the worker that merges its recordings.
namespace Bos3000.Recording

open Callback (Action ActiveCall Assign Body BodyInv CallbackCall Label RecordingStatus Settling Stmt
  bodyStep_eq_some bodyStep_executed deliver_eq_some exec_row execRun_eq_some execRun_executed
  finalizeRun_starts pending_script resumeRun_eq_some resumeRun_executed step_cases)

-- The message that finalizeCall publishes.
def mergeEvent (date : String) (call : CallbackCall) : RecordingMergeEvent where
  callID := call.callID
  customerID := call.userID
  aFilePath := "/var/lib/freeswitch/recordings/" ++ call.callID ++ "_a.wav"
  bFilePath := "/var/lib/freeswitch/recordings/" ++ call.callID ++ "_b.wav"
  date

-- A call with the columns of its row that only HandleMerge writes, the files, the
-- merge event and its execution.
structure Recorded where
  active : ActiveCall
  recordingKey : Option String
  recordingAKey : Option String
  recordingBKey : Option String
  files : Files
  topic : Option RecordingMergeEvent
  worker : Option Execution

-- A step of the call, with the date it would publish, or of the worker. Others write
-- and remove local files.
inductive RecordedLabel
  | call (l : Label) (date : String)
  | deliver
  | worker (a : Answer)
  | disk (path : String) (size : Option Nat)
  deriving DecidableEq, Repr

def Recorded.init (call : CallbackCall) (files : Files) : Recorded :=
  ⟨.init call, none, none, none, files, none, none⟩

-- The step publishes the merge event.
def publishesMerge (w : ActiveCall) : Label → Bool
  | .body .ok =>
      match w.finalized with
      | .running ⟨.mergeRecording :: _, _, _, _⟩ =>
          w.call.bridgeAt.isSome && w.call.recordingStatus = some .recording
      | _ => false
  | _ => false

def Recorded.update (s : Recorded) : Update → Recorded
  | .failed => { s with active.row.recordingStatus := some .failed }
  | .ready recordingKey recordingAKey recordingBKey =>
      { s with
        active.row.recordingStatus := some .ready
        recordingKey := some recordingKey
        recordingAKey := some recordingAKey
        recordingBKey := some recordingBKey }

def Recorded.step (s : Recorded) : RecordedLabel → Option Recorded
  | .call l date =>
      (s.active.step l).map fun active =>
        { s with active, topic := if publishesMerge s.active l then some (mergeEvent date s.active.call) else s.topic }
  | .deliver =>
      match s.topic, s.worker with
      | some event, none => some { s with worker := some (.start event) }
      | _, _ => none
  | .worker a =>
      match s.worker with
      | none => none
      | some x =>
          (x.step s.files a).map fun (next, files, update) =>
            let after := { s with worker := some next, files }
            update.elim after after.update
  | .disk path size => some { s with files := s.files.setFile path size }

-- The statement on callback_calls that the step executes succeeds.
def Recorded.answered (s : Recorded) : RecordedLabel → Bool
  | .call l _ => s.active.succeeds l
  | .worker a => s.worker.all fun x => x.stage.updates a
  | .deliver | .disk _ _ => true

-- HandleMerge is past its UPDATE.
def Recorded.past (s : Recorded) : Bool := s.worker.any fun x => x.stage.outcome.isSome

-- The step writes the recording status of the call's row.
def writesStatus (w : ActiveCall) : Label → Bool
  | .exec _ _ =>
      match w.pending with
      | .updateRecordingStatus _ :: _ => true
      | _ => false
  | .body _ =>
      match w.finalized with
      | .running ⟨.updateCallFinal :: _, _, _, _⟩ => true
      | _ => false
  | _ => false

-- The call writes the status before HandleMerge does, and the merged file gets into
-- the bucket.
def Recorded.timely (s : Recorded) : RecordedLabel → Bool
  | .call l _ => !writesStatus s.active l || !s.past
  | .worker a => s.worker.all fun x => x.stage.uploads a
  | .deliver | .disk _ _ => true

section Call

variable {w v : ActiveCall}

theorem resume_recordingStatus {call : CallbackCall} {stage next : Callback.Stage} {i : Callback.Input}
    {script : List Action} (h : Callback.resume call stage i = some (script, next)) {r : RecordingStatus}
    (hr : .assign (.recordingStatus r) ∈ script ∨ .updateRecordingStatus r ∈ script) : r = .recording := by
  revert h
  fun_cases Callback.resume call stage i <;> intro h <;> cases h
  case case14 e _ _ _ hangup | case15 e _ _ _ hangup _ =>
      simp only [hangup] at hr
      cases hleg : e.leg <;> simp [hleg, Callback.stopRecording] at hr
  case case17 bridged | case18 bridged => cases bridged <;> simp [Callback.stopRecording] at hr
  all_goals simp_all [Callback.startRecording]

-- runCall knows one recording status.
def OnlyRecording (todo : List Action) : Prop :=
  ∀ r, .assign (.recordingStatus r) ∈ todo ∨ .updateRecordingStatus r ∈ todo → r = .recording

theorem step_onlyRecording {l : Label} (hstep : w.step l = some v) (h : OnlyRecording w.pending) :
    OnlyRecording v.pending := by
  obtain ⟨i, rfl, hresume⟩ | ⟨now, ok, rfl, hexec⟩ | ⟨rfl, hfin⟩ | ⟨o, rfl, hbody⟩ |
    ⟨_, haside⟩ := step_cases hstep
  · obtain ⟨_, _, _, _, hscript, _, _, rfl⟩ := resumeRun_eq_some hresume
    exact fun r hr => resume_recordingStatus hscript hr
  · obtain ⟨_, hpending, _⟩ := Callback.execRun_next hexec
    rw [hpending] at h
    exact fun r hr => h r (hr.imp (List.mem_cons_of_mem _) (List.mem_cons_of_mem _))
  · rw [Callback.finalizeRun_pending hfin]
    exact h
  · obtain ⟨_, _, _, _, _, _, _, rfl⟩ := bodyStep_eq_some hbody
    exact h
  · rw [haside.pending]
    exact h

-- What a step of the call does to the recording status of the record and of the
-- row, given whether it publishes the merge event and whether it writes the row.
inductive Touch (w v : ActiveCall) : Bool → Bool → Prop
  | aside (hcall : v.call.recordingStatus = w.call.recordingStatus)
      (hrow : v.row.recordingStatus = w.row.recordingStatus)
      (hexecuted : ∀ stmt, stmt = .mergeRecording ∨ stmt = .updateCallFinal →
        (stmt ∈ v.executed ↔ stmt ∈ w.executed)) : Touch w v false false
  | assigned (r : RecordingStatus) (hpending : .assign (.recordingStatus r) ∈ w.pending)
      (hcall : v.call.recordingStatus = some r) (hrow : v.row.recordingStatus = w.row.recordingStatus)
      (hexecuted : v.executed = w.executed) : Touch w v false false
  | updated (r : RecordingStatus) (hpending : .updateRecordingStatus r ∈ w.pending)
      (hcall : v.call.recordingStatus = w.call.recordingStatus) (hrow : v.row.recordingStatus = some r)
      (hexecuted : v.executed = w.executed) : Touch w v false true
  | merged (publishes : Bool) (hbefore : .mergeRecording ∉ w.executed ∧ .updateCallFinal ∉ w.executed)
      (hcall : publishes = true → v.call.recordingStatus = some .merging)
      (hexecuted : v.executed = w.executed ++ [.mergeRecording]) : Touch w v publishes false
  | final (hcall : v.call.recordingStatus = w.call.recordingStatus)
      (hrow : v.row.recordingStatus = w.call.recordingStatus)
      (hexecuted : v.executed = w.executed ++ [.updateCallFinal]) : Touch w v false true

theorem onCall_recordingStatus (now : Time) (call : CallbackCall) (a : Action) :
    (a.onCall now call).recordingStatus = call.recordingStatus ∨
      ∃ r, a = .assign (.recordingStatus r) ∧ (a.onCall now call).recordingStatus = some r := by
  cases a with
  | assign a => cases a <;> simp [Action.onCall, Assign.apply]
  | _ => exact .inl rfl

theorem exec_recordingStatus {call row call' row' : CallbackCall} {body next : Body} {stmt : Stmt}
    {o : Callback.Outcome} (h : stmt.exec call row body o = some (call', row', next))
    (hstmt : stmt ≠ .mergeRecording) : call'.recordingStatus = call.recordingStatus := by
  revert h
  fun_cases Stmt.exec call row body stmt o <;> intro h <;> cases h <;>
    first | rfl | exact absurd rfl hstmt | skip
  unfold Callback.recordWastage
  split <;> rfl

theorem exec_touch {now : Time} {ok : Bool} (hok : w.succeeds (.exec now ok))
    (hstep : w.execRun now ok = some v) : Touch w v false (writesStatus w (.exec now ok)) := by
  have hexecuted := execRun_executed hstep
  have hsame : ∀ stmt, stmt = .mergeRecording ∨ stmt = .updateCallFinal →
      (stmt ∈ v.executed ↔ stmt ∈ w.executed) := fun _ _ => by rw [hexecuted]
  obtain rfl : ok = true := hok
  obtain ⟨todo, stage, ⟨s, hrun, rfl⟩ | ⟨a, hrun, _, rfl⟩⟩ := execRun_eq_some hstep
  · simp only [writesStatus, pending_script hrun]
    exact .aside rfl rfl hsame
  · have hpending := pending_script hrun
    simp only [writesStatus, hpending]
    cases a with
    | updateRecordingStatus r => exact .updated r (by simp [hpending]) rfl rfl hexecuted
    | assign a =>
        obtain hcall | ⟨r, ha, hcall⟩ := onCall_recordingStatus now w.call (.assign a)
        · exact .aside hcall rfl hsame
        · exact .assigned r (by simp [hpending, ha]) hcall rfl hexecuted
    | _ => exact .aside rfl rfl hsame

theorem body_touch (hsettling : Settling w) {o : Callback.Outcome} (hok : w.succeeds (.body o))
    (hstep : w.bodyStep o = some v) : Touch w v (publishesMerge w (.body o)) (writesStatus w (.body o)) := by
  obtain ⟨stmt, body, call, row, next, hrunning, hexec, rfl⟩ := bodyStep_eq_some hstep
  have hexecuted := bodyStep_executed hstep hrunning
  have hbefore : ∀ earlier ∈ w.executed, earlier.index < stmt.index :=
    fun _ hearlier => hsettling.before hrunning hearlier
  cases stmt with
  | mergeRecording =>
      have hnot : .mergeRecording ∉ w.executed ∧ .updateCallFinal ∉ w.executed :=
        ⟨fun h => absurd (hbefore _ h) (by decide), fun h => absurd (hbefore _ h) (by decide)⟩
      simp only [writesStatus, hrunning]
      refine .merged _ hnot ?_ hexecuted
      intro hpublishes
      cases o with
      | ok =>
          cases hexec
          simp_all [publishesMerge, Callback.mergeRecording]
      | fault => cases hpublishes
      | time | config | count => cases hexec
  | updateCallFinal =>
      cases o with
      | ok =>
          cases hexec
          simp only [publishesMerge, writesStatus, hrunning]
          exact .final rfl rfl hexecuted
      | fault => simp [ActiveCall.succeeds, hrunning] at hok
      | time | config | count => cases hexec
  | _ =>
      have hrow : row = w.row := (exec_row hexec).resolve_right (by rintro ⟨hwrong, _⟩; cases hwrong)
      have hnone : publishesMerge w (.body o) = false := by cases o <;> simp [publishesMerge, hrunning]
      rw [hnone]
      simp only [writesStatus, hrunning]
      refine .aside (exec_recordingStatus hexec (by simp)) (by rw [hrow]) ?_
      rintro stmt (rfl | rfl) <;> rw [hexecuted] <;> simp

theorem step_touch (hsettling : Settling w) {l : Label} (hok : w.succeeds l) (hstep : w.step l = some v) :
    Touch w v (publishesMerge w l) (writesStatus w l) := by
  cases l with
  | exec now ok => exact exec_touch hok hstep
  | body o => exact body_touch hsettling hok hstep
  | resume i =>
      have hexecuted := resumeRun_executed hstep
      obtain ⟨_, _, _, _, _, _, _, rfl⟩ := resumeRun_eq_some hstep
      exact .aside rfl rfl fun _ _ => by rw [hexecuted]
  | finalize =>
      obtain ⟨_, _, rfl, _⟩ := finalizeRun_starts hstep
      exact .aside rfl rfl fun _ _ => .rfl
  | event e =>
      obtain rfl | ⟨_, rfl⟩ := deliver_eq_some hstep <;> exact .aside rfl rfl fun _ _ => .rfl
  | fsLost | shutdown | forceHangup auth =>
      obtain ⟨_, _, rfl⟩ := Callback.request_eq_some (by simp) hstep
      exact .aside rfl rfl fun _ _ => .rfl
  | thread k =>
      have haside := Callback.threadStep_aside hstep
      obtain ⟨_, _, hcall⟩ := haside.call
      exact .aside (by rw [hcall]) (by rw [haside.row]) fun _ _ => by rw [haside.executed]

end Call

-- The recording waits for its merge.
def Unsettled (r : Option RecordingStatus) : Prop := r = some .recording ∨ r = some .merging

-- What holds in every run, once the merge event is published.
structure Publishing (s : Recorded) : Prop where
  settling : Settling s.active
  scripts : OnlyRecording s.active.pending
  worker : s.worker.isSome = true → s.topic.isSome = true
  merging : s.topic.isSome = true → .mergeRecording ∈ s.active.executed
  call : s.topic.isSome = true → Unsettled s.active.call.recordingStatus
  row : s.topic.isSome = true → s.past = false → .updateCallFinal ∈ s.active.executed →
    Unsettled s.active.row.recordingStatus

-- The row holds how HandleMerge ended.
def Told (s : Recorded) : Prop :=
  ∀ x ∈ s.worker, ∀ r ∈ x.stage.outcome, s.active.row.recordingStatus = some r

-- HandleMerge is over, and the row does not tell.
def Lost (s : Recorded) : Prop :=
  s.past = true ∧ (.updateCallFinal ∈ s.active.executed → Unsettled s.active.row.recordingStatus)

section Step

variable {s t : Recorded}

theorem call_eq_some {l : Label} {date : String} (hstep : s.step (.call l date) = some t) :
    ∃ active, s.active.step l = some active ∧ t = { s with
      active, topic := if publishesMerge s.active l then some (mergeEvent date s.active.call) else s.topic } := by
  obtain ⟨active, hactive, rfl⟩ := Option.map_eq_some_iff.mp hstep
  exact ⟨active, hactive, rfl⟩

theorem deliver_eq_start (hstep : s.step .deliver = some t) :
    ∃ event, s.topic = some event ∧ s.worker = none ∧ t = { s with worker := some (.start event) } := by
  simp only [Recorded.step] at hstep
  split at hstep
  · cases hstep
    exact ⟨_, by assumption, by assumption, rfl⟩
  · cases hstep

theorem worker_eq_some {a : Answer} (hstep : s.step (.worker a) = some t) :
    ∃ x stage files update, s.worker = some x ∧ x.stage.step x.event s.files a = some (stage, files, update) ∧
      t.worker = some ⟨x.event, stage⟩ ∧ t.topic = s.topic ∧ t.active.call = s.active.call ∧
      t.active.executed = s.active.executed ∧ t.active.pending = s.active.pending ∧
      (Settling s.active → Settling t.active) ∧
      t.active.row.recordingStatus =
        (update.map Update.status).elim s.active.row.recordingStatus some := by
  simp only [Recorded.step] at hstep
  split at hstep
  · cases hstep
  · rename_i x hworker
    obtain ⟨⟨next, files, update⟩, hnext, rfl⟩ := Option.map_eq_some_iff.mp hstep
    obtain ⟨⟨stage, files, update⟩, hstage, heq⟩ := Option.map_eq_some_iff.mp hnext
    cases heq
    refine ⟨x, stage, files, update, hworker, hstage, ?_⟩
    match update with
    | none => exact ⟨rfl, rfl, rfl, rfl, rfl, id, rfl⟩
    | some .failed => exact ⟨rfl, rfl, rfl, rfl, rfl, fun h => ⟨⟨h.body.executed, h.body.inMap⟩, h.runCall⟩,
        rfl⟩
    | some (.ready _ _ _) =>
        exact ⟨rfl, rfl, rfl, rfl, rfl, fun h => ⟨⟨h.body.executed, h.body.inMap⟩, h.runCall⟩, rfl⟩

theorem disk_eq_some {path : String} {size : Option Nat} (hstep : s.step (.disk path size) = some t) :
    t = { s with files := s.files.setFile path size } := by
  cases hstep
  rfl

theorem past_iff {x : Execution} (hworker : s.worker = some x) : s.past = x.stage.outcome.isSome := by
  simp [Recorded.past, hworker]

theorem Publishing.call_step (h : Publishing s) {l : Label} {date : String} (hok : s.active.succeeds l)
    (hstep : s.step (.call l date) = some t) : Publishing t := by
  obtain ⟨active, hactive, rfl⟩ := call_eq_some hstep
  have hsettling := h.settling.step hactive
  have hscripts := step_onlyRecording hactive h.scripts
  have htouch := step_touch h.settling hok hactive
  generalize publishesMerge s.active l = publishes at htouch ⊢
  generalize writesStatus s.active l = writes at htouch
  cases htouch with
  | aside hcall hrow hexecuted =>
      refine ⟨hsettling, hscripts, h.worker, ?_, ?_, ?_⟩
      · exact fun htopic => (hexecuted _ (.inl rfl)).mpr (h.merging htopic)
      · exact fun htopic => hcall ▸ h.call htopic
      · exact fun htopic hpast hfinal => hrow ▸ h.row htopic hpast ((hexecuted _ (.inr rfl)).mp hfinal)
  | assigned r hpending hcall hrow hexecuted =>
      refine ⟨hsettling, hscripts, h.worker, fun htopic => hexecuted ▸ h.merging htopic, fun _ => ?_, ?_⟩
      · rw [hcall, h.scripts r (.inl hpending)]
        exact .inl rfl
      · exact fun htopic hpast hfinal => hrow ▸ h.row htopic hpast (hexecuted ▸ hfinal)
  | updated r hpending hcall hrow hexecuted =>
      refine ⟨hsettling, hscripts, h.worker, fun htopic => hexecuted ▸ h.merging htopic,
        fun htopic => hcall ▸ h.call htopic, fun _ _ _ => ?_⟩
      rw [hrow, h.scripts r (.inr hpending)]
      exact .inl rfl
  | merged _ hbefore hcall hexecuted =>
      -- the first publication of the event
      have hnone : s.topic = none := by
        by_contra hsome
        exact hbefore.1 (h.merging (Option.isSome_iff_ne_none.mpr hsome))
      have hfinal : .updateCallFinal ∉ active.executed := by simp [hexecuted, hbefore.2]
      refine ⟨hsettling, hscripts, fun hworker => ?_, fun _ => by simp [hexecuted], fun htopic => ?_,
        fun _ _ hmem => absurd hmem hfinal⟩
      · have hsome := h.worker hworker
        simp [hnone] at hsome
      · cases publishes with
        | true => exact .inr (hcall rfl)
        | false => simp [hnone] at htopic
  | final hcall hrow hexecuted =>
      refine ⟨hsettling, hscripts, h.worker, ?_, fun htopic => hcall ▸ h.call htopic,
        fun htopic _ _ => hrow ▸ h.call htopic⟩
      intro htopic
      rw [hexecuted]
      exact List.mem_append_left _ (h.merging htopic)

theorem Publishing.step (h : Publishing s) {l : RecordedLabel} (hanswered : s.answered l)
    (hstep : s.step l = some t) : Publishing t := by
  cases l with
  | call l date => exact h.call_step hanswered hstep
  | deliver =>
      obtain ⟨event, htopic, hnone, rfl⟩ := deliver_eq_start hstep
      exact ⟨h.settling, h.scripts, fun _ => by simp [htopic], h.merging, h.call,
        fun hsome _ => h.row hsome (by simp [Recorded.past, hnone])⟩
  | worker a =>
      obtain ⟨x, stage, files, update, hworker, hstage, hnext, htopic, hcall, hexecuted, hpending, hsettling,
        hrow⟩ :=
        worker_eq_some hstep
      refine ⟨hsettling h.settling, by rw [hpending]; exact h.scripts, ?_, ?_, ?_, ?_⟩
      · rw [hnext, htopic]
        exact fun _ => h.worker (by simp [hworker])
      · rw [htopic, hexecuted]
        exact h.merging
      · rw [htopic, hcall]
        exact h.call
      · intro hsome hpast hfinal
        have hopen : stage.outcome = none := by simpa [past_iff hnext] using hpast
        have hbefore : x.stage.outcome = none := by
          by_contra hended
          obtain ⟨r, hr⟩ := Option.ne_none_iff_exists'.mp hended
          rw [(outcome_kept hr hstage).1] at hopen
          cases hopen
        have huploads : x.stage.uploads a = true := by
          by_contra hlost
          rw [(outcome_lost (Bool.eq_false_iff.mpr hlost) hstage).2.1] at hopen
          cases hopen
        have hnothing := outcome_written hbefore (by simpa [Recorded.answered, hworker] using hanswered) huploads hstage
        rw [hrow, ← hnothing, hopen]
        exact h.row (htopic ▸ hsome) (by simp [past_iff hworker, hbefore]) (hexecuted ▸ hfinal)
  | disk path size =>
      rw [disk_eq_some hstep]
      exact ⟨h.settling, h.scripts, h.worker, h.merging, h.call, h.row⟩

theorem Publishing.topic (h : Publishing s) (hpast : s.past = true) : s.topic.isSome = true := by
  obtain ⟨x, hworker, _⟩ := (Option.any_eq_true ..).mp hpast
  exact h.worker (by rw [hworker]; rfl)

-- A timely step keeps what HandleMerge told.
theorem Told.step (h : Publishing s) (htold : Told s) {l : RecordedLabel} (hanswered : s.answered l)
    (htimely : s.timely l) (hstep : s.step l = some t) : Told t := by
  cases l with
  | call l date =>
      obtain ⟨active, hactive, rfl⟩ := call_eq_some hstep
      have htouch := step_touch h.settling hanswered hactive
      intro x hx r hr
      have hworker : s.worker = some x := hx
      have hpast : s.past = true := by
        rw [past_iff hworker, Option.mem_def.mp hr]
        rfl
      have hwrites : writesStatus s.active l = false := by simpa [Recorded.timely, hpast] using htimely
      rw [hwrites] at htouch
      generalize publishesMerge s.active l = publishes at htouch
      cases htouch with
      | aside _ hrow _ | assigned _ _ _ hrow _ => exact hrow.trans (htold x hx r hr)
      | merged _ hbefore _ _ =>
          exact absurd (h.merging (h.topic hpast)) hbefore.1
  | deliver =>
      obtain ⟨event, _, _, rfl⟩ := deliver_eq_start hstep
      intro x hx r hr
      cases hx
      cases hr
  | worker a =>
      obtain ⟨x, stage, files, update, hworker, hstage, hnext, _, _, _, _, _, hrow⟩ := worker_eq_some hstep
      intro y hy r hr
      rw [hnext] at hy
      cases hy
      cases hbefore : x.stage.outcome with
      | some q =>
          obtain ⟨hafter, rfl⟩ := outcome_kept hbefore hstage
          rw [show stage.outcome = some r from hr] at hafter
          cases hafter
          exact hrow.trans (htold x hworker r hbefore)
      | none =>
          have hupdates : x.stage.updates a = true := by simpa [Recorded.answered, hworker] using hanswered
          have huploads : x.stage.uploads a = true := by simpa [Recorded.timely, hworker] using htimely
          rw [hrow, ← outcome_written hbefore hupdates huploads hstage, show stage.outcome = some r from hr]
          rfl
  | disk path size =>
      rw [disk_eq_some hstep]
      exact htold

-- Any other step loses it.
theorem lost_of_untimely (h : Publishing s) {l : RecordedLabel} (hanswered : s.answered l)
    (huntimely : s.timely l = false) (hstep : s.step l = some t) : Lost t := by
  cases l with
  | call l date =>
      obtain ⟨active, hactive, rfl⟩ := call_eq_some hstep
      have htouch := step_touch h.settling hanswered hactive
      simp only [Recorded.timely, Bool.or_eq_false_iff, Bool.not_eq_false'] at huntimely
      rw [huntimely.1] at htouch
      refine ⟨huntimely.2, fun _ => ?_⟩
      generalize publishesMerge s.active l = publishes at htouch
      cases htouch with
      | updated r hpending _ hrow _ =>
          rw [hrow, h.scripts r (.inr hpending)]
          exact .inl rfl
      | final _ hrow _ =>
          rw [hrow]
          exact h.call (h.topic huntimely.2)
  | worker a =>
      obtain ⟨x, stage, files, update, hworker, hstage, hnext, _, _, hexecuted, _, _, hrow⟩ := worker_eq_some hstep
      have hlost : x.stage.uploads a = false := by simpa [Recorded.timely, hworker] using huntimely
      obtain ⟨hbefore, hended, rfl⟩ := outcome_lost hlost hstage
      refine ⟨by rw [past_iff hnext, show stage.outcome = _ from hended]; rfl, fun hfinal => ?_⟩
      rw [hrow]
      exact h.row (h.worker (by simp [hworker])) (by simp [past_iff hworker, hbefore]) (hexecuted ▸ hfinal)
  | deliver | disk path size => cases huntimely

-- What is lost stays lost.
theorem Lost.step (h : Publishing s) (hlost : Lost s) {l : RecordedLabel} (hanswered : s.answered l)
    (hstep : s.step l = some t) : Lost t := by
  obtain ⟨hpast, hrow⟩ := hlost
  cases l with
  | call l date =>
      obtain ⟨active, hactive, rfl⟩ := call_eq_some hstep
      have htouch := step_touch h.settling hanswered hactive
      refine ⟨hpast, fun hfinal => ?_⟩
      generalize publishesMerge s.active l = publishes at htouch
      generalize writesStatus s.active l = writes at htouch
      cases htouch with
      | aside _ hsame hexecuted =>
          rw [hsame]
          exact hrow ((hexecuted _ (.inr rfl)).mp hfinal)
      | assigned _ _ _ hsame hexecuted =>
          rw [hsame]
          exact hrow (hexecuted ▸ hfinal)
      | updated r hpending _ hwrite _ =>
          rw [hwrite, h.scripts r (.inr hpending)]
          exact .inl rfl
      | merged _ hbefore _ _ => exact absurd (h.merging (h.topic hpast)) hbefore.1
      | final _ hwrite _ =>
          rw [hwrite]
          exact h.call (h.topic hpast)
  | deliver =>
      obtain ⟨event, _, hnone, _⟩ := deliver_eq_start hstep
      simp [Recorded.past, hnone] at hpast
  | worker a =>
      obtain ⟨x, stage, files, update, hworker, hstage, hnext, _, _, hexecuted, _, _, hwrite⟩ :=
        worker_eq_some hstep
      obtain ⟨r, hr⟩ := Option.isSome_iff_exists.mp (past_iff hworker ▸ hpast)
      obtain ⟨hended, rfl⟩ := outcome_kept hr hstage
      refine ⟨by rw [past_iff hnext, show stage.outcome = _ from hended]; rfl, fun hfinal => ?_⟩
      rw [hwrite]
      exact hrow (hexecuted ▸ hfinal)
  | disk path size =>
      rw [disk_eq_some hstep]
      exact ⟨hpast, hrow⟩

end Step

theorem publishing_init (call : CallbackCall) (files : Files) : Publishing (.init call files) := by
  refine ⟨Callback.settling_init call, ?_, ?_, ?_, ?_, ?_⟩ <;>
    simp [Recorded.init, ActiveCall.init, ActiveCall.pending, OnlyRecording]

-- In every run in which the statements on callback_calls succeed, the recording
-- status is final once finalizeCall and HandleMerge are over, and ready if
-- HandleMerge succeeded, exactly when every step was timely.
theorem recording_settles_iff {call : CallbackCall} {files : Files} {labels : List RecordedLabel}
    {s : Recorded} {event : RecordingMergeEvent} {error : Option String}
    (hrun : Machine.run (Machine.restrict Recorded.answered Recorded.step) (.init call files) labels = some s)
    (hfinalized : s.active.finalized = .done) (hreturned : s.worker = some ⟨event, .returned error⟩) :
    (s.active.row.recordingStatus = some .ready ∨ s.active.row.recordingStatus = some .failed) ∧
        (error = none → s.active.row.recordingStatus = some .ready) ↔
      Machine.run (Machine.restrict Recorded.timely (Machine.restrict Recorded.answered Recorded.step))
        (.init call files) labels = some s := by
  have hkeep : ∀ (s : Recorded) l t, Publishing s ∧ Told s → s.timely l = true →
      Machine.restrict Recorded.answered Recorded.step s l = some t → Publishing t ∧ Told t := by
    intro s l t h htimely hstep
    obtain ⟨hanswered, hnext⟩ := Machine.restrict_eq_some.mp hstep
    exact ⟨h.1.step hanswered hnext, h.2.step h.1 hanswered htimely hnext⟩
  have hleave : ∀ (s : Recorded) l t, Publishing s ∧ Told s → s.timely l = false →
      Machine.restrict Recorded.answered Recorded.step s l = some t → Publishing t ∧ Lost t := by
    intro s l t h huntimely hstep
    obtain ⟨hanswered, hnext⟩ := Machine.restrict_eq_some.mp hstep
    exact ⟨h.1.step hanswered hnext, lost_of_untimely h.1 hanswered huntimely hnext⟩
  have hstay : ∀ (s : Recorded) l t, Publishing s ∧ Lost s →
      Machine.restrict Recorded.answered Recorded.step s l = some t → Publishing t ∧ Lost t := by
    intro s l t h hstep
    obtain ⟨hanswered, hnext⟩ := Machine.restrict_eq_some.mp hstep
    exact ⟨h.1.step hanswered hnext, h.2.step h.1 hanswered hnext⟩
  have hcases := Machine.restrict_or ⟨publishing_init call files, fun x hx => by cases hx⟩
    hkeep hleave hstay hrun
  constructor
  · rintro ⟨hfinal, _⟩
    obtain ⟨htimely, _⟩ | ⟨_, hpublishing, hlost⟩ := hcases
    · exact htimely
    · have hexecuted := hpublishing.settling.body.executed
      rw [hfinalized] at hexecuted
      have hrow := hlost.2 (by rw [show s.active.executed = _ from hexecuted]; decide)
      obtain hrow | hrow := hrow <;> simp [hrow] at hfinal
  · intro htimely
    obtain ⟨_, _, htold⟩ | ⟨hnone, _⟩ := hcases
    · cases error with
      | none =>
          have hrow := htold _ hreturned .ready rfl
          exact ⟨.inl hrow, fun _ => hrow⟩
      | some e => exact ⟨.inr (htold _ hreturned .failed rfl), fun h => by cases h⟩
    · rw [htimely] at hnone
      cases hnone

-- A bridged call that A ends, with the recordings of both legs on disk.
def recordedCall : CallbackCall :=
  Callback.callRecord Callback.sampleRequest ⟨2, 60, 120⟩ "gw-a" "gw-b" "4001"

def recordings : Files :=
  ⟨fun path => if path.startsWith "/var/lib/freeswitch/recordings/c1_" then some 4096 else none, []⟩

def recordedEnds : List RecordedLabel :=
  (Callback.bridges ++ Callback.hangsUp).map fun l => .call l "2026-01-05"

-- HandleMerge, every operation succeeding.
def mergeSucceeds : List RecordedLabel :=
  [RecordedLabel.deliver, .worker .ok, .worker .ok, .worker (.merged 2048)] ++
    List.replicate 11 (RecordedLabel.worker .ok)

theorem recording_settles_iff_mergeSucceeds :
    ∃ s, Machine.run (Machine.restrict Recorded.answered Recorded.step) (.init recordedCall recordings)
        (recordedEnds ++ mergeSucceeds) = some s ∧
      s.active.finalized = .done ∧ s.worker = some ⟨mergeEvent "2026-01-05" recordedCall, .returned none⟩ ∧
      s.active.row.recordingStatus = some .ready ∧
      ((s.active.row.recordingStatus = some .ready ∨ s.active.row.recordingStatus = some .failed) ∧
          ((none : Option String) = none → s.active.row.recordingStatus = some .ready) ↔
        Machine.run (Machine.restrict Recorded.timely (Machine.restrict Recorded.answered Recorded.step))
          (.init recordedCall recordings) (recordedEnds ++ mergeSucceeds) = some s) := by
  have hends : (Machine.run (Machine.restrict Recorded.answered Recorded.step) (.init recordedCall recordings)
      (recordedEnds ++ mergeSucceeds)).map
        (fun s => (s.active.finalized, s.worker, s.active.row.recordingStatus)) =
      some (.done, some ⟨mergeEvent "2026-01-05" recordedCall, .returned none⟩, some .ready) := by decide +kernel
  obtain ⟨s, hrun, hs⟩ := Option.map_eq_some_iff.mp hends
  simp only [Prod.mk.injEq] at hs
  obtain ⟨hfinalized, hworker, hrow⟩ := hs
  exact ⟨s, hrun, hfinalized, hworker, hrow, recording_settles_iff hrun hfinalized hworker⟩

-- HandleMerge runs between the publication of its event and updateCallFinal.
def mergeOvertakes : List RecordedLabel :=
  recordedEnds.take (recordedEnds.length - 4) ++ mergeSucceeds ++
    recordedEnds.drop (recordedEnds.length - 4)

-- The merged recording is stored, and its row says merging for good.
theorem merging_mergeOvertakes :
    (Machine.run (Machine.restrict Recorded.answered Recorded.step) (.init recordedCall recordings)
      mergeOvertakes).map
        (fun s => (s.active.finalized, s.worker, s.active.row.recordingStatus, s.recordingKey.isSome)) =
      some (.done, some ⟨mergeEvent "2026-01-05" recordedCall, .returned none⟩, some .merging, true) := by
  decide +kernel

end Bos3000.Recording
