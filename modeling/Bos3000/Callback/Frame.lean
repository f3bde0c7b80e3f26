import Bos3000.Callback.Settlement

-- What no step of a call changes, and the runs of runCall inside the runs of
-- the call.
namespace Bos3000.Callback

-- The fields of the record that InitiateCallback fixes.
structure Fixed where
  callID : String
  userID : UserID
  aNumber : String
  bNumber : String
  callerID : Option String
  maxDuration : Option Int
  aGatewayName : Option String
  bGatewayName : Option String
  aLegRate : Int64
  bLegRate : Int64
  preDeductAmount : Int64
  deriving DecidableEq, Repr

def CallbackCall.fixed (call : CallbackCall) : Fixed :=
  ⟨call.callID, call.userID, call.aNumber, call.bNumber, call.callerID, call.maxDuration,
    call.aGatewayName, call.bGatewayName, call.aLegRate, call.bLegRate, call.preDeductAmount⟩

@[simp] theorem apply_fixed (now : Time) (call : CallbackCall) (a : Assign) :
    (a.apply now call).fixed = call.fixed := by
  cases a <;> rfl

@[simp] theorem onCall_fixed (now : Time) (call : CallbackCall) (a : Action) :
    (a.onCall now call).fixed = call.fixed := by
  cases a <;> simp [Action.onCall]

@[simp] theorem onRow_fixed (row : CallbackCall) (a : Action) : (a.onRow row).fixed = row.fixed := by
  cases a <;> rfl

theorem recordWastage_fixed (call : CallbackCall) (thresholdSec : Int64) :
    (recordWastage call thresholdSec).fixed = call.fixed := by
  unfold recordWastage
  split <;> rfl

theorem mergeRecording_fixed (published : Bool) (call : CallbackCall) :
    (mergeRecording published call).fixed = call.fixed := by
  unfold mergeRecording
  split <;> rfl

theorem exec_fixed {call row call' row' : CallbackCall} {body next : Body} {stmt : Stmt} {o : Outcome}
    (h : stmt.exec call row body o = some (call', row', next)) :
    call'.fixed = call.fixed ∧ row'.fixed = row.fixed := by
  revert h
  fun_cases Stmt.exec call row body stmt o <;> intro h <;> cases h <;>
    first
      | exact ⟨rfl, rfl⟩
      | exact ⟨recordWastage_fixed _ _, rfl⟩
      | exact ⟨mergeRecording_fixed _ _, rfl⟩

theorem step_fixed {w v : ActiveCall} {l : Label} (hstep : w.step l = some v) :
    v.call.fixed = w.call.fixed ∧ v.row.fixed = w.row.fixed := by
  obtain ⟨i, rfl, hresume⟩ | ⟨now, ok, rfl, hexec⟩ | ⟨rfl, hfin⟩ | ⟨o, rfl, hnext⟩ | ⟨_, haside⟩ :=
    step_cases hstep
  · obtain ⟨_, _, _, _, _, _, _, rfl⟩ := resumeRun_eq_some hresume
    exact ⟨rfl, rfl⟩
  · obtain ⟨_, _, ⟨_, _, rfl⟩ | ⟨a, _, _, rfl⟩⟩ := execRun_eq_some hexec
    · exact ⟨rfl, rfl⟩
    · cases ok <;> simp
  · obtain ⟨_, _, rfl, _⟩ := finalizeRun_starts hfin
    exact ⟨rfl, rfl⟩
  · obtain ⟨_, _, _, _, _, _, hexec, rfl⟩ := bodyStep_eq_some hnext
    exact exec_fixed hexec
  · obtain ⟨hangupBy, failureReason, hcall⟩ := haside.call
    rw [hcall, haside.row]
    exact ⟨rfl, rfl⟩

theorem run_fixed {call : CallbackCall} {labels : List Label} {w : ActiveCall}
    (hrun : Machine.run ActiveCall.step (.init call) labels = some w) :
    w.call.fixed = call.fixed ∧ w.row.fixed = call.fixed :=
  Machine.invariant (P := fun w => w.call.fixed = call.fixed ∧ w.row.fixed = call.fixed)
    (fun _ _ _ h hstep => ⟨(step_fixed hstep).1.trans h.1, (step_fixed hstep).2.trans h.2⟩)
    ⟨rfl, rfl⟩ hrun

-- runCall reads no other field.
theorem resume_fixed {c d : CallbackCall} (h : c.fixed = d.fixed) (stage : Stage) (i : Input) :
    resume c stage i = resume d stage i := by
  simp only [CallbackCall.fixed, Fixed.mk.injEq] at h
  have huuid : ∀ leg, legUUID c leg = legUUID d leg := by
    intro leg
    cases leg <;> simp [legUUID, h]
  have hparams : ∀ leg, originateParams c leg = originateParams d leg := by
    intro leg
    cases leg <;> simp [originateParams, h]
  unfold resume
  simp only [huuid, hparams]

def ActiveCall.pending (w : ActiveCall) : List Action :=
  match w.runCall with
  | .script todo _ | .finalizing _ todo _ => todo

def ActiveCall.stage (w : ActiveCall) : Stage :=
  match w.runCall with
  | .script _ stage | .finalizing _ _ stage => stage

-- The statement on callback_calls that the step executes succeeds.
def ActiveCall.succeeds (w : ActiveCall) : Label → Bool
  | .exec _ ok => ok
  | .body .fault =>
      match w.finalized with
      | .running ⟨.updateCallFinal :: _, _, _, _⟩ => false
      | _ => true
  | _ => true

section Run

variable {w v : ActiveCall}

theorem pending_script {todo : List Action} {stage : Stage} (h : w.runCall = .script todo stage) :
    w.pending = todo := by
  rw [ActiveCall.pending, h]

theorem pending_finalizing {pc : FinPC} {todo : List Action} {stage : Stage}
    (h : w.runCall = .finalizing pc todo stage) : w.pending = todo := by
  rw [ActiveCall.pending, h]

theorem Aside.pending (h : Aside w v) : v.pending = w.pending := by
  simp only [ActiveCall.pending, h.runCall]

theorem Aside.stage (h : Aside w v) : v.stage = w.stage := by
  simp only [ActiveCall.stage, h.runCall]

-- runCall executes the first of the statements that are pending.
theorem execRun_next {now : Time} {ok : Bool} (h : w.execRun now ok = some v) :
    ∃ a, w.pending = a :: v.pending ∧ v.stage = w.stage ∧ v.call = a.onCall now w.call ∧
      v.row = if ok then a.onRow w.row else w.row := by
  obtain ⟨todo, stage, ⟨s, hrun, rfl⟩ | ⟨a, hrun, _, rfl⟩⟩ := execRun_eq_some h
  · exact ⟨.finalizeCall s, pending_script hrun, by simp only [ActiveCall.stage, hrun], rfl, by cases ok <;> rfl⟩
  · exact ⟨a, pending_script hrun, by simp only [ActiveCall.stage, hrun], rfl, rfl⟩

theorem history_run (m : Moment) : [Effect.run m].filterMap Effect.moment? = [m] := rfl

-- Every step but a wait's end leaves the history together with the pending
-- statements as it is.
theorem step_history {l : Label} (hl : ∀ i, l ≠ .resume i) (hstep : w.step l = some v) :
    v.stage = w.stage ∧
      v.history ++ v.pending.map .act = w.history ++ w.pending.map .act := by
  obtain ⟨i, rfl, _⟩ | ⟨now, ok, rfl, hexec⟩ | ⟨rfl, hfin⟩ | ⟨o, rfl, hnext⟩ | ⟨_, haside⟩ :=
    step_cases hstep
  · exact absurd rfl (hl i)
  · obtain ⟨_, _, ⟨_, hrun, rfl⟩ | ⟨_, hrun, _, rfl⟩⟩ := execRun_eq_some hexec <;>
      simp [ActiveCall.stage, ActiveCall.history, ActiveCall.pending, hrun, history_run]
  · obtain ⟨pc, todo, stage, u, place, hrun, hplace, rfl⟩ := finalizeRun_eq_some hfin
    obtain ⟨finalized, rfl, _⟩ := finalizeStep_starts hplace
    cases place <;> simp [ActiveCall.stage, ActiveCall.pending, hrun] <;> rfl
  · obtain ⟨_, _, _, _, _, _, _, rfl⟩ := bodyStep_eq_some hnext
    simp [ActiveCall.stage, ActiveCall.history, ActiveCall.pending, Effect.moment?]
  · exact ⟨haside.stage, by rw [haside.history, haside.pending]⟩

end Run

-- What runCall did and is about to do is a run of `drive`, whatever the other
-- goroutines of the call do.
theorem history_drive {call : CallbackCall} {labels : List Label} {w : ActiveCall}
    (hrun : Machine.run ActiveCall.step (.init call) labels = some w) :
    ∃ inputs, drive call inputs = some (w.stage, w.history ++ w.pending.map .act) := by
  refine Machine.run_induction (motive := fun _ w =>
    ∃ inputs, drive call inputs = some (w.stage, w.history ++ w.pending.map .act)) ⟨[], rfl⟩ ?_ hrun
  rintro labels l w v hw ⟨inputs, hdrive⟩ hstep
  by_cases hl : ∃ i, l = .resume i
  · obtain ⟨i, rfl⟩ := hl
    obtain ⟨stage, script, next, hcall, hresume, _, eventCh, rfl⟩ := resumeRun_eq_some hstep
    refine ⟨inputs ++ [i], (Machine.run_concat _ _ _ _).mpr
      ⟨_, hdrive, driveStep_eq_some.mpr ⟨script, ?_, ?_⟩⟩⟩
    · rw [← resume_fixed (run_fixed hw).1]
      simpa [ActiveCall.stage, hcall] using hresume
    · simp [ActiveCall.history, ActiveCall.pending, hcall, history_run]
  · obtain ⟨hstage, hhistory⟩ := step_history (fun i hi => hl ⟨i, hi⟩) hstep
    exact ⟨inputs, by rw [hstage, hhistory]; exact hdrive⟩

end Bos3000.Callback
