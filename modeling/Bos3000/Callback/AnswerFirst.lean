import Bos3000.Callback.Costs
import Bos3000.Callback.StatusOrder
import Bos3000.Lib.Precedence

-- Whether A answers before B is dialled, and what a call costs without it.
namespace Bos3000.Callback

def Action.dialsB : Action → Bool
  | .originateBLegAndBridge .. => true
  | _ => false

def Moment.dialsB : Moment → Bool
  | .act a => a.dialsB
  | .input _ => false

def Moment.event? : Moment → Option CallEvent
  | .input i => i.event?
  | .act _ => none

-- The events that runCall took in, in order.
def consumed (history : History) : List CallEvent := history.filterMap Moment.event?

def Moment.answersA (callID : String) (m : Moment) : Bool :=
  m.event?.any fun e => e.isAnswer .A ∧ e.callID = callID

-- Each OriginateBLegAndBridge comes after an answer of A for the call.
def OnlyAfterAnswer (callID : String) (history : History) : Prop :=
  Precedence.After (fun m => m.dialsB = true) (fun m => m.answersA callID = true) history

-- The first event, if there is one, is an answer of A or a hangup.
def FirstEvent (history : History) : Prop :=
  ∀ e ∈ (consumed history).head?, e.isAnswer .A = true ∨ e.isHangup = true

@[simp] theorem consumed_append (first second : History) :
    consumed (first ++ second) = consumed first ++ consumed second :=
  List.filterMap_append

@[simp] theorem consumed_acts (script : List Action) : consumed (script.map .act) = [] := by
  simp [consumed, Moment.event?]

@[simp] theorem consumed_script (i : Input) (script : List Action) :
    consumed (.input i :: script.map .act) = i.event?.toList := by
  cases h : i.event? <;> simp [consumed, Moment.event?, h]

theorem FirstEvent.of_append {first second : History} (h : FirstEvent (first ++ second)) :
    FirstEvent first := by
  intro e he
  apply h e
  obtain ⟨rest, hrest⟩ := List.head?_eq_some_iff.mp he
  simp [hrest]

theorem firstEvent_append {first second : History} (hsome : consumed first ≠ []) :
    FirstEvent (first ++ second) ↔ FirstEvent first := by
  obtain ⟨e, rest, hrest⟩ := List.exists_cons_of_ne_nil hsome
  simp [FirstEvent, hrest]

section Resume

variable {call : CallbackCall} {stage next : Stage} {i : Input} {script : List Action}

-- B is dialled by the wait for A, on every event but a hangup.
theorem resume_dialsB (h : resume call stage i = some (script, next)) :
    (∃ a ∈ script, a.dialsB = true) ↔ stage = .waitingA ∧ ∃ e, i = .event e ∧ e.isHangup = false := by
  revert h
  fun_cases resume call stage i <;> intro h <;> cases h
  case case14 e _ _ _ hangup | case15 e _ _ _ hangup _ =>
      simp only [hangup]
      cases hleg : e.leg <;> simp [Action.dialsB, stopRecording]
  case case17 bridged | case18 bridged => cases bridged <;> simp [Action.dialsB, stopRecording]
  all_goals simp_all [Action.dialsB, CallEvent.isAnswer, CallEvent.isHangup, startRecording]

-- Events are taken by the wait for A, which ends with one, and by the event loop.
theorem resume_event (h : resume call stage i = some (script, next)) :
    (i.event?.isSome = true → stage = .waitingA ∨ stage.pastFirstEvent = true) ∧
      (next.pastFirstEvent = true → stage.pastFirstEvent = true ∨ i.event?.isSome = true) ∧
      (next.pastFirstEvent = false → next ≠ .returned →
        stage.pastFirstEvent = false ∧ stage ≠ .returned ∧ i.event? = none) := by
  revert h
  fun_cases resume call stage i <;> intro h <;> cases h <;> simp [Stage.pastFirstEvent, Input.event?]

-- A call whose first event hangs up does not get past the wait for A.
theorem resume_unanswered (h : resume call stage i = some (script, next))
    (hearly : stage.pastFirstEvent = false)
    (hevent : ∀ e, i = .event e → e.isAnswer .A = false ∧ e.isHangup = true) :
    next.pastFirstEvent = false ∧ ∀ a ∈ script, ∀ field, a.assigns field = false := by
  revert h
  fun_cases resume call stage i <;> intro h <;> cases h <;>
    simp_all [Stage.pastFirstEvent, Action.assigns]

end Resume

-- Where runCall stands against its events and the dialling of B.
structure DialInv (callID : String) (stage : Stage) (history : History) : Prop where
  early : stage.pastFirstEvent = false → stage ≠ .returned →
    consumed history = [] ∧ ∀ m ∈ history, m.dialsB = false
  late : stage.pastFirstEvent = true → consumed history ≠ []
  ordered : (∀ e ∈ consumed history, e.callID = callID) →
    (OnlyAfterAnswer callID history ↔ FirstEvent history)

theorem script_dialsB {i : Input} {script : List Action} (h : ¬ ∃ a ∈ script, a.dialsB = true) :
    ∀ m ∈ Moment.input i :: script.map .act, m.dialsB = false := by
  intro m hm
  rcases List.mem_cons.mp hm with rfl | hm
  · rfl
  · obtain ⟨a, ha, rfl⟩ := List.mem_map.mp hm
    exact Bool.eq_false_iff.mpr fun hdials => h ⟨a, ha, hdials⟩

-- B is dialled without any answer of A.
theorem not_onlyAfterAnswer {callID : String} {history : History} (hdials : ∃ m ∈ history, m.dialsB = true)
    (hnone : ∀ e ∈ consumed history, e.isAnswer .A = false) : ¬ OnlyAfterAnswer callID history := by
  intro hafter
  obtain ⟨m, hm, hdial⟩ := hdials
  obtain ⟨c, hc, hanswers⟩ := hafter.cause_of_mem hm hdial
  obtain ⟨e, he, hanswer⟩ := (Option.any_eq_true _ _).mp hanswers
  simp only [decide_eq_true_eq] at hanswer
  rw [hnone e (List.mem_filterMap.mpr ⟨c, hc, he⟩)] at hanswer
  exact Bool.false_ne_true hanswer.1

-- The event on which the wait for A dials B decides the order.
theorem dial_ordered {callID : String} {history : History} {e : CallEvent} {script : List Action}
    (hnone : consumed history = []) (hdials : ∀ m ∈ history, m.dialsB = false)
    (hscript : ∃ a ∈ script, a.dialsB = true) (hhangup : e.isHangup = false) (hcall : e.callID = callID) :
    OnlyAfterAnswer callID (history ++ .input (.event e) :: script.map .act) ↔
      FirstEvent (history ++ .input (.event e) :: script.map .act) := by
  have hfirst : FirstEvent (history ++ .input (.event e) :: script.map .act) ↔ e.isAnswer .A = true := by
    simp [FirstEvent, hnone, Input.event?, hhangup]
  rw [hfirst]
  constructor
  · intro hafter
    by_contra hanswer
    obtain ⟨a, ha, hdial⟩ := hscript
    refine not_onlyAfterAnswer ⟨.act a, by simp [ha], hdial⟩ ?_ hafter
    simpa [hnone, Input.event?] using hanswer
  · intro hanswer
    have hsplit : history ++ .input (.event e) :: script.map .act =
        (history ++ [.input (.event e)]) ++ script.map .act := by simp
    rw [hsplit]
    refine (Precedence.after_append_of_mem ?_).mpr (Precedence.after_of_forall ?_)
    · exact ⟨.input (.event e), by simp, by simp [Moment.answersA, Moment.event?, Input.event?, hanswer, hcall]⟩
    · intro m hm
      rcases List.mem_append.mp hm with hm | hm
      · simp [hdials m hm]
      · rw [List.mem_singleton.mp hm]
        simp [Moment.dialsB]

theorem DialInv.resume {call : CallbackCall} {callID : String} {stage next : Stage} {history : History}
    {i : Input} {script : List Action} (h : DialInv callID stage history)
    (hresume : resume call stage i = some (script, next)) :
    DialInv callID next (history ++ .input i :: script.map .act) := by
  obtain ⟨htakes, hlate, hearly⟩ := resume_event hresume
  have hdial := resume_dialsB hresume
  refine ⟨?_, ?_, ?_⟩
  · intro hnext hreturned
    obtain ⟨hstage, hrunning, hnone⟩ := hearly hnext hreturned
    obtain ⟨hconsumed, hdials⟩ := h.early hstage hrunning
    refine ⟨by simp [hconsumed, hnone], fun m hm => ?_⟩
    rcases List.mem_append.mp hm with hm | hm
    · exact hdials m hm
    · refine script_dialsB (fun hsome => ?_) m hm
      obtain ⟨_, e, rfl, _⟩ := hdial.mp hsome
      cases hnone
  · intro hnext
    obtain hstage | hevent := hlate hnext
    · simp [h.late hstage]
    · obtain ⟨e, he⟩ := Option.isSome_iff_exists.mp hevent
      simp [he]
  · intro hcallID
    simp only [consumed_append, consumed_script, List.mem_append] at hcallID
    have hbefore := h.ordered fun e he => hcallID e (.inl he)
    cases hstage : stage.pastFirstEvent with
    | true =>
        have hno : ¬ ∃ a ∈ script, a.dialsB = true := by
          rw [hdial]
          rintro ⟨rfl, _⟩
          cases hstage
        rw [firstEvent_append (h.late hstage), ← hbefore]
        exact Precedence.after_append_of_forall fun m hm => by simp [script_dialsB hno m hm]
    | false =>
        have hrunning : stage ≠ .returned := by
          rintro rfl
          cases hresume
        obtain ⟨hconsumed, hdials⟩ := h.early hstage hrunning
        by_cases hsome : ∃ a ∈ script, a.dialsB = true
        · obtain ⟨_, e, rfl, hhangup⟩ := hdial.mp hsome
          exact dial_ordered hconsumed hdials hsome hhangup (hcallID e (.inr (by simp [Input.event?])))
        · have hafter : OnlyAfterAnswer callID (history ++ .input i :: script.map .act) := by
            refine Precedence.after_of_forall fun m hm => ?_
            rcases List.mem_append.mp hm with hm | hm
            · simp [hdials m hm]
            · simp [script_dialsB hsome m hm]
          refine iff_of_true hafter fun e he => ?_
          have hevent : i = .event e := by
            cases i <;> simp_all [Input.event?]
          subst hevent
          have hwaiting := (htakes rfl).resolve_right (by simp [hstage])
          by_contra hneither
          rw [hdial] at hsome
          exact hsome ⟨hwaiting, e, rfl, by simp_all⟩

theorem dialInv_start (callID : String) : DialInv callID .start [] := by
  refine ⟨fun _ _ => ⟨rfl, by simp⟩, by simp [Stage.pastFirstEvent], fun _ => ?_⟩
  exact iff_of_true (Precedence.after_of_forall (by simp)) (by simp [FirstEvent, consumed])

theorem onlyAfterAnswer_drive {call : CallbackCall} {inputs : List Input} {stage : Stage} {history : History}
    (hrun : drive call inputs = some (stage, history)) {callID : String}
    (hcallID : ∀ e ∈ consumed history, e.callID = callID) :
    OnlyAfterAnswer callID history ↔ FirstEvent history := by
  have hinv : DialInv callID stage history := by
    refine drive_induction (motive := fun _ stage history => DialInv callID stage history)
      (dialInv_start callID) ?_ hrun
    intro _ _ _ _ _ _ h hresume
    exact h.resume hresume
  exact hinv.ordered hcallID

-- What a first event that hangs up leaves: no answer and no bridge is recorded.
def Unrecorded (stage : Stage) (history : History) : Prop :=
  FirstEvent history → (∀ e ∈ consumed history, e.isAnswer .A = false) →
    stage.pastFirstEvent = false ∧ ∀ m ∈ history, ∀ field, m.assigns field = false

theorem Unrecorded.resume {call : CallbackCall} {callID : String} {stage next : Stage} {history : History}
    {i : Input} {script : List Action} (h : Unrecorded stage history) (hdial : DialInv callID stage history)
    (hresume : resume call stage i = some (script, next)) :
    Unrecorded next (history ++ .input i :: script.map .act) := by
  intro hfirst hnone
  simp only [consumed_append, consumed_script, List.mem_append] at hnone
  obtain ⟨hearly, hassigns⟩ := h hfirst.of_append fun e he => hnone e (.inl he)
  have hrunning : stage ≠ .returned := by
    rintro rfl
    cases hresume
  have hconsumed := (hdial.early hearly hrunning).1
  have hevent : ∀ e, i = .event e → e.isAnswer .A = false ∧ e.isHangup = true := by
    rintro e rfl
    have hanswer := hnone e (.inr (by simp [Input.event?]))
    refine ⟨hanswer, (hfirst e ?_).resolve_left (by simp [hanswer])⟩
    simp [hconsumed, Input.event?]
  obtain ⟨hnext, hscript⟩ := resume_unanswered hresume hearly hevent
  refine ⟨hnext, fun m hm field => ?_⟩
  rcases List.mem_append.mp hm with hm | hm
  · exact hassigns m hm field
  · rcases List.mem_cons.mp hm with rfl | hm
    · rfl
    · obtain ⟨a, ha, rfl⟩ := List.mem_map.mp hm
      exact hscript a ha field

theorem unrecorded_drive {call : CallbackCall} {inputs : List Input} {stage : Stage} {history : History}
    (hrun : drive call inputs = some (stage, history)) : Unrecorded stage history := by
  have hboth : DialInv call.callID stage history ∧ Unrecorded stage history := by
    refine drive_induction (motive := fun _ stage history =>
      DialInv call.callID stage history ∧ Unrecorded stage history) ?_ ?_ hrun
    · exact ⟨dialInv_start _, fun _ _ => ⟨rfl, by simp⟩⟩
    · intro _ _ _ _ _ _ h hresume
      exact ⟨h.1.resume hresume, h.2.resume h.1 hresume⟩
  exact hboth.2

-- What runCall did, and what it does before its next wait.
def ActiveCall.trace (w : ActiveCall) : History := w.history ++ w.pending.map .act

section Step

variable {w v : ActiveCall}

theorem resume_trace {i : Input} (hstep : w.resumeRun i = some v) :
    ∃ script : List Action, v.trace = w.trace ++ .input i :: script.map .act := by
  obtain ⟨stage, script, next, hrun, _, _, eventCh, rfl⟩ := resumeRun_eq_some hstep
  exact ⟨script, by simp [ActiveCall.trace, ActiveCall.history, ActiveCall.pending, hrun, history_run]⟩

theorem step_trace {l : Label} (hstep : w.step l = some v) : ∃ more, v.trace = w.trace ++ more := by
  by_cases hl : ∃ i, l = .resume i
  · obtain ⟨i, rfl⟩ := hl
    obtain ⟨script, htrace⟩ := resume_trace hstep
    exact ⟨_, htrace⟩
  · exact ⟨[], by rw [List.append_nil]; exact (step_history (fun i hi => hl ⟨i, hi⟩) hstep).2⟩

theorem step_eventCh {l : Label} (hstep : w.step l = some v) :
    ∀ e ∈ v.eventCh, e ∈ w.eventCh ∨ l = .event e ∧ e.callID = w.call.callID := by
  cases l with
  | resume i =>
      simp only [ActiveCall.step, ActiveCall.resumeRun] at hstep
      split at hstep
      · split at hstep
        · split at hstep
          · cases hstep
            intro e he
            cases i <;> first | exact .inl he | exact .inl (List.mem_of_mem_tail he)
          · cases hstep
        · cases hstep
      · cases hstep
  | exec now ok =>
      obtain ⟨_, _, ⟨_, _, rfl⟩ | ⟨_, _, _, rfl⟩⟩ := execRun_eq_some hstep <;> exact fun _ he => .inl he
  | finalize =>
      obtain ⟨_, _, rfl, _⟩ := finalizeRun_starts hstep
      exact fun _ he => .inl he
  | body o =>
      obtain ⟨_, _, _, _, _, _, _, rfl⟩ := bodyStep_eq_some hstep
      exact fun _ he => .inl he
  | event e =>
      obtain rfl | ⟨hcallID, rfl⟩ := deliver_eq_some hstep
      · exact fun _ he => .inl he
      · intro f hf
        rcases List.mem_append.mp hf with hf | hf
        · exact .inl hf
        · rw [List.mem_singleton.mp hf]
          exact .inr ⟨rfl, hcallID⟩
  | fsLost | shutdown | forceHangup auth =>
      obtain ⟨_, _, rfl⟩ := request_eq_some (by simp) hstep
      exact fun _ he => .inl he
  | thread k =>
      obtain ⟨t, u, next, _, hadvances, rfl⟩ := threadStep_eq_some hstep
      have hsame : u.eventCh = w.eventCh := by
        cases hadvances with
        | finalize hplace | finalized hplace =>
            obtain ⟨_, rfl, _⟩ := finalizeStep_starts hplace
            rfl
        | fsLost | shutdown | shutdownCancel | hangup | hangupBy | hangupCancel | hangupLegs => rfl
      exact fun e he => .inl (hsame ▸ he)

-- runCall takes events of its own call only.
structure OwnEvents (w : ActiveCall) : Prop where
  eventCh : ∀ e ∈ w.eventCh, e.callID = w.call.callID
  consumed : ∀ e ∈ consumed w.trace, e.callID = w.call.callID

theorem OwnEvents.step (h : OwnEvents w) {l : Label} (hstep : w.step l = some v) : OwnEvents v := by
  have hcallID : v.call.callID = w.call.callID := congrArg Fixed.callID (step_fixed hstep).1
  constructor
  · intro e he
    rw [hcallID]
    exact (step_eventCh hstep e he).elim (h.eventCh e) And.right
  · rw [hcallID]
    by_cases hl : ∃ i, l = .resume i
    · obtain ⟨i, rfl⟩ := hl
      obtain ⟨script, htrace⟩ := resume_trace hstep
      obtain ⟨_, _, _, _, _, hoffers, _⟩ := resumeRun_eq_some hstep
      intro e he
      rw [htrace, consumed_append, consumed_script] at he
      rcases List.mem_append.mp he with he | he
      · exact h.consumed e he
      · cases i <;> simp_all [Input.event?, ActiveCall.offers]
        exact h.eventCh _ (List.mem_of_head? hoffers)
    · have htrace := (step_history (fun i hi => hl ⟨i, hi⟩) hstep).2
      rw [show v.trace = w.trace from htrace]
      exact h.consumed

theorem ownEvents_run {call : CallbackCall} {labels : List Label}
    (hrun : Machine.run ActiveCall.step (.init call) labels = some w) : OwnEvents w := by
  refine Machine.invariant (fun _ _ _ h hstep => OwnEvents.step h hstep) ?_ hrun
  constructor <;> simp [ActiveCall.init, ActiveCall.trace, ActiveCall.history, ActiveCall.pending, Callback.consumed]

end Step

def CallbackCall.time (call : CallbackCall) : Timestamp → Option Time
  | .AAnswerAt => call.aAnswerAt
  | .BAnswerAt => call.bAnswerAt
  | .BridgeAt => call.bridgeAt

theorem updateCallFinal_time (call row : CallbackCall) (field : Timestamp) :
    (updateCallFinal call row).time field = (call.time field).map timestamptz := by
  cases field <;> rfl

-- A record or row of a call that nobody answered.
structure Unanswered (call : CallbackCall) : Prop where
  times : ∀ field, call.time field = none
  aDurationMs : call.aDurationMs = 0
  bDurationMs : call.bDurationMs = 0
  totalCost : call.totalCost = 0
  wastageType : call.wastageType = none

theorem Unanswered.actualCost {call : CallbackCall} (h : Unanswered call) :
    (finalizeParams call).actualCost = 0 := by
  have ha : (finalizeParams call).aLegDurationSec = 0 := by
    simp only [finalizeParams, h.aDurationMs]
    rfl
  have hb : (finalizeParams call).bLegDurationSec = 0 := by
    simp only [finalizeParams, h.bDurationMs]
    rfl
  simp [Billing.FinalizeParams.actualCost, Billing.FinalizeParams.aLegCost,
    Billing.FinalizeParams.bLegCost, ha, hb]

theorem Unanswered.classifyWastage {call : CallbackCall} (h : Unanswered call) (thresholdSec : Int64) :
    Callback.classifyWastage call thresholdSec = none := by
  have ha : call.aAnswerAt = none := h.times .AAnswerAt
  have hbridge : call.bridgeAt = none := h.times .BridgeAt
  simp [Callback.classifyWastage, ha, hbridge]

theorem Unanswered.onCall {call : CallbackCall} (h : Unanswered call) (now : Time) {a : Action}
    (hassigns : ∀ field, a.assigns field = false) : Unanswered (a.onCall now call) := by
  have hsame : (a.onCall now call).time = call.time ∧ (a.onCall now call).wastageType = call.wastageType := by
    cases a with
    | assign a =>
        cases a <;> try exact ⟨rfl, rfl⟩
        · exact absurd (hassigns .AAnswerAt) (by simp [Action.assigns])
        · exact absurd (hassigns .BAnswerAt) (by simp [Action.assigns])
        · exact absurd (hassigns .BridgeAt) (by simp [Action.assigns])
    | _ => exact ⟨rfl, rfl⟩
  have hcosts := onCall_costs now call a
  simp only [CallbackCall.costs, Costs.mk.injEq] at hcosts
  obtain ⟨ha, hb, _, _, htotal⟩ := hcosts
  refine ⟨?_, ha.trans h.aDurationMs, hb.trans h.bDurationMs, htotal.trans h.totalCost,
    hsame.2.trans h.wastageType⟩
  rw [hsame.1]
  exact h.times

theorem Unanswered.onRow {row : CallbackCall} (h : Unanswered row) (a : Action) :
    Unanswered (a.onRow row) := by
  cases a <;> exact ⟨h.times, h.aDurationMs, h.bDurationMs, h.totalCost, h.wastageType⟩

theorem Unanswered.exec {call row call' row' : CallbackCall} {body next : Body} {stmt : Stmt} {o : Outcome}
    (hcall : Unanswered call) (hrow : Unanswered row)
    (h : stmt.exec call row body o = some (call', row', next)) : Unanswered call' ∧ Unanswered row' := by
  have ha : call.aAnswerAt = none := hcall.times .AAnswerAt
  have hb : call.bAnswerAt = none := hcall.times .BAnswerAt
  have hkept : ∀ d : CallbackCall, d.time = call.time → d.aDurationMs = 0 → d.bDurationMs = 0 →
      d.totalCost = 0 → d.wastageType = call.wastageType → Unanswered d := by
    intro d htimes haDuration hbDuration htotal hwastage
    exact ⟨fun field => by rw [htimes]; exact hcall.times field, haDuration, hbDuration, htotal,
      hwastage.trans hcall.wastageType⟩
  revert h
  fun_cases Stmt.exec call row body stmt o <;> intro h <;> cases h
  case case2 =>
      have hzero : durationMs call.aAnswerAt call.aHangupAt body.now call.aDurationMs = 0 := by
        simp [durationMs, ha, hcall.aDurationMs]
      exact ⟨hkept _ rfl hzero hcall.bDurationMs hcall.totalCost rfl, hrow⟩
  case case3 =>
      have hzero : durationMs call.bAnswerAt call.bHangupAt body.now call.bDurationMs = 0 := by
        simp [durationMs, hb, hcall.bDurationMs]
      exact ⟨hkept _ rfl hcall.aDurationMs hzero hcall.totalCost rfl, hrow⟩
  case case5 =>
      simp only [recordWastage, hcall.classifyWastage]
      exact ⟨hcall, hrow⟩
  case case7 => exact ⟨hkept _ rfl hcall.aDurationMs hcall.bDurationMs hcall.actualCost rfl, hrow⟩
  case case14 | case15 =>
      simp only [mergeRecording]
      split
      · exact ⟨hkept _ rfl hcall.aDurationMs hcall.bDurationMs hcall.totalCost rfl, hrow⟩
      · exact ⟨hcall, hrow⟩
  case case16 =>
      refine ⟨hcall, ⟨fun field => ?_, hcall.aDurationMs, hcall.bDurationMs, hcall.totalCost,
        hcall.wastageType⟩⟩
      rw [updateCallFinal_time, hcall.times field, Option.map_none]
  all_goals exact ⟨hkept _ rfl hcall.aDurationMs hcall.bDurationMs hcall.totalCost rfl, hrow⟩

section Step

variable {w v : ActiveCall}

theorem step_unanswered (hcall : Unanswered w.call) (hrow : Unanswered w.row) {l : Label}
    (hassigns : ∀ m ∈ v.trace, ∀ field, m.assigns field = false) (hstep : w.step l = some v) :
    Unanswered v.call ∧ Unanswered v.row := by
  obtain ⟨i, rfl, hresume⟩ | ⟨now, ok, rfl, hexec⟩ | ⟨rfl, hfin⟩ | ⟨o, rfl, hbody⟩ | ⟨_, haside⟩ :=
    step_cases hstep
  · obtain ⟨_, _, _, _, _, _, _, rfl⟩ := resumeRun_eq_some hresume
    exact ⟨hcall, hrow⟩
  · obtain ⟨_, _, ⟨_, _, rfl⟩ | ⟨a, hrun, _, rfl⟩⟩ := execRun_eq_some hexec
    · exact ⟨hcall, hrow⟩
    · have hmem : Moment.act a ∈ w.trace := by simp [ActiveCall.trace, pending_script hrun]
      obtain ⟨more, htrace⟩ := step_trace hstep
      refine ⟨hcall.onCall now (hassigns (.act a) ?_), ?_⟩
      · rw [htrace]
        exact List.mem_append_left _ hmem
      · cases ok with
        | true => exact hrow.onRow a
        | false => exact hrow
  · obtain ⟨_, _, rfl, _⟩ := finalizeRun_starts hfin
    exact ⟨hcall, hrow⟩
  · obtain ⟨_, _, _, _, _, _, hexec, rfl⟩ := bodyStep_eq_some hbody
    exact hcall.exec hrow hexec
  · obtain ⟨hangupBy, failureReason, hsame⟩ := haside.call
    rw [hsame, haside.row]
    exact ⟨⟨hcall.times, hcall.aDurationMs, hcall.bDurationMs, hcall.totalCost, hcall.wastageType⟩, hrow⟩

-- While no answer and no bridge is recorded the call costs nothing.
theorem unanswered_run {call : CallbackCall} (hnew : Unanswered call) {labels : List Label}
    (hrun : Machine.run ActiveCall.step (.init call) labels = some w)
    (hassigns : ∀ m ∈ w.trace, ∀ field, m.assigns field = false) :
    Unanswered w.call ∧ Unanswered w.row := by
  refine Machine.run_induction (motive := fun _ w =>
    (∀ m ∈ w.trace, ∀ field, m.assigns field = false) → Unanswered w.call ∧ Unanswered w.row)
    (fun _ => ⟨hnew, hnew⟩) ?_ hrun hassigns
  intro _ l w v _ ih hstep hv
  obtain ⟨more, htrace⟩ := step_trace hstep
  obtain ⟨hcall, hrow⟩ := ih fun m hm => hv m (by rw [htrace]; exact List.mem_append_left _ hm)
  exact step_unanswered hcall hrow hv hstep

end Step

-- What the first event of an active call decides.
theorem first_decides {call : CallbackCall} (hnew : Unanswered call) {labels : List Label} {w : ActiveCall}
    (hrun : Machine.run ActiveCall.step (.init call) labels = some w) :
    (OnlyAfterAnswer w.call.callID w.trace ↔ FirstEvent w.trace) ∧
      (FirstEvent w.trace → (∀ e ∈ consumed w.trace, e.isAnswer .A = false) →
        Unanswered w.call ∧ Unanswered w.row) := by
  obtain ⟨inputs, hdrive⟩ := history_drive hrun
  refine ⟨onlyAfterAnswer_drive hdrive (ownEvents_run hrun).consumed, fun hfirst hnone => ?_⟩
  exact unanswered_run hnew hrun (unrecorded_drive hdrive hfirst hnone).2

end Bos3000.Callback
