import Bos3000.Callback.RunCall

-- Which legs runCall leaves connected when it finalizes a call.
namespace Bos3000.Callback

def hangupConsumed (inputs : List Input) (leg : Leg) : Prop :=
  ∃ e ∈ events inputs, e.isHangup ∧ e.leg = leg

def hungUp (call : CallbackCall) (history : History) (leg : Leg) : Prop :=
  ∃ cause, .act (.hangupCall (legUUID call leg) cause) ∈ history

-- Every leg whose originate succeeded hung up by itself or was hung up.
def NoLegLeft (call : CallbackCall) (inputs : List Input) (history : History) : Prop :=
  ∀ leg, .originated leg true ∈ inputs → hangupConsumed inputs leg ∨ hungUp call history leg

-- The first event is no hangup of B, and no later event is a hangup of A.
def HangupOrder (events : List CallEvent) : Prop :=
  (∀ e ∈ events.head?, ¬(e.isHangup ∧ e.leg = .B)) ∧ ∀ e ∈ events.tail, ¬(e.isHangup ∧ e.leg = .A)

-- Nothing hung up so far and no leg was hung up.
structure Clear (inputs : List Input) (history : History) : Prop where
  events : ∀ e ∈ events inputs, e.isHangup = false
  commands : ∀ uuid cause, .act (.hangupCall uuid cause) ∉ history

def Stage.hasOriginated : Stage → Leg → Bool
  | .waitingA, .A | .originatingB, .A => true
  | .loop _, _ | .bridging _, _ => true
  | _, _ => false

theorem clear_concat {inputs : List Input} {history : History} (h : Clear inputs history)
    {i : Input} {script : List Action} (hevent : ∀ e ∈ i.event?, e.isHangup = false)
    (hscript : ∀ uuid cause, .hangupCall uuid cause ∉ script) :
    Clear (inputs ++ [i]) (history ++ .input i :: script.map .act) where
  events := by
    intro e he
    simp only [events_concat, List.mem_append, Option.mem_toList] at he
    exact he.elim (h.events e) (hevent e)
  commands := by
    intro uuid cause hm
    simp only [List.mem_append, List.mem_cons, reduceCtorEq, false_or, List.mem_map,
      Moment.act.injEq, exists_eq_right] at hm
    exact hm.elim (h.commands uuid cause) (hscript uuid cause)

-- At an exit only the last input and its statements decide.
theorem noLegLeft_concat {call : CallbackCall} {inputs : List Input} {history : History}
    (h : Clear inputs history) (i : Input) (script : List Action) :
    NoLegLeft call (inputs ++ [i]) (history ++ .input i :: script.map .act) ↔
      ∀ leg, .originated leg true ∈ inputs ++ [i] →
        (∃ e ∈ i.event?, e.isHangup ∧ e.leg = leg) ∨
        ∃ cause, .hangupCall (legUUID call leg) cause ∈ script := by
  have hconsumed : ∀ leg, hangupConsumed (inputs ++ [i]) leg ↔
      ∃ e ∈ i.event?, e.isHangup ∧ e.leg = leg := by
    intro leg
    unfold hangupConsumed
    constructor
    · rintro ⟨e, he, hhangup, hleg⟩
      simp only [events_concat, List.mem_append, Option.mem_toList] at he
      rcases he with he | he
      · rw [h.events e he] at hhangup
        cases hhangup
      · exact ⟨e, he, hhangup, hleg⟩
    · rintro ⟨e, he, hhangup⟩
      exact ⟨e, by simp [Option.mem_toList.mpr he], hhangup⟩
  have hcommand : ∀ leg, hungUp call (history ++ .input i :: script.map .act) leg ↔
      ∃ cause, .hangupCall (legUUID call leg) cause ∈ script := by
    intro leg
    unfold hungUp
    simp [h.commands]
  simp only [NoLegLeft, hconsumed, hcommand]

theorem hangupOrder_concat {inputs : List Input} {history : History} (h : Clear inputs history)
    (i : Input) :
    HangupOrder (events (inputs ++ [i])) ↔
      ∀ e ∈ i.event?, ¬(e.isHangup ∧ e.leg = if events inputs = [] then .B else .A) := by
  simp only [events_concat, HangupOrder]
  cases hevents : events inputs with
  | nil => cases i.event? <;> simp
  | cons first rest =>
      have hall := h.events
      simp only [hevents, List.forall_mem_cons] at hall
      simp only [List.cons_append, List.head?_cons, Option.mem_some_iff, forall_eq', hall.1,
        Bool.false_eq_true, false_and, not_false_eq_true, List.tail_cons, true_and, reduceCtorEq,
        ite_false, List.forall_mem_append, Option.mem_toList]
      refine and_iff_right ?_
      intro e he hhangup
      rw [hall.2 e he] at hhangup
      cases hhangup.1

def Stage.isBridged : Stage → Bool
  | .loop bridged | .bridging bridged => bridged
  | _ => false

-- What holds at each wait of a call that consumed no CHANNEL_BRIDGE.
structure Waiting (stage : Stage) (inputs : List Input) (history : History) : Prop where
  clear : Clear inputs history
  legs : ∀ leg, .originated leg true ∈ inputs ↔ stage.hasOriginated leg = true
  first : events inputs = [] ↔ stage.pastFirstEvent = false
  bridged : stage.isBridged = false

def Exited (call : CallbackCall) (inputs : List Input) (history : History) : Prop :=
  (∃ s, .act (.finalizeCall s) ∈ history) →
    (NoLegLeft call inputs history ↔ HangupOrder (events inputs))

def LegInv (call : CallbackCall) (inputs : List Input) (stage : Stage) (history : History) : Prop :=
  if stage = .returned then Exited call inputs history else Waiting stage inputs history

theorem exited_concat {call : CallbackCall} {stage : Stage} {inputs : List Input}
    {history : History} (h : Waiting stage inputs history) {i : Input} {script : List Action}
    (hscript : (∀ leg, stage.hasOriginated leg = true ∨ .originated leg true = i →
        (∃ e ∈ i.event?, e.isHangup ∧ e.leg = leg) ∨
        ∃ cause, .hangupCall (legUUID call leg) cause ∈ script) ↔
      ∀ e ∈ i.event?, ¬(e.isHangup ∧ e.leg = if stage.pastFirstEvent then .A else .B)) :
    Exited call (inputs ++ [i]) (history ++ .input i :: script.map .act) := by
  intro _
  rw [noLegLeft_concat h.clear, hangupOrder_concat h.clear]
  simp only [List.mem_append, h.legs, List.mem_singleton, h.first]
  cases hpast : stage.pastFirstEvent <;> simpa [hpast] using hscript

theorem waiting_concat {stage next : Stage} {inputs : List Input} {history : History}
    (h : Waiting stage inputs history) {i : Input} {script : List Action}
    (hevent : ∀ e ∈ i.event?, e.isHangup = false)
    (hscript : ∀ uuid cause, .hangupCall uuid cause ∉ script)
    (hlegs : ∀ leg, next.hasOriginated leg = true ↔
      stage.hasOriginated leg = true ∨ .originated leg true = i)
    (hfirst : next.pastFirstEvent = (stage.pastFirstEvent || i.event?.isSome))
    (hbridged : next.isBridged = false) :
    Waiting next (inputs ++ [i]) (history ++ .input i :: script.map .act) where
  clear := clear_concat h.clear hevent hscript
  legs := by
    intro leg
    rw [List.mem_append, h.legs, List.mem_singleton, hlegs]
  first := by
    rw [events_concat, List.append_eq_nil_iff, h.first, hfirst]
    cases i.event? <;> simp
  bridged := hbridged

theorem waiting_resume {call : CallbackCall} {inputs : List Input} {stage next : Stage}
    {history : History} {i : Input} {script : List Action} (h : Waiting stage inputs history)
    (hbridge : ∀ e ∈ i.event?, e.isBridge = false)
    (hresume : resume call stage i = some (script, next)) (hnext : next ≠ .returned) :
    Waiting next (inputs ++ [i]) (history ++ .input i :: script.map .act) := by
  have hstage := h.bridged
  revert hbridge hresume hstage
  fun_cases resume call stage i <;> intro hbridge hresume hstage <;> cases hresume <;>
    try exact absurd rfl hnext
  case case13 e _ he => simp [Input.event?, he] at hbridge
  all_goals
    refine waiting_concat h ?_ ?_ ?_ ?_ ?_ <;>
      simp_all [Input.event?, Stage.hasOriginated, Stage.pastFirstEvent, Stage.isBridged,
        CallEvent.isAnswer, CallEvent.isHangup, Leg.forall_iff]

theorem exited_resume {call : CallbackCall} {inputs : List Input} {stage : Stage}
    {history : History} {i : Input} {script : List Action} (h : Waiting stage inputs history)
    (hresume : resume call stage i = some (script, .returned)) :
    Exited call (inputs ++ [i]) (history ++ .input i :: script.map .act) := by
  have hstage := h.bridged
  apply exited_concat h
  simp only [Leg.forall_iff]
  revert hresume hstage
  fun_cases resume call stage i <;> intro hresume hstage <;> cases hresume
  -- the hangup before an answer, of either leg
  case case6 e _ _ =>
      cases hleg : e.leg <;> simp_all [Input.event?, Stage.hasOriginated, Stage.pastFirstEvent]
  -- the hangup after a bridge
  case case14 => cases hstage
  -- the hangup before a bridge: only A is hung up, whichever leg the event names
  case case15 e _ _ _ hangup _ =>
      simp only [hangup]
      cases hleg : e.leg <;> simp_all [Input.event?, Stage.hasOriginated, Stage.pastFirstEvent]
  all_goals simp_all [Input.event?, Stage.hasOriginated, Stage.pastFirstEvent]

theorem legInv_drive {call : CallbackCall} {inputs : List Input} {stage : Stage}
    {history : History} (hrun : drive call inputs = some (stage, history))
    (hbridge : ∀ e ∈ events inputs, e.isBridge = false) : LegInv call inputs stage history := by
  revert hbridge
  refine drive_induction (motive := fun inputs stage history =>
    (∀ e ∈ events inputs, e.isBridge = false) → LegInv call inputs stage history) ?_ ?_ hrun
  · intro _
    exact ⟨⟨by simp, by simp⟩, by simp [Stage.hasOriginated], by simp [Stage.pastFirstEvent], rfl⟩
  · intro inputs stage history i script next ih hresume hbridge
    simp only [events_concat, List.forall_mem_append, Option.mem_toList] at hbridge
    -- a call that returned takes no input
    have hstage : stage ≠ .returned := by
      rintro rfl
      cases hresume
    have hwaiting : Waiting stage inputs history := by simpa [LegInv, hstage] using ih hbridge.1
    by_cases hnext : next = .returned
    · subst hnext
      simpa [LegInv] using exited_resume hwaiting hresume
    · simpa [LegInv, hnext] using waiting_resume hwaiting hbridge.2 hresume hnext

-- A call finalized without a CHANNEL_BRIDGE leaves no leg behind exactly when
-- the hangups came from the legs its branches provide for.
theorem noLegLeft_iff_hangupOrder {call : CallbackCall} {inputs : List Input} {history : History}
    (hrun : drive call inputs = some (.returned, history))
    (hfinal : ∃ s, .act (.finalizeCall s) ∈ history)
    (hbridge : ∀ e ∈ events inputs, e.isBridge = false) :
    NoLegLeft call inputs history ↔ HangupOrder (events inputs) := by
  have hinv := legInv_drive hrun hbridge
  exact (by simpa [LegInv] using hinv : Exited call inputs history) hfinal

-- B rejects the call: its hangup is consumed, and A is hung up.
def bRejects : List Input :=
  [.load true, .originated .A true, .event ⟨"c1", .A, .CHANNEL_ANSWER, "", 100⟩, .originated .B true,
   .event ⟨"c1", .B, .CHANNEL_HANGUP, "USER_BUSY", 200⟩]

theorem noLegLeft_bRejects :
    ∃ history, drive sampleCall bRejects = some (.returned, history) ∧
      (NoLegLeft sampleCall bRejects history ↔ HangupOrder (events bRejects)) :=
  ⟨_, rfl, @noLegLeft_iff_hangupOrder _ bRejects _ rfl ⟨.failed, by decide⟩ (by decide)⟩

-- A hangs up while B is ringing: the branch for a hangup before the bridge hangs
-- up A again, and B stays.
def aLeavesWhileBRings : List Input :=
  [.load true, .originated .A true, .event ⟨"c1", .A, .CHANNEL_ANSWER, "", 100⟩, .originated .B true,
   .event ⟨"c1", .A, .CHANNEL_HANGUP, "NORMAL_CLEARING", 200⟩]

theorem leg_left_aLeavesWhileBRings :
    ∃ history, drive sampleCall aLeavesWhileBRings = some (.returned, history) ∧
      .act (.finalizeCall .failed) ∈ history ∧
      (∀ e ∈ events aLeavesWhileBRings, e.isBridge = false) ∧
      ¬ NoLegLeft sampleCall aLeavesWhileBRings history := by
  refine ⟨_, rfl, by decide, by decide, ?_⟩
  intro hnone
  rcases hnone .B (by decide) with hconsumed | ⟨cause, hcommand⟩
  · exact absurd hconsumed (by unfold hangupConsumed; decide)
  · simp [legUUID] at hcommand

end Bos3000.Callback
