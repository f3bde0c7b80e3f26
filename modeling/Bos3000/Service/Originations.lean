import Bos3000.FSClient.Commands
import Bos3000.Service.Calls

-- What the originate commands of a call say, given what its request said.
namespace Bos3000.Service

open Callback
open FSClient (Intact callerOf buildMessage originateALeg originateBLegAndBridge isVariable)
open Words (isWord)

def originates? : Action → Option (Leg × OriginateParams)
  | .originateALeg p => some (.A, p)
  | .originateBLegAndBridge _ p => some (.B, p)
  | _ => none

def originateMessage (p : OriginateParams) : Leg → String
  | .A => buildMessage (originateALeg p)
  | .B => buildMessage (originateBLegAndBridge p)

def number (p : InitiateCallbackParams) : Leg → String
  | .A => p.aNumber
  | .B => p.bNumber

-- runCall originates each leg with the values in the record.
theorem resume_originates {call : CallbackCall} {stage next : Stage} {i : Input} {script : List Action}
    (h : resume call stage i = some (script, next)) {leg : Leg} {p : OriginateParams}
    (hp : (leg, p) ∈ script.filterMap originates?) : p = originateParams call leg := by
  revert h
  fun_cases resume call stage i <;> intro h <;> cases h
  case case14 e _ _ _ hangup | case15 e _ _ _ hangup _ =>
      simp only [hangup] at hp
      cases hleg : e.leg <;> simp [hleg, originates?, stopRecording] at hp
  case case17 bridged | case18 bridged => cases bridged <;> simp [originates?, stopRecording] at hp
  case case2 | case5 =>
      simp [originates?] at hp
      obtain ⟨rfl, rfl⟩ := hp
      rfl
  all_goals simp_all [originates?, startRecording]

theorem drive_originates {call : CallbackCall} {inputs : List Input} {stage : Stage} {history : History}
    (hrun : drive call inputs = some (stage, history)) {a : Action} (ha : .act a ∈ history) {leg : Leg}
    {p : OriginateParams} (hp : originates? a = some (leg, p)) : p = originateParams call leg := by
  revert ha
  refine drive_induction (motive := fun _ _ history => .act a ∈ history → p = originateParams call leg)
    (fun ha => absurd ha List.not_mem_nil) ?_ hrun
  intro inputs stage history i script next ih hresume ha
  simp only [List.mem_append, List.mem_cons, reduceCtorEq, List.mem_map, Moment.act.injEq, false_or,
    exists_eq_right] at ha
  obtain ha | ha := ha
  · exact ih ha
  · exact resume_originates hresume (List.mem_filterMap.mpr ⟨a, ha, hp⟩)

-- The caller id of a call is the one in its request, if there is one.
def Chosen (r : Request) (callerID : String) : Prop := ∀ c, r.params.callerID = some c → callerID = c

def ChosenAt (r : Request) : InitiateStage → Prop
  | .selectDID .. => r.params.callerID = none
  | .insertCall _ _ _ callerID | .store _ _ _ callerID => Chosen r callerID
  | _ => True

def Session.Chosen (x : Session) : Prop :=
  match x.phase with
  | .initiating stage => ChosenAt x.request stage
  | .active w => ∃ hold aGateway bGateway callerID labels, Service.Chosen x.request callerID ∧
      Machine.run ActiveCall.step (.init (callRecord x.request hold aGateway bGateway callerID)) labels = some w

theorem chosen_resume {r : Request} {stage next : InitiateStage} {x : Reply} {access : Access}
    (h : ChosenAt r stage) (hresume : stage.resume r x = some (next, access)) :
    (∀ call, next ≠ .stored call) ∧ ChosenAt r next ∨
    ∃ hold a b callerID, Chosen r callerID ∧ next = .stored (callRecord r hold a b callerID) := by
  revert hresume
  fun_cases InitiateStage.resume r stage x <;> intro hresume <;> cases hresume
  case case36 hold a b callerID => exact .inr ⟨hold, a, b, callerID, h, rfl⟩
  all_goals simp_all [ChosenAt, Chosen]

theorem Session.Chosen.step {x : Session} (h : x.Chosen) {m : Move} {phase : Phase} {access : Access}
    (hstep : x.step m = some (phase, access)) : Session.Chosen { x with phase } := by
  obtain ⟨stage, r, next, hstage, _, hresume, rfl⟩ | ⟨w, l, v, hw, _, hv, rfl, _⟩ :=
    Session.step_eq_some hstep
  · simp only [Session.Chosen, hstage] at h
    obtain ⟨hnot, hnext⟩ | ⟨hold, a, b, callerID, hchosen, rfl⟩ := chosen_resume h hresume
    · have hphase : Phase.of next = .initiating next := by
        cases next with
        | stored call => exact absurd rfl (hnot call)
        | _ => rfl
      simpa only [Session.Chosen, hphase] using hnext
    · exact ⟨hold, a, b, callerID, [], hchosen, rfl⟩
  · simp only [Session.Chosen, hw] at h ⊢
    obtain ⟨hold, a, b, callerID, labels, hchosen, hrun⟩ := h
    exact ⟨hold, a, b, callerID, labels ++ [l], hchosen, (Machine.run_concat _ _ _ _).mpr ⟨w, hrun, hv⟩⟩

theorem chosen_run {labels : List Label} {s : System} (hrun : run labels = some s) :
    ∀ x ∈ s.sessions, x.Chosen := by
  refine Machine.run_induction (motive := fun _ s => ∀ x ∈ s.sessions, x.Chosen) ?_ ?_ hrun
  · intro x hx
    cases hx
  · intro _ _ s t hs hP hstep
    refine (calls_run hs).each_step (P := fun x _ => x.Chosen) hstep (fun _ => trivial)
      (fun _ x _ _ h => h) ?_ hP
    intro _ _ x phase _ _ _ _ _ _ hmove _ h
    exact h.step hmove

-- A message that a call sends to dial a leg is one originate command with the
-- values of its request exactly if these are words and the caller id has no
-- delimiter of the list of variables.
theorem originations {labels : List Label} {s : System} (hrun : run labels = some s) {x : Session}
    (hx : x ∈ s.sessions) {w : ActiveCall} (hactive : x.phase = .active w) {a : Action} {leg : Leg}
    {p : OriginateParams} (hlog : .run (.act a) ∈ w.log) (hp : originates? a = some (leg, p))
    (hid : isWord x.request.callID = true) (hgateway : isWord p.gatewayIP = true) :
    p.number = number x.request.params leg ∧
    (∀ callerID, x.request.params.callerID = some callerID → p.callerID = callerID) ∧
    (Intact (originateMessage p leg) (legUUID w.call leg) (callerOf p) p.gatewayIP p.number ↔
      isVariable (callerOf p) ∧ isWord p.number) := by
  have hchosen := chosen_run hrun x hx
  simp only [Session.Chosen, hactive] at hchosen
  obtain ⟨hold, aGateway, bGateway, callerID, labels, hcaller, hcall⟩ := hchosen
  obtain ⟨inputs, hdrive⟩ := history_drive hcall
  have hhistory : .act a ∈ w.history ++ w.pending.map .act :=
    List.mem_append_left _ (List.mem_filterMap.mpr ⟨_, hlog, rfl⟩)
  have hparams := drive_originates hdrive hhistory hp
  have huuid : legUUID w.call leg = legUUID (callRecord x.request hold aGateway bGateway callerID) leg := by
    have hcallID : w.call.callID = x.request.callID := congrArg Fixed.callID (run_fixed hcall).1
    cases leg <;> exact congrArg (· ++ _) hcallID
  subst hparams
  refine ⟨by cases leg <;> rfl, ?_, ?_⟩
  · intro c hc
    have hgiven : (if callerID = "" then none else some callerID).getD "" = c := by
      rw [hcaller c hc]
      split <;> simp [*]
    cases leg <;> exact hgiven
  · have hword : isWord (legUUID (callRecord x.request hold aGateway bGateway callerID) leg) = true := by
      have hA : isWord "-a" = true := by decide
      have hB : isWord "-b" = true := by decide
      have hcall : isWord (callRecord x.request hold aGateway bGateway callerID).callID = true := hid
      cases leg <;> simp only [legUUID, Words.isWord_append, hcall, hA, hB, Bool.and_self]
    have hmessage := FSClient.originate_intact_iff
      (legUUID (callRecord x.request hold aGateway bGateway callerID) leg)
      (originateParams (callRecord x.request hold aGateway bGateway callerID) leg)
    simp only [hword, hgateway, true_and] at hmessage
    rw [huuid]
    cases leg <;> exact hmessage

-- The A leg of a call is dialled.
def dials (aNumber : String) : List Label :=
  admitted.set 2 (.initiate (some ⟨1, "client"⟩) ⟨aNumber, "13900000002", none, none, []⟩ "c1") ++
    ([.resume (.load true), .exec 0 true, .exec 0 true] : List Callback.Label).map fun l => .move 0 (.call l)

theorem originations_dialled :
    ∃ s x w p, run (dials "13800000001") = some s ∧ s.sessions = [x] ∧ x.phase = .active w ∧
      .run (.act (.originateALeg p)) ∈ w.log ∧ p.number = "13800000001" ∧
      (Intact (originateMessage p .A) (legUUID w.call .A) (callerOf p) p.gatewayIP p.number ↔
        isVariable (callerOf p) ∧ isWord p.number) := by
  refine ⟨_, _, _, ⟨"c1", "13800000001", "4001", "gw-a"⟩, rfl, rfl, rfl, by decide, rfl, ?_⟩
  exact (@originations (dials "13800000001") _ rfl _ (List.mem_singleton_self _) _ rfl
    (.originateALeg ⟨"c1", "13800000001", "4001", "gw-a"⟩) .A _ (by decide) rfl (by decide) (by decide)).2.2

-- A number with a space ends the dial string: another application follows it.
theorem number_injects :
    ∃ s x w p, run (dials "1 &system(x)") = some s ∧ s.sessions = [x] ∧ x.phase = .active w ∧
      .run (.act (.originateALeg p)) ∈ w.log ∧ p.number = "1 &system(x)" ∧
      ¬ Intact (originateMessage p .A) (legUUID w.call .A) (callerOf p) p.gatewayIP p.number := by
  refine ⟨_, _, _, ⟨"c1", "1 &system(x)", "4001", "gw-a"⟩, rfl, rfl, rfl, by decide, rfl, ?_⟩
  rintro ⟨_, hwords, _⟩
  exact absurd (congrArg List.length hwords) (by decide +kernel)

end Bos3000.Service
