import Bos3000.Callback.AnswerFirst
import Bos3000.Lib.Keyed

-- The channel events of FreeSWITCH on their way to the active calls.
namespace Bos3000.Callback

-- A plain event: its name and the headers that are read, where a missing one
-- reads as empty.
structure Event where
  name : String
  uniqueID : String
  hangupCause : String
  deriving DecidableEq

-- An event as a client gets it, with the names that its handlers are for.
structure Arrival where
  handlers : List String
  now : Time
  event : Event
  deriving DecidableEq

def EventName.text : EventName → String
  | .CHANNEL_ANSWER => "CHANNEL_ANSWER"
  | .CHANNEL_BRIDGE => "CHANNEL_BRIDGE"
  | .CHANNEL_HANGUP => "CHANNEL_HANGUP"

def hasSuffix (s ending : String) : Bool := ending.toList.isSuffixOf s.toList

-- The name that an event is dispatched under.
def Event.dispatchName (event : Event) : Option EventName :=
  let name := if event.name = "CHANNEL_HANGUP_COMPLETE" then "CHANNEL_HANGUP" else event.name
  if name = "CHANNEL_ANSWER" then some .CHANNEL_ANSWER
  else if name = "CHANNEL_BRIDGE" then some .CHANNEL_BRIDGE
  else if name = "CHANNEL_HANGUP" then some .CHANNEL_HANGUP
  else none

-- Determine leg from UUID suffix.
def uuidLeg (uuid : String) : Leg := if hasSuffix uuid "-b" then .B else .A

-- Extract callID by removing leg suffix.
def uuidCallID (uuid : String) : String :=
  if hasSuffix uuid "-a" || hasSuffix uuid "-b" then String.ofList (uuid.toList.take (uuid.toList.length - 2))
  else uuid

-- What is handed to the handler that is registered for the event's name.
def dispatchEvent (a : Arrival) : Option CallEvent :=
  match a.event.dispatchName with
  | none => none
  | some name =>
      if a.event.uniqueID = "" then none
      else if name.text ∈ a.handlers then
        some ⟨uuidCallID a.event.uniqueID, uuidLeg a.event.uniqueID, name,
          if name = .CHANNEL_HANGUP then a.event.hangupCause else "", a.now⟩
      else none

-- registerEventHandlers: the handler looks the call of the event up in activeCalls.
def eventHandler (a : Arrival) : Option (String × Label) := (dispatchEvent a).map fun e => (e.callID, .event e)

-- The process: its calls by their ids, those included that are no longer active.
abbrev Calls := String → Option ActiveCall

inductive ProcessLabel
  | store (call : CallbackCall)
  | move (callID : String) (l : Label)
  | esl (a : Arrival)

def ProcessLabel.keyed : ProcessLabel → Keyed.Label String ActiveCall Label Arrival
  | .store call => .start call.callID (.init call)
  | .move callID l => .move callID l
  | .esl a => .message a

-- Events come from FreeSWITCH only.
def ProcessLabel.fromCode : ProcessLabel → Bool
  | .move _ (.event _) => false
  | _ => true

def Calls.step (s : Calls) (l : ProcessLabel) : Option Calls :=
  if l.fromCode then Keyed.step ActiveCall.step eventHandler s l.keyed else none

def Calls.run (labels : List ProcessLabel) : Option Calls := Machine.run Calls.step (fun _ => none) labels

-- The leg of a call that a channel is, by the uuid that the call gave the channel
-- when it originated it. A channel with the id itself counts as the A leg.
def channelLeg (call : CallbackCall) (uuid : String) : Option Leg :=
  if uuid = legUUID call .A then some .A
  else if uuid = legUUID call .B then some .B
  else if uuid = call.callID ∧ uuid ≠ "" ∧ hasSuffix uuid "-a" = false ∧
    hasSuffix uuid "-b" = false then some .A
  else none

-- What a call is told of an event.
def hears (call : CallbackCall) (a : Arrival) : Option CallEvent :=
  (channelLeg call a.event.uniqueID).bind fun leg =>
    a.event.dispatchName.bind fun name =>
      if name.text ∈ a.handlers then
        some ⟨call.callID, leg, name, if name = .CHANNEL_HANGUP then a.event.hangupCause else "", a.now⟩
      else none

section Suffix

end Suffix

def Label.delivered? : Label → Option CallEvent
  | .event e => some e
  | _ => none

-- The events that the handler delivered to the call, dropped ones included.
def delivered (labels : List Label) : List CallEvent := labels.filterMap Label.delivered?

-- The channel is a queue: what runCall took and what waits come from the
-- deliveries in their order, and nothing is lost while all of them fit.
structure Queue (w : ActiveCall) (told : List CallEvent) : Prop where
  order : (consumed w.trace ++ w.eventCh).Sublist told
  full : w.inMap = true → told.length ≤ eventChCap → consumed w.trace ++ w.eventCh = told

section Queue

variable {w v : ActiveCall} {told : List CallEvent}

theorem Queue.same (h : Queue w told) (hsame : consumed v.trace ++ v.eventCh = consumed w.trace ++ w.eventCh)
    (hmap : v.inMap = true → w.inMap = true) : Queue v told := by
  refine ⟨?_, fun hin hfits => ?_⟩
  · rw [hsame]
    exact h.order
  · rw [hsame]
    exact h.full (hmap hin) hfits

theorem Queue.deliver (h : Queue w told) {e : CallEvent} (hstep : w.deliver e = some v) :
    Queue v (told ++ [e]) := by
  unfold ActiveCall.deliver at hstep
  split at hstep
  · cases hstep
  · split at hstep
    · cases hstep
      refine ⟨?_, fun hin hfits => ?_⟩
      · change (consumed w.trace ++ (w.eventCh ++ [e])).Sublist (told ++ [e])
        rw [← List.append_assoc]
        exact h.order.append (List.Sublist.refl [e])
      · change consumed w.trace ++ (w.eventCh ++ [e]) = told ++ [e]
        rw [List.length_append, List.length_singleton] at hfits
        rw [← List.append_assoc, h.full hin (by omega)]
    · rename_i hdrops
      cases hstep
      refine ⟨h.order.trans (List.sublist_append_left told [e]), fun hin hfits => ?_⟩
      -- a channel that is full holds ten deliveries already
      rw [List.length_append, List.length_singleton] at hfits
      have hlength := h.order.length_le
      rw [List.length_append] at hlength
      exact absurd ⟨hin, by omega⟩ hdrops

theorem Queue.resume (h : Queue w told) {i : Input} (hstep : w.resumeRun i = some v) : Queue v told := by
  obtain ⟨script, htrace⟩ := resume_trace hstep
  obtain ⟨stage, script, next, hrun, hresume, hoffers, _⟩ := resumeRun_eq_some hstep
  have hv : v = { w.take i with runCall := .script script next, log := w.log ++ [.run (.input i)] } := by
    simpa [ActiveCall.resumeRun, hrun, hresume, hoffers] using hstep.symm
  have hchannel : v.eventCh = (w.take i).eventCh := by rw [hv]
  have hmap : v.inMap = (w.take i).inMap := by rw [hv]
  refine h.same ?_ fun hin => ?_
  · rw [htrace, consumed_append, consumed_script, hchannel, List.append_assoc]
    cases i with
    | event e =>
        have hhead : e ∈ w.eventCh.head? := by simpa [ActiveCall.offers] using hoffers
        exact congrArg (consumed w.trace ++ ·) (List.cons_head?_tail hhead)
    | load | originated | bridged | timer | done => rfl
  · cases i <;> exact hmap.symm.trans hin

-- The steps that neither end a wait nor deliver an event.
theorem step_channel {l : Label} (hresume : ∀ i, l ≠ .resume i) (hevent : ∀ e, l ≠ .event e)
    (hstep : w.step l = some v) : v.eventCh = w.eventCh ∧ (v.inMap = true → w.inMap = true) := by
  cases l with
  | resume i => exact absurd rfl (hresume i)
  | event e => exact absurd rfl (hevent e)
  | exec now ok =>
      obtain ⟨_, _, ⟨_, _, rfl⟩ | ⟨_, _, _, rfl⟩⟩ := execRun_eq_some hstep <;> exact ⟨rfl, id⟩
  | finalize =>
      obtain ⟨_, _, rfl, _⟩ := finalizeRun_starts hstep
      exact ⟨rfl, id⟩
  | body o =>
      obtain ⟨_, _, _, _, _, _, _, rfl⟩ := bodyStep_eq_some hstep
      exact ⟨rfl, fun hin => (Bool.and_eq_true_iff.mp hin).1⟩
  | fsLost | shutdown | forceHangup auth =>
      obtain ⟨_, _, rfl⟩ := request_eq_some (by simp) hstep
      exact ⟨rfl, id⟩
  | thread k =>
      refine ⟨?_, fun hin => (threadStep_aside hstep).inMap ▸ hin⟩
      obtain ⟨t, u, next, _, hadvances, rfl⟩ := threadStep_eq_some hstep
      cases hadvances with
      | finalize hplace | finalized hplace =>
          obtain ⟨_, rfl, _⟩ := finalizeStep_starts hplace
          rfl
      | fsLost | shutdown | shutdownCancel | hangup | hangupBy | hangupCancel | hangupLegs => rfl

theorem Queue.step (h : Queue w told) {l : Label} (hstep : w.step l = some v) :
    Queue v (told ++ delivered [l]) := by
  by_cases hresume : ∃ i, l = .resume i
  · obtain ⟨i, rfl⟩ := hresume
    rw [show delivered [.resume i] = [] from rfl, List.append_nil]
    exact h.resume hstep
  · by_cases hevent : ∃ e, l = .event e
    · obtain ⟨e, rfl⟩ := hevent
      exact h.deliver hstep
    · have hnone : delivered [l] = [] := by
        cases l with
        | event e => exact absurd ⟨e, rfl⟩ hevent
        | _ => rfl
      obtain ⟨hchannel, hmap⟩ :=
        step_channel (fun i hi => hresume ⟨i, hi⟩) (fun e he => hevent ⟨e, he⟩) hstep
      have htrace : v.trace = w.trace := (step_history (fun i hi => hresume ⟨i, hi⟩) hstep).2
      rw [hnone, List.append_nil]
      exact h.same (by rw [htrace, hchannel]) hmap

end Queue

section Runs

variable {labels : List ProcessLabel} {s : Calls}

-- Two calls whose A legs answer and hang up, and an event of no interest.
def twoCalls : List ProcessLabel :=
  let arrives (name uuid : String) : ProcessLabel :=
    .esl ⟨["CHANNEL_ANSWER", "CHANNEL_BRIDGE", "CHANNEL_HANGUP"], 5, ⟨name, uuid, "NORMAL_CLEARING"⟩⟩
  [.store sampleCall, .store { sampleCall with callID := "c2" }, arrives "CHANNEL_ANSWER" "c2-a",
   arrives "CHANNEL_ANSWER" "c1-a", arrives "CHANNEL_PARK" "c1-a", arrives "CHANNEL_HANGUP_COMPLETE" "c1-a",
   arrives "CHANNEL_HANGUP" "c2-a"]

end Runs

end Bos3000.Callback
