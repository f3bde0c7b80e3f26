import Bos3000.Callback.FinalStatus
import Bos3000.Callback.BilledTime

-- A call in mock mode: the client obeys its commands with the events that the
-- configuration asks for, fired by a goroutine for each leg.
namespace Bos3000.Callback

inductive ALegResult
  | answer | no_answer | reject | error | other
  deriving DecidableEq, Repr

inductive BLegResult
  | answer | reject | error | busy | other
  deriving DecidableEq, Repr

structure MockConfig where
  aLegResult : ALegResult
  bLegResult : BLegResult
  aLegHangupCause : String
  bLegHangupCause : String
  deriving DecidableEq, Repr

def MockConfig.originates (config : MockConfig) : Leg → Bool
  | .A => config.aLegResult ≠ .error
  | .B =>
      match config.bLegResult with
      | .error | .reject | .busy => false
      | .answer | .other => true

def causeOr (cause default : String) : String := if cause = "" then default else cause

-- What the goroutine of a leg fires. It reads the clock once, before its first event.
def MockConfig.fires (config : MockConfig) (callID : String) (now : Time) : Leg → List CallEvent
  | .A =>
      match config.aLegResult with
      | .answer => [⟨callID, .A, .CHANNEL_ANSWER, "", now⟩]
      | .no_answer => [⟨callID, .A, .CHANNEL_HANGUP, causeOr config.aLegHangupCause "NO_ANSWER", now⟩]
      | .reject => [⟨callID, .A, .CHANNEL_HANGUP, causeOr config.aLegHangupCause "CALL_REJECTED", now⟩]
      | .error | .other => []
  | .B =>
      [⟨callID, .B, .CHANNEL_ANSWER, "", now⟩, ⟨callID, .B, .CHANNEL_BRIDGE, "", now⟩,
        ⟨callID, .B, .CHANNEL_HANGUP, causeOr config.bLegHangupCause "NORMAL_CLEARING", now⟩]

structure MockCallState where
  uuid : String
  callID : String
  leg : Leg
  deriving DecidableEq, Repr

-- A call with the client's entries for it and the events that its goroutines have
-- still to fire.
structure MockCall where
  active : ActiveCall
  calls : List MockCallState
  firing : Leg → List CallEvent

def MockCall.init (call : CallbackCall) : MockCall := ⟨.init call, [], fun _ => []⟩

-- fireEvent, with the handler of registerEventHandlers.
def MockCall.fireEvent (s : MockCall) (e : CallEvent) : MockCall :=
  { s with active := (s.active.deliver e).getD s.active }

def MockCall.originate (config : MockConfig) (s : MockCall) (leg : Leg) (callID : String) (now : Time) : MockCall :=
  if config.originates leg then
    { s with
      calls := ⟨legUUID s.active.call leg, callID, leg⟩ :: s.calls
      firing := Function.update s.firing leg (s.firing leg ++ config.fires callID now leg) }
  else s

def MockCall.hangupCall (s : MockCall) (uuid cause : String) (now : Time) : MockCall :=
  match s.calls.find? (·.uuid = uuid) with
  | none => s
  | some cs => s.fireEvent ⟨cs.callID, cs.leg, .CHANNEL_HANGUP, cause, now⟩

-- What the client does on a command.
def MockCall.obey (config : MockConfig) (now : Time) (s : MockCall) : Effect → MockCall
  | .run (.act (.originateALeg p)) => s.originate config .A p.callID now
  | .run (.act (.originateBLegAndBridge _ p)) => s.originate config .B p.callID now
  | .run (.act (.hangupCall uuid cause)) | .hangupCall uuid cause => s.hangupCall uuid cause now
  | _ => s

-- The client answers as it is configured, never loses its connection, and has no
-- events but its own.
def MockConfig.allows (config : MockConfig) : Label → Bool
  | .resume (.originated leg ok) => ok = config.originates leg
  | .resume (.bridged ok) => ok
  | .event _ | .fsLost => false
  | _ => true

inductive MockLabel
  | call (l : Label) (now : Time)
  | fire (leg : Leg)
  deriving DecidableEq, Repr

-- A step of the call, with what the client does on its commands, or the next event
-- of a goroutine.
def MockCall.step (config : MockConfig) (s : MockCall) : MockLabel → Option MockCall
  | .call l now =>
      if config.allows l then
        (s.active.step l).map fun active =>
          (active.log.drop s.active.log.length).foldl (obey config now) { s with active }
      else none
  | .fire leg =>
      match s.firing leg with
      | [] => none
      | e :: left => some ({ s with firing := Function.update s.firing leg left }.fireEvent e)

-- No timer fires, and nobody ends the call from outside.
def undisturbed (_ : MockCall) : MockLabel → Bool
  | .call (.resume .timer) _ | .call .shutdown _ | .call (.forceHangup _) _ => false
  | _ => true

-- The times of the record that the B leg's events give.
inductive BTime
  | answer | bridge | bridgeEnd | hangup
  deriving DecidableEq, Repr

def CallbackCall.bTime (call : CallbackCall) : BTime → Option Time
  | .answer => call.bAnswerAt
  | .bridge => call.bridgeAt
  | .bridgeEnd => call.bridgeEndAt
  | .hangup => call.bHangupAt

-- The time after a statement.
def Action.setsTime (f : BTime) (t : Option Time) : Action → Option Time
  | .assign (.bAnswerAt stamp) => if f = .answer then some (stamp.read 0) else t
  | .assign (.bridgeAt stamp) => if f = .bridge then some (stamp.read 0) else t
  | .assign (.bridgeEndAt stamp) => if f = .bridgeEnd then some (stamp.read 0) else t
  | .assign (.bHangupAt stamp) => if f = .hangup then some (stamp.read 0) else t
  | _ => t

-- The statement takes these times from an event.
def Action.fromEvent : Action → Bool
  | .assign (.bAnswerAt .now) | .assign (.bridgeAt .now) | .assign (.bridgeEndAt .now) | .assign (.bHangupAt .now) =>
      false
  | _ => true

-- The times after the pending statements.
def ActiveCall.plan (w : ActiveCall) (f : BTime) : Option Time := w.pending.foldl (Action.setsTime f) (w.call.bTime f)

-- All times are b, and a call that is over has an end for what has begun.
def Planned (b : Time) (plan : BTime → Option Time) : Stage → Prop
  | .start | .originatingA | .waitingA | .originatingB => ∀ f, plan f = none
  | .loop bridged | .bridging bridged => (∀ f, plan f = none ∨ plan f = some b) ∧
      (bridged = false → plan .bridge = none)
  | .returned => (∀ f, plan f = none ∨ plan f = some b) ∧ (plan .answer = none ∨ plan .hangup = some b) ∧
      (plan .bridge = none ∨ plan .bridgeEnd = some b)

def Action.originates? : Action → Option Leg
  | .originateALeg _ => some .A
  | .originateBLegAndBridge .. => some .B
  | _ => none

def Action.isHangup : Action → Bool
  | .hangupCall .. => true
  | _ => false

-- The leg whose origination the stage waits for.
def Stage.awaited : Stage → List Leg
  | .originatingA => [.A]
  | .originatingB => [.B]
  | _ => []

def ActiveCall.orders (w : ActiveCall) : List Leg := w.pending.filterMap Action.originates?

-- The events that the call has not taken yet.
def MockCall.coming (s : MockCall) : List CallEvent := s.active.eventCh ++ s.firing .A ++ s.firing .B

def Coming (b : Time) (s : MockCall) : Stage → Prop
  | .start => s.active.orders = [] ∧ s.coming = []
  | .originatingA => s.active.orders = [.A] ∧ s.coming = [] ∨ s.active.orders = [] ∧ s.firing .B = [] ∧
      s.coming.length ≤ 1
  | .waitingA => s.active.orders = [] ∧ s.firing .B = [] ∧ s.coming.length ≤ 1
  | .originatingB => s.active.orders = [.B] ∧ s.coming = [] ∨
      s.active.orders = [] ∧ ∀ e ∈ s.coming, e.leg = .B ∧ e.timestamp = b
  | .loop _ | .bridging _ => s.active.orders = [] ∧ ∀ e ∈ s.coming, e.leg = .B ∧ e.timestamp = b
  | .returned => True

section Scripts

variable {call : CallbackCall} {stage next : Stage} {i : Input} {script : List Action}

theorem onCall_bTime {a : Action} (ha : a.fromEvent = true) (now : Time) (call : CallbackCall) (f : BTime) :
    (a.onCall now call).bTime f = a.setsTime f (call.bTime f) := by
  cases a with
  | assign a =>
      cases a with
      | bAnswerAt stamp | bridgeAt stamp | bridgeEndAt stamp | bHangupAt stamp =>
          cases stamp with
          | event t => cases f <;> rfl
          | now => cases ha
      | _ => cases f <;> rfl
  | _ => rfl

theorem resume_fromEvent (h : resume call stage i = some (script, next)) : ∀ a ∈ script, a.fromEvent = true := by
  revert h
  fun_cases resume call stage i <;> intro h <;> cases h
  case case14 e _ _ _ hangup | case15 e _ _ _ hangup _ =>
      simp only [hangup]
      cases e.leg <;> simp [Action.fromEvent, stopRecording]
  case case17 bridged | case18 bridged => cases bridged <;> simp [Action.fromEvent, stopRecording]
  all_goals simp [Action.fromEvent, startRecording]

theorem resume_isHangup (h : resume call stage i = some (script, next)) (hnext : next ≠ .returned) :
    ∀ a ∈ script, a.isHangup = false := by
  revert h
  fun_cases resume call stage i <;> intro h <;> cases h <;>
    first
      | exact absurd rfl hnext
      | simp [Action.isHangup, startRecording]

theorem resume_orders (h : resume call stage i = some (script, next)) (hnext : next ≠ .returned) :
    script.filterMap Action.originates? = next.awaited := by
  revert h
  fun_cases resume call stage i <;> intro h <;> cases h <;>
    first
      | exact absurd rfl hnext
      | rfl

theorem forall_bTime {P : BTime → Prop} : (∀ f, P f) ↔ P .answer ∧ P .bridge ∧ P .bridgeEnd ∧
    P .hangup := by
  constructor
  · intro h
    exact ⟨h _, h _, h _, h _⟩
  · rintro ⟨hanswer, hbridge, hend, hhangup⟩ f
    cases f <;> assumption

-- One wait of runCall. The events after the first are the B leg's.
theorem resume_planned {b : Time} {plan : BTime → Option Time} (hplan : Planned b plan stage)
    (h : resume call stage i = some (script, next)) (htimer : i ≠ .timer) (hdone : i ≠ .done)
    (hbridged : i ≠ .bridged false)
    (hevent : ∀ e, i = .event e → stage ≠ .waitingA → e.leg = .B ∧ e.timestamp = b) :
    Planned b (fun f => script.foldl (Action.setsTime f) (plan f)) next := by
  revert h
  fun_cases resume call stage i <;> intro h <;> cases h
  case case14 e _ _ _ hangup =>
      obtain ⟨hleg, htime⟩ := hevent e rfl (by simp)
      obtain ⟨htimes, _⟩ := hplan
      simp [hangup, hleg, htime, Planned, forall_bTime, Action.setsTime, Stamp.read, stopRecording, htimes]
  case case15 e _ _ _ hangup hbridge =>
      obtain ⟨hleg, htime⟩ := hevent e rfl (by simp)
      obtain ⟨htimes, hopen⟩ := hplan
      have hnone := hopen (by simpa using hbridge)
      simp [hangup, hleg, htime, Planned, forall_bTime, Action.setsTime, Stamp.read, htimes, hnone]
  all_goals
    simp_all [Planned, forall_bTime, Action.setsTime, Stamp.read, startRecording]

end Scripts

section Steps

variable {config : MockConfig} {b : Time} {s t : MockCall}

-- Nothing but runCall ends the call, and what it records of the B leg comes from
-- events and costs nothing.
structure Unbilled (w : ActiveCall) : Prop where
  settling : Settling w
  sole : Sole w
  cancelled : w.cancelled = false
  threads : w.threads = []
  fromEvent : ∀ a ∈ w.pending, a.fromEvent = true
  hangsUp : w.stage ≠ .returned → ∀ a ∈ w.pending, a.isHangup = false
  free : w.call.bDurationMs = 0 ∧ w.call.bridgeDurationMs = 0 ∧ w.call.bLegCost = 0

structure Given (b : Time) (s : MockCall) : Prop where
  kept : Unbilled s.active
  coming : Coming b s s.active.stage
  planned : Planned b s.active.plan s.active.stage

theorem given_init {call : CallbackCall} (htimes : ∀ f, call.bTime f = none)
    (hfree : call.bDurationMs = 0 ∧ call.bridgeDurationMs = 0 ∧ call.bLegCost = 0) : Given b (.init call) :=
  ⟨⟨settling_init call, sole_init call, rfl, rfl, by simp [MockCall.init, ActiveCall.init, ActiveCall.pending],
    by simp [MockCall.init, ActiveCall.init, ActiveCall.pending], hfree⟩, ⟨rfl, rfl⟩, htimes⟩

-- An event that arrives waits in the channel, or is dropped.
theorem fireEvent_active (s : MockCall) (e : CallEvent) :
    (∃ eventCh, (eventCh = s.active.eventCh ∨ eventCh = s.active.eventCh ++ [e]) ∧
      s.fireEvent e = { s with active := { s.active with eventCh } }) ∧
      ((s.fireEvent e).active = s.active ∨ s.active.step (.event e) = some (s.fireEvent e).active) := by
  unfold MockCall.fireEvent
  cases hdeliver : s.active.deliver e with
  | none => exact ⟨⟨_, .inl rfl, rfl⟩, .inl rfl⟩
  | some v =>
      refine ⟨?_, .inr hdeliver⟩
      obtain rfl | ⟨_, rfl⟩ := deliver_eq_some hdeliver
      · exact ⟨_, .inl rfl, rfl⟩
      · exact ⟨_, .inr rfl, rfl⟩

-- What the events that come may become.
theorem Coming.mono {stage : Stage} (h : Coming b s stage) (horders : t.active.orders = s.active.orders)
    (hlength : t.coming.length ≤ s.coming.length) (hmem : ∀ e ∈ t.coming, e ∈ s.coming)
    (hfiring : s.firing .B = [] → t.firing .B = []) : Coming b t stage := by
  have hnil : s.coming = [] → t.coming = [] := by
    intro hnil
    rw [hnil] at hlength
    exact List.eq_nil_of_length_eq_zero (Nat.le_zero.mp hlength)
  cases stage with
  | start => exact ⟨horders ▸ h.1, hnil h.2⟩
  | originatingA =>
      obtain ⟨hawaits, hcoming⟩ | ⟨hnone, hB, hle⟩ := h
      · exact .inl ⟨horders ▸ hawaits, hnil hcoming⟩
      · exact .inr ⟨horders ▸ hnone, hfiring hB, hlength.trans hle⟩
  | waitingA => exact ⟨horders ▸ h.1, hfiring h.2.1, hlength.trans h.2.2⟩
  | originatingB =>
      obtain ⟨hawaits, hcoming⟩ | ⟨hnone, hall⟩ := h
      · exact .inl ⟨horders ▸ hawaits, hnil hcoming⟩
      · exact .inr ⟨horders ▸ hnone, fun e he => hall e (hmem e he)⟩
  | loop bridged | bridging bridged => exact ⟨horders ▸ h.1, fun e he => h.2 e (hmem e he)⟩
  | returned => trivial

theorem Unbilled.fireEvent (h : Unbilled s.active) (e : CallEvent) : Unbilled (s.fireEvent e).active := by
  obtain ⟨⟨eventCh, _, hfire⟩, hactive⟩ := fireEvent_active s e
  have hkept : Settling (s.fireEvent e).active ∧ Sole (s.fireEvent e).active := by
    rcases hactive with hsame | hevent
    · rw [hsame]
      exact ⟨h.settling, h.sole⟩
    · exact ⟨h.settling.step hevent, h.sole.step h.settling (by simp) hevent⟩
  rw [hfire] at hkept ⊢
  exact ⟨hkept.1, hkept.2, h.cancelled, h.threads, h.fromEvent, h.hangsUp, h.free⟩

theorem Given.fire (h : Given b s) {leg : Leg} (hstep : s.step config (.fire leg) = some t) : Given b t := by
  simp only [MockCall.step] at hstep
  split at hstep
  · cases hstep
  · rename_i e left hleft
    cases hstep
    have hkept := @Unbilled.fireEvent { s with firing := Function.update s.firing leg left } h.kept e
    obtain ⟨⟨eventCh, heventCh, hfire⟩, _⟩ :=
      fireEvent_active { s with firing := Function.update s.firing leg left } e
    rw [hfire] at hkept ⊢
    refine ⟨hkept, h.coming.mono rfl ?_ ?_ ?_, h.planned⟩
    · cases leg <;> rcases heventCh with rfl | rfl <;>
        simp only [MockCall.coming, List.length_append, List.length_cons, List.length_nil, Function.update_self, hleft,
          ne_eq, reduceCtorEq, not_false_eq_true, Function.update_of_ne] <;>
        omega
    · intro f hf
      cases leg <;> rcases heventCh with rfl | rfl <;> (simp [MockCall.coming, hleft] at hf ⊢; tauto)
    · intro hB
      cases leg with
      | A => simpa using hB
      | B =>
          rw [hB] at hleft
          cases hleft

theorem resumeRun_take {w v : ActiveCall} {i : Input} (h : w.resumeRun i = some v) :
    ∃ stage script next, w.runCall = .script [] stage ∧ resume w.call stage i = some (script, next) ∧
      w.offers i = true ∧
      v = { w with
        eventCh := (w.take i).eventCh
        runCall := .script script next
        log := w.log ++ [.run (.input i)] } := by
  obtain ⟨stage, script, next, hrun, hresume, hoffers, _⟩ := resumeRun_eq_some h
  simp only [ActiveCall.resumeRun, hrun, hresume, hoffers, if_true, Option.some.injEq] at h
  obtain ⟨eventCh, htake⟩ := take_eq w i
  rw [htake] at h ⊢
  exact ⟨stage, script, next, hrun, hresume, hoffers, h.symm⟩

-- The call's next event comes first.
theorem Coming.resume {call : CallbackCall} {stage next : Stage} {i : Input} {script : List Action}
    (h : Coming b s stage)
    (hnone : s.active.orders = []) (hresume : resume call stage i = some (script, next))
    (hoffers : s.active.offers i = true)
    (horders : next ≠ .returned → t.active.orders = next.awaited)
    (heventCh : t.active.eventCh = (s.active.take i).eventCh)
    (hfiring : t.firing = s.firing) : Coming b t next := by
  have hsame : i.event? = none → t.coming = s.coming := by
    intro hi
    cases i with
    | event e => cases hi
    | _ => simp [MockCall.coming, heventCh, hfiring, ActiveCall.take]
  have htaken : ∀ e, i = .event e → s.coming = e :: t.coming := by
    rintro e rfl
    obtain ⟨rest, hrest⟩ := List.head?_eq_some_iff.mp (of_decide_eq_true hoffers)
    simp [MockCall.coming, heventCh, hfiring, ActiveCall.take, hrest]
  revert hresume
  fun_cases Callback.resume call stage i <;> intro hresume <;> cases hresume
  case case2 => exact .inl ⟨horders (by simp), (hsame rfl).trans h.2⟩
  case case4 =>
      obtain ⟨hawaits, _⟩ | ⟨_, hB, hle⟩ := h
      · rw [hnone] at hawaits
        cases hawaits
      · exact ⟨horders (by simp), by rw [hfiring]; exact hB, by rw [hsame rfl]; exact hle⟩
  case case5 e _ | case7 e _ _ =>
      have hcoming := htaken e rfl
      have hle := h.2.2
      rw [hcoming, List.length_cons] at hle
      exact .inl ⟨horders (by simp), List.eq_nil_of_length_eq_zero (by omega)⟩
  case case11 =>
      obtain ⟨hawaits, _⟩ | ⟨_, hall⟩ := h
      · rw [hnone] at hawaits
        cases hawaits
      · exact ⟨horders (by simp), by rw [hsame rfl]; exact hall⟩
  case case12 e _ | case13 e _ _ | case16 e _ _ _ =>
      refine ⟨horders (by simp), fun f hf => h.2 f ?_⟩
      rw [htaken e rfl]
      exact List.mem_cons_of_mem e hf
  case case19 => exact ⟨horders (by simp), by rw [hsame rfl]; exact h.2⟩
  all_goals trivial

theorem onCall_free (a : Action) (now : Time) (call : CallbackCall) :
    (a.onCall now call).bDurationMs = call.bDurationMs ∧
      (a.onCall now call).bridgeDurationMs = call.bridgeDurationMs ∧
      (a.onCall now call).bLegCost = call.bLegCost := by
  cases a with
  | assign a => cases a <;> exact ⟨rfl, rfl, rfl⟩
  | _ => exact ⟨rfl, rfl, rfl⟩

theorem Given.resume (h : Given b s) {i : Input} {v : ActiveCall} (hallows : config.allows (.resume i) = true)
    (htimer : i ≠ .timer) (hstep : s.active.step (.resume i) = some v) : Given b { s with active := v } := by
  have hsettling := h.kept.settling.step hstep
  have hsole := h.kept.sole.step h.kept.settling (by simp) hstep
  obtain ⟨stage, script, next, hrun, hresume, hoffers, rfl⟩ := resumeRun_take hstep
  have hstage : s.active.stage = stage := by rw [ActiveCall.stage, hrun]
  have hpending : s.active.pending = [] := pending_script hrun
  have hplan : s.active.plan = s.active.call.bTime := by
    funext f
    rw [ActiveCall.plan, hpending, List.foldl_nil]
  have hnone : s.active.orders = [] := by rw [ActiveCall.orders, hpending, List.filterMap_nil]
  have hcoming := h.coming
  have hplanned := h.planned
  rw [hstage] at hcoming hplanned
  rw [hplan] at hplanned
  have hevent : ∀ e, i = .event e → stage ≠ .waitingA → e.leg = .B ∧ e.timestamp = b := by
    rintro e rfl hnot
    have hmem : e ∈ s.coming := by
      have hhead := List.mem_of_mem_head? (of_decide_eq_true hoffers)
      simp [MockCall.coming, hhead]
    cases stage with
    | loop bridged => exact hcoming.2 e hmem
    | waitingA => exact absurd rfl hnot
    | _ => cases hresume
  have hdone : i ≠ .done := by
    rintro rfl
    have hcancelled : s.active.cancelled = true := hoffers
    rw [h.kept.cancelled] at hcancelled
    cases hcancelled
  have hbridged : i ≠ .bridged false := by
    rintro rfl
    cases hallows
  refine ⟨⟨hsettling, hsole, h.kept.cancelled, h.kept.threads, resume_fromEvent hresume, ?_, h.kept.free⟩, ?_,
    ?_⟩
  · exact fun hnext => resume_isHangup hresume hnext
  · exact hcoming.resume hnone hresume hoffers (fun hnext => resume_orders hresume hnext) rfl rfl
  · exact resume_planned hplanned hresume htimer hdone hbridged hevent

theorem execRun_acts {w v : ActiveCall} {now : Time} {ok : Bool} (h : w.execRun now ok = some v) :
    ∃ a, w.pending = a :: v.pending ∧ v.stage = w.stage ∧ v.call = a.onCall now w.call ∧
      v.log = w.log ++ [.run (.act a)] ∧ v.eventCh = w.eventCh ∧ v.cancelled = w.cancelled ∧
      v.threads = w.threads := by
  obtain ⟨todo, stage, ⟨s, hrun, rfl⟩ | ⟨a, hrun, _, rfl⟩⟩ := execRun_eq_some h
  · exact ⟨.finalizeCall s, pending_script hrun, by simp only [ActiveCall.stage, hrun], rfl, rfl, rfl, rfl, rfl⟩
  · exact ⟨a, pending_script hrun, by simp only [ActiveCall.stage, hrun], rfl, rfl, rfl, rfl, rfl⟩

theorem Unbilled.exec {w v : ActiveCall} (h : Unbilled w) {now : Time} {ok : Bool}
    (hstep : w.step (.exec now ok) = some v) :
    Unbilled v ∧ v.plan = w.plan := by
  have hsettling := h.settling.step hstep
  have hsole := h.sole.step h.settling (by simp) hstep
  obtain ⟨a, hpending, hstage, hcall, _, _, hcancelled, hthreads⟩ := execRun_acts hstep
  have hfromEvent := h.fromEvent
  have hhangsUp := h.hangsUp
  rw [hpending] at hfromEvent hhangsUp
  obtain ⟨hduration, hbridge, hcost⟩ := onCall_free a now w.call
  refine ⟨⟨hsettling, hsole, hcancelled.trans h.cancelled, hthreads.trans h.threads, ?_, ?_, ?_⟩, ?_⟩
  · exact fun x hx => hfromEvent x (List.mem_cons_of_mem a hx)
  · exact fun hnot x hx => hhangsUp (hstage ▸ hnot) x (List.mem_cons_of_mem a hx)
  · rw [hcall, hduration, hbridge, hcost]
    exact h.free
  · funext f
    rw [ActiveCall.plan, ActiveCall.plan, hpending, hcall, onCall_bTime (hfromEvent a List.mem_cons_self),
      List.foldl_cons]

-- A leg that is originated was awaited, and nothing is coming yet.
theorem Coming.issued {stage : Stage} (h : Coming b s stage) (hstage : stage ≠ .returned) {leg : Leg}
    {rest : List Leg}
    (horders : s.active.orders = leg :: rest) : stage.awaited = [leg] ∧ rest = [] ∧ s.coming = [] := by
  cases stage with
  | originatingA | originatingB =>
      obtain ⟨hawaits, hcoming⟩ | ⟨hnone, _⟩ := h
      · rw [horders] at hawaits
        cases hawaits
        exact ⟨rfl, rfl, hcoming⟩
      · rw [horders] at hnone
        cases hnone
  | returned => exact absurd rfl hstage
  | start | waitingA | loop bridged | bridging bridged =>
      have hnone := h.1
      rw [horders] at hnone
      cases hnone

theorem originate_active (config : MockConfig) (s : MockCall) (leg : Leg) (callID : String) (now : Time) :
    (s.originate config leg callID now).active = s.active ∧ ∀ other,
      (s.originate config leg callID now).firing other =
      s.firing other ∨ other = leg ∧ (s.originate config leg callID now).firing other =
        s.firing other ++ config.fires callID now leg := by
  unfold MockCall.originate
  split
  · refine ⟨rfl, fun other => ?_⟩
    by_cases hother : other = leg
    · subst hother
      exact .inr ⟨rfl, Function.update_self ..⟩
    · exact .inl (Function.update_of_ne hother ..)
  · exact ⟨rfl, fun _ => .inl rfl⟩

theorem fires_A (config : MockConfig) (callID : String) (now : Time) : (config.fires callID now .A).length ≤ 1 := by
  cases h : config.aLegResult <;> simp [MockConfig.fires, h]

theorem fires_B (config : MockConfig) (callID : String) (now : Time) :
    ∀ e ∈ config.fires callID now .B, e.leg = .B ∧ e.timestamp = now := by
  simp [MockConfig.fires]

-- A leg is originated. What comes of the B leg has the time of its goroutine.
theorem Given.originated {v : ActiveCall} (h : Given b s) (hkept : Unbilled v) (hplan : v.plan = s.active.plan)
    (hstage : v.stage = s.active.stage) (heventCh : v.eventCh = s.active.eventCh) {leg : Leg}
    (horders : s.active.orders = leg :: v.orders) (callID : String) (now : Time) :
    ∃ b', Given b' (MockCall.originate config { s with active := v } leg callID now) := by
  obtain ⟨hactive, hfiring⟩ := originate_active config { s with active := v } leg callID now
  have hplanned : Planned b v.plan v.stage := by
    rw [hplan, hstage]
    exact h.planned
  by_cases hreturned : s.active.stage = .returned
  · refine ⟨b, by rw [hactive]; exact hkept, ?_, by rw [hactive]; exact hplanned⟩
    rw [hactive, hstage, hreturned]
    trivial
  · obtain ⟨hawaited, hnone, hcoming⟩ := h.coming.issued hreturned horders
    simp only [MockCall.coming, List.append_eq_nil_iff] at hcoming
    obtain ⟨⟨hempty, hA⟩, hB⟩ := hcoming
    have hsame : ∀ t : MockCall, t.active = v → t.active.eventCh = [] := by
      rintro t rfl
      exact heventCh.trans hempty
    cases leg with
    | A =>
        have horiginating : s.active.stage = .originatingA := by
          cases hs : s.active.stage <;> rw [hs] at hawaited <;> first | rfl | cases hawaited
        refine ⟨b, by rw [hactive]; exact hkept, ?_, by rw [hactive]; exact hplanned⟩
        have hfiringB : (MockCall.originate config { s with active := v } .A callID now).firing .B = [] := by
          obtain hsame | ⟨hleg, _⟩ := hfiring .B
          · exact hsame.trans hB
          · cases hleg
        have hfiringA : ((MockCall.originate config { s with active := v } .A callID now).firing .A).length ≤ 1 := by
          obtain hsame | ⟨_, hnew⟩ := hfiring .A
          · rw [hsame, hA]
            exact Nat.zero_le 1
          · rw [hnew, hA, List.nil_append]
            exact fires_A config callID now
        rw [hactive, hstage, horiginating]
        refine .inr ⟨by rw [hactive]; exact hnone, hfiringB, ?_⟩
        rw [MockCall.coming, hsame _ hactive, hfiringB, List.nil_append, List.append_nil]
        exact hfiringA
    | B =>
        have horiginating : s.active.stage = .originatingB := by
          cases hs : s.active.stage <;> rw [hs] at hawaited <;> first | rfl | cases hawaited
        refine ⟨now, by rw [hactive]; exact hkept, ?_, ?_⟩
        · have hfiringA : (MockCall.originate config { s with active := v } .B callID now).firing .A = [] := by
            obtain hsame | ⟨hleg, _⟩ := hfiring .A
            · exact hsame.trans hA
            · cases hleg
          rw [hactive, hstage, horiginating]
          refine .inr ⟨by rw [hactive]; exact hnone, ?_⟩
          rw [MockCall.coming, hsame _ hactive, hfiringA, List.nil_append, List.nil_append]
          obtain hsame | ⟨_, hnew⟩ := hfiring .B
          · rw [hsame, hB]
            simp
          · rw [hnew, hB, List.nil_append]
            exact fires_B config callID now
        · rw [hactive, hstage, horiginating]
          rw [hstage, horiginating] at hplanned
          exact hplanned

theorem Given.exec (h : Given b s) {now at' : Time} {ok : Bool} {v : ActiveCall}
    (hstep : s.active.step (.exec at' ok) = some v) :
    ∃ b', Given b' ((v.log.drop s.active.log.length).foldl (MockCall.obey config now) { s with active := v }) := by
  obtain ⟨hkept, hplan⟩ := h.kept.exec hstep
  obtain ⟨a, hpending, hstage, _, hlog, heventCh, _, _⟩ := execRun_acts hstep
  have horders : s.active.orders = (a.originates?).toList ++ v.orders := by
    rw [ActiveCall.orders, hpending, List.filterMap_cons, ActiveCall.orders]
    cases a.originates? <;> rfl
  have hplanned : Planned b v.plan v.stage := by
    rw [hplan, hstage]
    exact h.planned
  rw [hlog, List.drop_left, List.foldl_cons, List.foldl_nil]
  cases a with
  | originateALeg p => exact h.originated hkept hplan hstage heventCh horders p.callID now
  | originateBLegAndBridge aUUID p => exact h.originated hkept hplan hstage heventCh horders p.callID now
  | hangupCall uuid cause =>
      have hreturned : s.active.stage = .returned := by
        by_contra hnot
        have hfalse := h.kept.hangsUp hnot (.hangupCall uuid cause) (by rw [hpending]; exact List.mem_cons_self)
        cases hfalse
      have hany : ∀ t : MockCall, Unbilled t.active → t.active.stage = v.stage → t.active.plan = v.plan →
          Given b t := by
        intro t ht hsame htplan
        refine ⟨ht, ?_, by rw [hsame, htplan]; exact hplanned⟩
        rw [hsame, hstage, hreturned]
        trivial
      refine ⟨b, ?_⟩
      simp only [MockCall.obey, MockCall.hangupCall]
      split
      · exact hany _ hkept rfl rfl
      · rename_i cs _
        have hcut := @Unbilled.fireEvent { s with active := v } hkept
          ⟨cs.callID, cs.leg, .CHANNEL_HANGUP, cause, now⟩
        obtain ⟨⟨eventCh, _, hfire⟩, _⟩ :=
          fireEvent_active { s with active := v } ⟨cs.callID, cs.leg, .CHANNEL_HANGUP, cause, now⟩
        rw [hfire] at hcut ⊢
        exact hany _ hcut rfl rfl
  | _ =>
      have hcoming : Coming b { s with active := v } v.stage := by
        rw [hstage]
        refine h.coming.mono horders.symm ?_ ?_ id
        · simp [MockCall.coming, heventCh]
        · simp [MockCall.coming, heventCh]
      exact ⟨b, hkept, hcoming, hplanned⟩

-- A B leg that answered and was hung up at one moment costs nothing.
theorem exec_free {call row call' row' : CallbackCall} {body next : Body} {stmt : Stmt} {o : Outcome}
    (h : stmt.exec call row body o = some (call', row', next)) (hplanned : Planned b call.bTime .returned)
    (hfree : call.bDurationMs = 0 ∧ call.bridgeDurationMs = 0 ∧ call.bLegCost = 0) :
    call'.bTime = call.bTime ∧ call'.bDurationMs = 0 ∧ call'.bridgeDurationMs = 0 ∧ call'.bLegCost = 0 := by
  obtain ⟨hduration, hbridge, hcost⟩ := hfree
  obtain ⟨htimes, hanswered, hbridged⟩ := hplanned
  have hnothing : ∀ now start stop, start = none ∨ start = some b → start = none ∨ stop = some b →
      Callback.durationMs start stop now 0 = 0 := by
    intro now start stop hstart hstop
    rcases hstart with rfl | rfl
    · rfl
    · obtain hnone | rfl := hstop
      · cases hnone
      · have hsub : Time.sub b b = 0 := by
          rw [Time.sub, Int.sub_self]
          rfl
        simp only [Callback.durationMs, Option.getD_some, hsub]
        rfl
  revert h
  fun_cases Stmt.exec call row body stmt o <;> intro h <;> cases h
  case case3 =>
      have hzero : Callback.durationMs call.bAnswerAt call.bHangupAt body.now call.bDurationMs = 0 := by
        rw [hduration]
        exact hnothing _ _ _ (htimes .answer) hanswered
      exact ⟨by funext f; cases f <;> rfl, hzero, hbridge, hcost⟩
  case case4 =>
      have hzero : Callback.durationMs call.bridgeAt call.bridgeEndAt body.now call.bridgeDurationMs = 0 := by
        rw [hbridge]
        exact hnothing _ _ _ (htimes .bridge) hbridged
      exact ⟨by funext f; cases f <;> rfl, hduration, hzero, hcost⟩
  case case7 =>
      refine ⟨by funext f; cases f <;> rfl, hduration, hbridge, ?_⟩
      simp only [recordCosts, Billing.finalizeResponse, Billing.FinalizeParams.bLegCost, finalizeParams, hduration]
      rfl
  all_goals
    first
      | exact ⟨by funext f; cases f <;> rfl, hduration, hbridge, hcost⟩
      | (unfold recordWastage; split <;> exact ⟨by funext f; cases f <;> rfl, hduration, hbridge, hcost⟩)
      | (unfold mergeRecording; split <;> exact ⟨by funext f; cases f <;> rfl, hduration, hbridge, hcost⟩)

theorem Given.body (h : Given b s) {o : Outcome} {v : ActiveCall} (hstep : s.active.step (.body o) = some v) :
    Given b { s with active := v } := by
  have hsettling := h.kept.settling.step hstep
  have hsole := h.kept.sole.step h.kept.settling (by simp) hstep
  obtain ⟨stmt, body, call, row, next, hrunning, hexec, rfl⟩ := bodyStep_eq_some hstep
  obtain ⟨hpending, hstage⟩ := h.kept.sole.rest (by rw [hrunning]; exact Once.noConfusion)
  have hplan : s.active.plan = s.active.call.bTime := by
    funext f
    rw [ActiveCall.plan, hpending, List.foldl_nil]
  have hplanned := h.planned
  rw [hstage, hplan] at hplanned
  obtain ⟨htimes, hfree⟩ := exec_free hexec hplanned h.kept.free
  refine ⟨⟨hsettling, hsole, h.kept.cancelled, h.kept.threads, h.kept.fromEvent, h.kept.hangsUp, hfree⟩,
    h.coming, ?_⟩
  have hafter : ∀ w : ActiveCall, w.pending = s.active.pending → w.stage = s.active.stage → w.call = call →
      Planned b w.plan w.stage := by
    intro w hw hwstage hcall
    have hwplan : w.plan = s.active.plan := by
      funext f
      rw [hplan, ActiveCall.plan, hw, hpending, hcall, List.foldl_nil, htimes]
    rw [hwplan, hwstage]
    exact h.planned
  exact hafter _ rfl rfl rfl

theorem Given.finalize (h : Given b s) {v : ActiveCall} (hstep : s.active.step .finalize = some v) :
    Given b { s with active := v } := by
  have hsettling := h.kept.settling.step hstep
  have hsole := h.kept.sole.step h.kept.settling (by simp) hstep
  have hpending := finalizeRun_pending hstep
  have hstage := (step_history (by simp) hstep).1
  have hfromEvent := h.kept.fromEvent
  have hhangsUp := h.kept.hangsUp
  rw [← hpending] at hfromEvent hhangsUp
  rw [← hstage] at hhangsUp
  obtain ⟨finalized, runCall, rfl, _⟩ := finalizeRun_starts hstep
  refine ⟨⟨hsettling, hsole, h.kept.cancelled, h.kept.threads, hfromEvent, hhangsUp, h.kept.free⟩, ?_, ?_⟩
  · rw [hstage]
    exact h.coming.mono (by rw [ActiveCall.orders, hpending, ActiveCall.orders]) le_rfl (fun _ => id) id
  · have hplan : ActiveCall.plan { s.active with finalized, runCall } = s.active.plan := by
      funext f
      rw [ActiveCall.plan, hpending, ActiveCall.plan]
    rw [hstage, hplan]
    exact h.planned

-- No step but runCall's own adds commands.
theorem Given.step (h : Given b s) {label : MockLabel} (hquiet : undisturbed s label = true)
    (hstep : s.step config label = some t) : ∃ b', Given b' t := by
  cases label with
  | fire leg => exact ⟨b, h.fire hstep⟩
  | call l now =>
      simp only [MockCall.step] at hstep
      split at hstep
      · rename_i hallows
        obtain ⟨v, hv, rfl⟩ := Option.map_eq_some_iff.mp hstep
        cases l with
        | exec at' ok => exact h.exec hv
        | resume i =>
            have hgiven := h.resume hallows (by rintro rfl; cases hquiet) hv
            obtain ⟨_, _, _, _, _, _, rfl⟩ := resumeRun_take hv
            refine ⟨b, ?_⟩
            rw [List.drop_left]
            exact hgiven
        | finalize =>
            have hgiven := h.finalize hv
            obtain ⟨_, _, rfl, _⟩ := finalizeRun_starts hv
            refine ⟨b, ?_⟩
            rw [List.drop_length]
            exact hgiven
        | body o =>
            have hgiven := h.body hv
            obtain ⟨_, _, _, _, _, _, _, rfl⟩ := bodyStep_eq_some hv
            refine ⟨b, ?_⟩
            rw [List.drop_left]
            exact hgiven
        | thread k =>
            have hnone : s.active.threadStep k = none := by simp [ActiveCall.threadStep, h.kept.threads]
            rw [show s.active.step (.thread k) = s.active.threadStep k from rfl, hnone] at hv
            cases hv
        | event | fsLost => cases hallows
        | shutdown | forceHangup => cases hquiet
      · cases hstep

end Steps

-- Whatever the client does, the call makes one of its runs.
section Follows

variable {config : MockConfig} {s : MockCall}

theorem fireEvent_follows (s : MockCall) (e : CallEvent) :
    ∃ labels, Machine.run ActiveCall.step s.active labels = some (s.fireEvent e).active := by
  obtain ⟨_, hsame | hevent⟩ := fireEvent_active s e
  · exact ⟨[], by rw [hsame]; rfl⟩
  · exact ⟨[.event e], by rw [Machine.run, hevent]; rfl⟩

theorem obey_follows (config : MockConfig) (now : Time) (s : MockCall) (effect : Effect) :
    ∃ labels, Machine.run ActiveCall.step s.active labels = some (s.obey config now effect).active := by
  have hhangup : ∀ uuid cause, ∃ labels,
      Machine.run ActiveCall.step s.active labels = some (s.hangupCall uuid cause now).active := by
    intro uuid cause
    unfold MockCall.hangupCall
    split
    · exact ⟨[], rfl⟩
    · exact fireEvent_follows s _
  have horiginate : ∀ leg callID, ∃ labels,
      Machine.run ActiveCall.step s.active labels = some (s.originate config leg callID now).active := by
    intro leg callID
    rw [(originate_active config s leg callID now).1]
    exact ⟨[], rfl⟩
  unfold MockCall.obey
  split
  · exact horiginate ..
  · exact horiginate ..
  · exact hhangup ..
  · exact hhangup ..
  · exact ⟨[], rfl⟩

theorem obeys_follow (config : MockConfig) (now : Time) (s : MockCall) (effects : List Effect) :
    ∃ labels, Machine.run ActiveCall.step s.active labels =
      some (effects.foldl (MockCall.obey config now) s).active := by
  induction effects generalizing s with
  | nil => exact ⟨[], rfl⟩
  | cons effect rest ih =>
      obtain ⟨first, hfirst⟩ := obey_follows config now s effect
      obtain ⟨more, hmore⟩ := ih (s.obey config now effect)
      exact ⟨first ++ more, by rw [Machine.run_append, hfirst]; exact hmore⟩

theorem step_follows {t : MockCall} {label : MockLabel} (hstep : s.step config label = some t) :
    ∃ labels, Machine.run ActiveCall.step s.active labels = some t.active := by
  cases label with
  | fire leg =>
      simp only [MockCall.step] at hstep
      split at hstep
      · cases hstep
      · cases hstep
        exact fireEvent_follows _ _
  | call l now =>
      simp only [MockCall.step] at hstep
      split at hstep
      · obtain ⟨v, hv, rfl⟩ := Option.map_eq_some_iff.mp hstep
        obtain ⟨more, hmore⟩ := obeys_follow config now { s with active := v } (v.log.drop s.active.log.length)
        exact ⟨l :: more, by rw [Machine.run, hv]; exact hmore⟩
      · cases hstep

end Follows

-- In mock mode a call does what a call may do with any client. Where nothing ends it
-- from outside, its B leg is never paid for, however long the client lets the bridge
-- stand: the goroutine has read the clock before it, so that the answer, the bridge
-- and both ends have one time.
theorem mock_unbilled {config : MockConfig} {r : Request} {hold : Hold} {aGateway bGateway callerID : String}
    {labels : List MockLabel} {s : MockCall}
    (hrun : Machine.run (MockCall.step config) (.init (callRecord r hold aGateway bGateway callerID)) labels = some s) :
    (∃ above, Machine.run ActiveCall.step (.init (callRecord r hold aGateway bGateway callerID)) above =
      some s.active) ∧
      (Machine.run (Machine.restrict undisturbed (MockCall.step config))
          (.init (callRecord r hold aGateway bGateway callerID)) labels = some s →
        (s.active.call.bDurationMs = 0 ∧ s.active.call.bridgeDurationMs = 0 ∧ s.active.call.bLegCost = 0) ∧
        (s.active.returned → ∃ b, (∀ f, s.active.call.bTime f = none ∨ s.active.call.bTime f = some b) ∧
          (s.active.call.bAnswerAt = none ∨ s.active.call.bHangupAt = some b) ∧
          (s.active.call.bridgeAt = none ∨ s.active.call.bridgeEndAt = some b))) := by
  refine ⟨?_, fun hquiet => ?_⟩
  · exact Machine.simulate (P := fun _ => True) MockCall.active
      (fun _ _ _ _ hstep => ⟨trivial, step_follows hstep⟩) trivial hrun
  · have hgiven : ∃ b, Given b s := by
      refine Machine.restrict_invariant (P := fun s => ∃ b, Given b s) ?_
        ⟨0, given_init ?_ ⟨rfl, rfl, rfl⟩⟩ hquiet
      · rintro s label t ⟨b, h⟩ hallowed hstep
        exact h.step hallowed hstep
      · intro f
        cases f <;> rfl
    obtain ⟨b, hgiven⟩ := hgiven
    refine ⟨hgiven.kept.free, fun hreturned => ⟨b, ?_⟩⟩
    have hpending : s.active.pending = [] := pending_script hreturned
    have hstage : s.active.stage = .returned := by rw [ActiveCall.stage, show s.active.runCall = _ from hreturned]
    have hplan : s.active.plan = s.active.call.bTime := by
      funext f
      rw [ActiveCall.plan, hpending, List.foldl_nil]
    have hplanned := hgiven.planned
    rw [hstage, hplan] at hplanned
    exact hplanned

-- Both legs answer, and the bridge stands for half a minute.
def standsHalfMinute : List MockLabel :=
  List.flatten
    [[.call (.resume (.load true)) 0], List.replicate 2 (.call (.exec 1 true) 2),
      [.fire .A, .call (.resume (.originated .A true)) 0], List.replicate 5 (.call (.exec 3 true) 0),
      [.call (.resume (.event ⟨"c1", .A, .CHANNEL_ANSWER, "", 2⟩)) 0], List.replicate 5 (.call (.exec 4 true) 5),
      [.call (.resume (.originated .B true)) 0], List.replicate 5 (.call (.exec 6 true) 0),
      [.fire .B, .call (.resume (.event ⟨"c1", .B, .CHANNEL_ANSWER, "", 5⟩)) 0],
        List.replicate 5 (.call (.exec 7 true) 0),
      [.call (.resume (.bridged true)) 0, .fire .B, .call (.resume (.event ⟨"c1", .B, .CHANNEL_BRIDGE, "", 5⟩)) 0],
      List.replicate 8 (.call (.exec 8 true) 0),
      [.fire .B, .call (.resume (.event ⟨"c1", .B, .CHANNEL_HANGUP, "NORMAL_CLEARING", 5⟩)) 0],
      List.replicate 6 (.call (.exec 30000000009 true) 0), concludes.map fun l => .call l 0]

theorem mock_unbilled_standsHalfMinute :
    ∃ s, Machine.run (MockCall.step ⟨.answer, .answer, "", ""⟩)
        (.init (callRecord sampleRequest ⟨2, 60, 120⟩ "gw-a" "gw-b" "4001")) standsHalfMinute = some s ∧
      s.active.returned ∧ s.active.row.status = .finished ∧ s.active.call.bridgeAt = some 5 ∧
      ((∃ above, Machine.run ActiveCall.step
          (.init (callRecord sampleRequest ⟨2, 60, 120⟩ "gw-a" "gw-b" "4001")) above =
          some s.active) ∧
        (s.active.call.bDurationMs = 0 ∧ s.active.call.bridgeDurationMs = 0 ∧ s.active.call.bLegCost = 0) ∧
        ∃ b, (∀ f, s.active.call.bTime f = none ∨ s.active.call.bTime f = some b) ∧
          (s.active.call.bAnswerAt = none ∨ s.active.call.bHangupAt = some b) ∧
          (s.active.call.bridgeAt = none ∨ s.active.call.bridgeEndAt = some b)) := by
  have hends : (Machine.run (Machine.restrict undisturbed (MockCall.step ⟨.answer, .answer, "", ""⟩))
      (.init (callRecord sampleRequest ⟨2, 60, 120⟩ "gw-a" "gw-b" "4001")) standsHalfMinute).map (fun s =>
        (s.active.runCall, s.active.row.status, s.active.call.bridgeAt)) =
      some (.script [] .returned, .finished, some 5) := by decide +kernel
  obtain ⟨s, hquiet, hend⟩ := Option.map_eq_some_iff.mp hends
  simp only [Prod.mk.injEq] at hend
  obtain ⟨hreturned, hstatus, hbridge⟩ := hend
  have hrun := Machine.run_of_restrict hquiet
  obtain ⟨hfollows, hunbilled⟩ := mock_unbilled hrun
  obtain ⟨hfree, hover⟩ := hunbilled hquiet
  exact ⟨s, hrun, hreturned, hstatus, hbridge, hfollows, hfree, hover hreturned⟩

end Bos3000.Callback
