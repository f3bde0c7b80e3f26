import Bos3000.Callback.Frame
import Bos3000.Callback.Initiate

-- A call next to the events that FreeSWITCH emits and the goroutines of dispatchEvent,
-- which stamp each with the clock and hand it to the handler of the call.
namespace Bos3000.Callback

-- The event as dispatchEvent makes it at this time.
def CallEvent.stamp (e : CallEvent) (now : Time) : CallEvent := { e with timestamp := now }

-- The events as FreeSWITCH emitted them, oldest first; those that are not stamped yet;
-- those that are, oldest first; and those of them that no handler has taken yet.
structure Timed where
  active : ActiveCall
  clock : Time
  emitted : List CallEvent
  unstamped : List CallEvent
  stamped : List CallEvent
  inHand : List CallEvent

inductive TimedLabel
  | call (l : Label)
  | emit (e : CallEvent)
  | dispatch (k : Nat) (now : Time)
  | handle (k : Nat)
  deriving DecidableEq

def Timed.init (call : CallbackCall) (start : Time) : Timed := ⟨.init call, start, [], [], [], []⟩

def Label.readClock (clock : Time) : Label → Time
  | .exec now _ => now
  | _ => clock

def Timed.step (s : Timed) : TimedLabel → Option Timed
  -- events come by way of the dispatcher
  | .call (.event _) => none
  | .call l => (s.active.step l).map fun active => { s with active, clock := l.readClock s.clock }
  | .emit e =>
      if e.callID = s.active.call.callID then
        some { s with emitted := s.emitted ++ [e], unstamped := s.unstamped ++ [e] }
      else none
  | .dispatch k now =>
      (s.unstamped[k]?).map fun e =>
        { s with clock := now, unstamped := s.unstamped.eraseIdx k, stamped := s.stamped ++ [e.stamp now],
                 inHand := s.inHand ++ [e.stamp now] }
  | .handle k =>
      (s.inHand[k]?).bind fun e => (s.active.step (.event e)).map fun active =>
        { s with active, inHand := s.inHand.eraseIdx k }

-- FreeSWITCH emits an event of a leg after those before it: an answer before the
-- bridge, which is one of both legs and for which both have answered, and a bridge
-- before the hangups.
def inOrder (earlier : List CallEvent) (e : CallEvent) : Bool :=
  match e.eventName with
  | .CHANNEL_ANSWER => earlier.all fun f => !f.isBridge && !(f.isHangup && f.leg = e.leg)
  | .CHANNEL_BRIDGE => earlier.any (CallEvent.isAnswer · .A) && earlier.any (CallEvent.isAnswer · .B) &&
      earlier.all fun f => !f.isHangup
  | .CHANNEL_HANGUP => true

-- The clock does not go back, and the events of each leg are emitted in their order.
def Timed.natural (s : Timed) : TimedLabel → Bool
  | .call (.exec now _) => s.clock ≤ now
  | .emit e => inOrder s.emitted e
  | .dispatch _ now => s.clock ≤ now
  | .call _ | .handle _ => true

-- The times of a call, each set or not.
structure Times where
  aDialAt : Option Time
  aAnswerAt : Option Time
  aHangupAt : Option Time
  bDialAt : Option Time
  bAnswerAt : Option Time
  bHangupAt : Option Time
  bridgeAt : Option Time
  bridgeEndAt : Option Time
  deriving DecidableEq

def CallbackCall.times (call : CallbackCall) : Times :=
  ⟨call.aDialAt, call.aAnswerAt, call.aHangupAt, call.bDialAt, call.bAnswerAt, call.bHangupAt, call.bridgeAt,
    call.bridgeEndAt⟩

def Times.dialAt (times : Times) : Leg → Option Time
  | .A => times.aDialAt
  | .B => times.bDialAt

-- The events are stamped as they were emitted, none of a leg before runCall has taken
-- the leg's dial time.
def Timed.dialsFirst (s : Timed) : TimedLabel → Bool
  | .dispatch k _ => k = 0 && s.unstamped.head?.all fun e => (s.active.call.times.dialAt e.leg).isSome
  | .call _ | .emit _ | .handle _ => true

-- The times that runCall takes on its way to the event loop, in this order.
inductive Opening
  | aDial | aAnswer | bDial
  deriving DecidableEq

def Opening.rank : Opening → Nat
  | .aDial => 0
  | .aAnswer => 1
  | .bDial => 2

def Times.opening (times : Times) : Opening → Option Time
  | .aDial => times.aDialAt
  | .aAnswer => times.aAnswerAt
  | .bDial => times.bDialAt

def Action.opens : Action → Option Opening
  | .assign (.aDialAt _) => some .aDial
  | .assign (.aAnswerAt _) => some .aAnswer
  | .assign (.bDialAt _) => some .bDial
  | _ => none

def Action.hangsUp : Action → Bool
  | .assign (.aHangupAt _) | .assign (.bHangupAt _) => true
  | _ => false

-- How many of them are behind runCall at a stage, once its statements are done.
def Stage.opened : Stage → Nat
  | .start | .originatingA => 0
  | .waitingA => 1
  | .originatingB => 2
  | .loop _ | .bridging _ => 3
  | .returned => 4

-- The time that a statement assigns is that of an event of its kind, or the clock's.
def Action.sourced (events : List CallEvent) : Action → Prop
  | .assign (.aDialAt t) | .assign (.bDialAt t) => t = .now
  | .assign (.aAnswerAt t) => ∃ e ∈ events, e.isAnswer .A = true ∧ t = .event e.timestamp
  | .assign (.bAnswerAt t) => ∃ e ∈ events, e.isAnswer .B = true ∧ t = .event e.timestamp
  | .assign (.bridgeAt t) => ∃ e ∈ events, e.isBridge = true ∧ t = .event e.timestamp
  | .assign (.bridgeEndAt t) => ∃ e ∈ events, e.isHangup = true ∧ t = .event e.timestamp
  | .assign (.aHangupAt t) => t = .now ∨ ∃ e ∈ events, t = .event e.timestamp
  | .assign (.bHangupAt t) => ∃ e ∈ events, e.leg = .B ∧ t = .event e.timestamp
  | _ => True

theorem sourced_mono {events more : List CallEvent} (h : ∀ e ∈ events, e ∈ more) {a : Action}
    (ha : a.sourced events) : a.sourced more := by
  cases a with
  | assign a =>
      cases a with
      | aAnswerAt t | bAnswerAt t | bridgeAt t | bridgeEndAt t | bHangupAt t =>
          obtain ⟨e, he, hkind⟩ := ha
          exact ⟨e, h e he, hkind⟩
      | aHangupAt t =>
          obtain hnow | ⟨e, he, ht⟩ := ha
          · exact .inl hnow
          · exact .inr ⟨e, h e he, ht⟩
      | _ => exact ha
  | _ => trivial

section Resume

variable {call : CallbackCall} {stage next : Stage} {i : Input} {script : List Action}

theorem resume_sourced (h : resume call stage i = some (script, next)) :
    ∀ a ∈ script, a.sourced i.event?.toList := by
  revert h
  fun_cases resume call stage i <;> intro h <;> cases h
  case case14 e _ _ _ hangup | case15 e _ _ _ hangup _ =>
      simp only [hangup]
      cases hleg : e.leg <;> simp_all [Action.sourced, Input.event?, stopRecording]
  case case17 bridged | case18 bridged => cases bridged <;> simp [Action.sourced, stopRecording]
  all_goals simp_all [Action.sourced, Input.event?, startRecording]

-- The script of a stage takes the next of the times at most.
theorem resume_opens (h : resume call stage i = some (script, next)) :
    stage.opened ≤ next.opened ∧ (script.countP fun a => a.opens.isSome) ≤ 1 ∧
      ∀ a ∈ script, ∀ o, a.opens = some o → o.rank + 1 = next.opened ∧ stage.opened ≤ o.rank := by
  revert h
  fun_cases resume call stage i <;> intro h <;> cases h
  case case14 e _ _ _ hangup | case15 e _ _ _ hangup _ =>
      simp only [hangup]
      cases hleg : e.leg <;> simp [Action.opens, Stage.opened, stopRecording]
  case case17 bridged | case18 bridged => cases bridged <;> simp [Action.opens, Stage.opened, stopRecording]
  all_goals simp [Action.opens, Stage.opened, Opening.rank, startRecording]

theorem resume_hangsUp (h : resume call stage i = some (script, next)) :
    (∀ a ∈ script, a.hangsUp = false) ∨ next = .returned := by
  revert h
  fun_cases resume call stage i <;> intro h <;> cases h <;> simp [Action.hangsUp, startRecording]

end Resume

end Bos3000.Callback
