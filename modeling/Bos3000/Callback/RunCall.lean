import Bos3000.Lib.Machine
import Bos3000.Callback.Call

-- runCall as a resumable program. Between two points where it waits for the
-- environment it executes a fixed list of statements.
namespace Bos3000.Callback

-- A time that a statement assigns: one carried by an event, or time.Now().
inductive Stamp
  | event (t : Time)
  | now
  deriving DecidableEq, Repr

def Stamp.read (now : Time) : Stamp → Time
  | .event t => t
  | .now => now

-- The assignments of runCall to fields of the shared record.
inductive Assign
  | status (s : Status)
  | afsUUID (uuid : String)
  | aDialAt (t : Stamp)
  | aAnswerAt (t : Stamp)
  | aHangupAt (t : Stamp)
  | aHangupCause (cause : String)
  | bfsUUID (uuid : String)
  | bDialAt (t : Stamp)
  | bAnswerAt (t : Stamp)
  | bHangupAt (t : Stamp)
  | bHangupCause (cause : String)
  | bridgeAt (t : Stamp)
  | bridgeEndAt (t : Stamp)
  | recordingStatus (s : RecordingStatus)
  | hangupBy (who : String)
  | failureReason (reason : String)
  deriving DecidableEq, Repr

def Assign.apply (now : Time) (call : CallbackCall) : Assign → CallbackCall
  | .status s => { call with status := s }
  | .afsUUID uuid => { call with afsUUID := some uuid }
  | .aDialAt t => { call with aDialAt := some (t.read now) }
  | .aAnswerAt t => { call with aAnswerAt := some (t.read now) }
  | .aHangupAt t => { call with aHangupAt := some (t.read now) }
  | .aHangupCause cause => { call with aHangupCause := some cause }
  | .bfsUUID uuid => { call with bfsUUID := some uuid }
  | .bDialAt t => { call with bDialAt := some (t.read now) }
  | .bAnswerAt t => { call with bAnswerAt := some (t.read now) }
  | .bHangupAt t => { call with bHangupAt := some (t.read now) }
  | .bHangupCause cause => { call with bHangupCause := some cause }
  | .bridgeAt t => { call with bridgeAt := some (t.read now) }
  | .bridgeEndAt t => { call with bridgeEndAt := some (t.read now) }
  | .recordingStatus s => { call with recordingStatus := some s }
  | .hangupBy who => { call with hangupBy := some who }
  | .failureReason reason => { call with failureReason := some reason }

structure OriginateParams where
  callID : String
  number : String
  callerID : String
  gatewayIP : String
  deriving DecidableEq, Repr

-- The statements of runCall. A command to FreeSWITCH is issued by its statement;
-- what it returns is an input of the stage that follows.
inductive Action
  | assign (a : Assign)
  | updateCallStatus (s : Status)
  | updateRecordingStatus (s : RecordingStatus)
  | publishWebhook
  | originateALeg (p : OriginateParams)
  | originateBLegAndBridge (aUUID : String) (p : OriginateParams)
  | bridgeCall (aUUID bUUID : String)
  | hangupCall (uuid cause : String)
  | startRecording (uuid : String) (leg : Leg)
  | stopRecording (uuid : String) (leg : Leg)
  | finalizeCall (s : Status)
  deriving DecidableEq, Repr

-- What runCall waits for: activeCalls.Load, the result of a command, and the
-- alternatives of its selects.
inductive Input
  | load (found : Bool)
  | originated (leg : Leg) (ok : Bool)
  | bridged (ok : Bool)
  | event (e : CallEvent)
  | timer
  | done
  deriving DecidableEq, Repr

-- The points where runCall waits, with the local variable `bridged`.
inductive Stage
  | start
  | originatingA
  | waitingA
  | originatingB
  | loop (bridged : Bool)
  | bridging (bridged : Bool)
  | returned
  deriving DecidableEq, Repr

-- The select that waits for the A leg took an event.
def Stage.pastFirstEvent : Stage → Bool
  | .originatingB | .loop _ | .bridging _ => true
  | _ => false

-- The channel UUIDs that OriginateALeg and OriginateBLegAndBridge return.
def legUUID (call : CallbackCall) : Leg → String
  | .A => call.callID ++ "-a"
  | .B => call.callID ++ "-b"

@[simp] theorem legUUID_inj {call : CallbackCall} {a b : Leg} :
    legUUID call a = legUUID call b ↔ a = b := by
  cases a <;> cases b <;> simp [legUUID]

def originateParams (call : CallbackCall) : Leg → OriginateParams
  | .A => ⟨call.callID, call.aNumber, call.callerID.getD "", call.aGatewayName.getD ""⟩
  | .B => ⟨call.callID, call.bNumber, call.callerID.getD "", call.bGatewayName.getD ""⟩

def startRecording (aUUID bUUID : String) : List Action :=
  [.startRecording aUUID .A, .startRecording bUUID .B,
   .assign (.recordingStatus .recording), .updateRecordingStatus .recording]

def stopRecording (aUUID bUUID : String) : List Action :=
  [.stopRecording aUUID .A, .stopRecording bUUID .B]

-- The statements that runCall executes on an input, up to its next wait. Of the
-- record they read only fields that never change.
def resume (call : CallbackCall) : Stage → Input → Option (List Action × Stage)
  | .start, .load false => some ([], .returned)
  | .start, .load true =>
      some ([.publishWebhook, .originateALeg (originateParams call .A)], .originatingA)
  -- 1. A-leg originate
  | .originatingA, .originated .A false =>
      some ([.assign (.failureReason "a_originate_failed"), .finalizeCall .failed], .returned)
  | .originatingA, .originated .A true =>
      some ([.assign (.afsUUID (legUUID call .A)), .assign (.aDialAt .now),
        .assign (.status .a_dialing), .updateCallStatus .a_dialing, .publishWebhook], .waitingA)
  -- 2. Wait for A-leg event
  | .waitingA, .event e =>
      if e.isAnswer .A then
        some ([.assign (.aAnswerAt (.event e.timestamp)), .assign (.status .a_connected),
          .updateCallStatus .a_connected, .publishWebhook,
          .originateBLegAndBridge (legUUID call .A) (originateParams call .B)], .originatingB)
      else if e.isHangup then
        some ([.assign (.aHangupAt (.event e.timestamp)), .assign (.aHangupCause e.hangupCause),
          .assign (.failureReason ("a_hangup_" ++ e.hangupCause)), .finalizeCall .failed], .returned)
      else
        some ([.originateBLegAndBridge (legUUID call .A) (originateParams call .B)], .originatingB)
  | .waitingA, .timer =>
      some ([.hangupCall (legUUID call .A) "ALLOTTED_TIMEOUT",
        .assign (.failureReason "a_park_timeout"), .finalizeCall .failed], .returned)
  | .waitingA, .done =>
      some ([.hangupCall (legUUID call .A) "NORMAL_CLEARING",
        .assign (.failureReason "force_hangup"), .finalizeCall .failed], .returned)
  -- 3. B-leg originate
  | .originatingB, .originated .B false =>
      some ([.hangupCall (legUUID call .A) "NORMAL_CLEARING", .assign (.aHangupAt .now),
        .assign (.failureReason "b_originate_failed"), .finalizeCall .failed], .returned)
  | .originatingB, .originated .B true =>
      some ([.assign (.bfsUUID (legUUID call .B)), .assign (.bDialAt .now),
        .assign (.status .b_dialing), .updateCallStatus .b_dialing, .publishWebhook], .loop false)
  -- 4. Wait for B-leg events with max duration guard
  | .loop bridged, .event e =>
      if e.isAnswer .B then
        some ([.assign (.bAnswerAt (.event e.timestamp)), .assign (.status .b_connected),
          .updateCallStatus .b_connected, .publishWebhook,
          .bridgeCall (legUUID call .A) (legUUID call .B)], .bridging bridged)
      else if e.isBridge then
        some ([.assign (.bridgeAt (.event e.timestamp)), .assign (.status .bridged),
          .updateCallStatus .bridged] ++ startRecording (legUUID call .A) (legUUID call .B) ++
          [.publishWebhook], .loop true)
      else if e.isHangup then
        let hangup := match e.leg with
          | .A => [.assign (.aHangupAt (.event e.timestamp)), .assign (.aHangupCause e.hangupCause)]
          | .B => [.assign (.bHangupAt (.event e.timestamp)), .assign (.bHangupCause e.hangupCause)]
        if bridged then
          some (hangup ++ [.assign (.bridgeEndAt (.event e.timestamp))] ++
            stopRecording (legUUID call .A) (legUUID call .B) ++ [.finalizeCall .finished], .returned)
        else
          -- B hung up before bridge
          some (hangup ++ [.hangupCall (legUUID call .A) "NORMAL_CLEARING",
            .assign (.aHangupAt .now), .finalizeCall .failed], .returned)
      else
        some ([], .loop bridged)
  | .loop bridged, .timer =>
      some ([.hangupCall (legUUID call .A) "ALLOTTED_TIMEOUT",
        .hangupCall (legUUID call .B) "ALLOTTED_TIMEOUT", .assign (.hangupBy "system")] ++
        (if bridged then stopRecording (legUUID call .A) (legUUID call .B) else []) ++
        [.finalizeCall .finished], .returned)
  | .loop bridged, .done =>
      some ([.hangupCall (legUUID call .A) "NORMAL_CLEARING",
        .hangupCall (legUUID call .B) "NORMAL_CLEARING", .assign (.failureReason "force_hangup")] ++
        (if bridged then stopRecording (legUUID call .A) (legUUID call .B) else []) ++
        [.finalizeCall .failed], .returned)
  | .bridging bridged, .bridged true => some ([], .loop bridged)
  | .bridging _, .bridged false =>
      some ([.hangupCall (legUUID call .A) "NORMAL_CLEARING",
        .hangupCall (legUUID call .B) "NORMAL_CLEARING", .assign (.failureReason "bridge_failed"),
        .finalizeCall .failed], .returned)
  | _, _ => none

-- runCall returns after finalizeCall, its last statement, or because the call is
-- not active any more.
theorem resume_exit {call : CallbackCall} {stage : Stage} {i : Input} {script : List Action}
    (h : resume call stage i = some (script, .returned)) :
    (∃ before s, script = before ++ [.finalizeCall s] ∧ ∀ t, .finalizeCall t ∉ before) ∨
      script = [] ∧ i = .load false := by
  revert h
  fun_cases resume call stage i <;> intro h <;> cases h
  case case1 => exact .inr ⟨rfl, rfl⟩
  case case14 e _ _ _ hangup =>
      refine .inl ⟨_, _, rfl, ?_⟩
      simp only [hangup]
      cases e.leg <;> simp [stopRecording]
  case case15 e _ _ _ hangup _ =>
      refine .inl ⟨_, _, List.append_assoc _ [_, _] [_] |>.symm, ?_⟩
      simp only [hangup]
      cases e.leg <;> simp
  case case17 bridged => exact .inl ⟨_, _, rfl, by cases bridged <;> simp [stopRecording]⟩
  case case18 bridged => exact .inl ⟨_, _, rfl, by cases bridged <;> simp [stopRecording]⟩
  case case3 => exact .inl ⟨[_], _, rfl, by simp⟩
  case case6 => exact .inl ⟨[_, _, _], _, rfl, by simp⟩
  case case8 => exact .inl ⟨[_, _], _, rfl, by simp⟩
  case case9 => exact .inl ⟨[_, _], _, rfl, by simp⟩
  case case10 => exact .inl ⟨[_, _, _], _, rfl, by simp⟩
  case case20 => exact .inl ⟨[_, _, _], _, rfl, by simp⟩

theorem resume_continue {call : CallbackCall} {stage next : Stage} {i : Input} {script : List Action}
    (h : resume call stage i = some (script, next)) (hnext : next ≠ .returned) (s : Status) :
    .finalizeCall s ∉ script := by
  revert h
  fun_cases resume call stage i <;> intro h <;> cases h <;> simp_all [startRecording]

-- Terminal statuses are left to finalizeCall.
theorem resume_updateCallStatus {call : CallbackCall} {stage next : Stage} {i : Input}
    {script : List Action} (h : resume call stage i = some (script, next)) {s : Status}
    (hs : .updateCallStatus s ∈ script) : s.terminal = false := by
  revert h
  fun_cases resume call stage i <;> intro h <;> cases h
  case case14 e _ _ _ hangup =>
      simp only [hangup] at hs
      cases hleg : e.leg <;> simp [hleg, stopRecording] at hs
  case case15 e _ _ _ hangup _ =>
      simp only [hangup] at hs
      cases hleg : e.leg <;> simp [hleg] at hs
  case case17 bridged => cases bridged <;> simp [stopRecording] at hs
  case case18 bridged => cases bridged <;> simp [stopRecording] at hs
  all_goals simp_all [startRecording, Status.terminal]

-- What runCall took in and did, oldest first.
inductive Moment
  | input (i : Input)
  | act (a : Action)
  deriving DecidableEq, Repr

abbrev History := List Moment

def driveStep (call : CallbackCall) (s : Stage × History) (i : Input) : Option (Stage × History) :=
  (resume call s.1 i).map fun (script, next) => (next, s.2 ++ .input i :: script.map .act)

-- runCall on a sequence of inputs, each taken when the statements before it are done.
def drive (call : CallbackCall) (inputs : List Input) : Option (Stage × History) :=
  Machine.run (driveStep call) (.start, []) inputs

-- The channel events among the inputs, in order.
def Input.event? : Input → Option CallEvent
  | .event e => some e
  | _ => none

def events (inputs : List Input) : List CallEvent := inputs.filterMap Input.event?

@[simp] theorem events_nil : events [] = [] := rfl

@[simp] theorem events_concat (inputs : List Input) (i : Input) :
    events (inputs ++ [i]) = events inputs ++ i.event?.toList := by
  cases h : i.event? <;> simp [events, h]

theorem driveStep_eq_some {call : CallbackCall} {s : Stage × History} {i : Input}
    {next : Stage} {history : History} :
    driveStep call s i = some (next, history) ↔
      ∃ script, resume call s.1 i = some (script, next) ∧
        history = s.2 ++ .input i :: script.map .act := by
  simp only [driveStep, Option.map_eq_some_iff, Prod.exists, Prod.mk.injEq]
  constructor
  · rintro ⟨script, _, hscript, rfl, rfl⟩
    exact ⟨script, hscript, rfl⟩
  · rintro ⟨script, hscript, rfl⟩
    exact ⟨script, next, hscript, rfl, rfl⟩

-- Induction on the inputs of runCall.
theorem drive_induction {call : CallbackCall} {motive : List Input → Stage → History → Prop}
    (hstart : motive [] .start [])
    (hresume : ∀ inputs stage history i script next, motive inputs stage history →
      resume call stage i = some (script, next) →
      motive (inputs ++ [i]) next (history ++ .input i :: script.map .act))
    {inputs : List Input} {stage : Stage} {history : History}
    (hrun : drive call inputs = some (stage, history)) : motive inputs stage history := by
  refine Machine.run_induction (motive := fun inputs s => motive inputs s.1 s.2) hstart ?_ hrun
  intro inputs i middle t _ hm hstep
  obtain ⟨script, hscript, hhistory⟩ := (@driveStep_eq_some _ _ _ t.1 t.2).mp hstep
  rw [hhistory]
  exact hresume inputs middle.1 middle.2 i script t.1 hm hscript

end Bos3000.Callback
