import Bos3000.Types

-- The call record and the channel events that drive it.
namespace Bos3000.Callback

inductive Leg
  | A | B
  deriving DecidableEq, Repr

theorem Leg.forall_iff {p : Leg → Prop} : (∀ leg, p leg) ↔ p .A ∧ p .B :=
  ⟨fun h => ⟨h .A, h .B⟩, fun h leg => by cases leg; exacts [h.1, h.2]⟩

inductive EventName
  | CHANNEL_ANSWER | CHANNEL_BRIDGE | CHANNEL_HANGUP
  deriving DecidableEq, Repr

structure CallEvent where
  callID : String
  leg : Leg
  eventName : EventName
  hangupCause : String
  timestamp : Time
  deriving DecidableEq, Repr

def CallEvent.isAnswer (event : CallEvent) (leg : Leg) : Bool :=
  event.eventName = .CHANNEL_ANSWER ∧ event.leg = leg

def CallEvent.isBridge (event : CallEvent) : Bool := event.eventName = .CHANNEL_BRIDGE

def CallEvent.isHangup (event : CallEvent) : Bool := event.eventName = .CHANNEL_HANGUP

-- callback_calls.status
inductive Status
  | initiating | a_dialing | a_connected | b_dialing | b_connected | bridged | finished | failed
  deriving DecidableEq, Repr

def Status.terminal : Status → Bool
  | .finished | .failed => true
  | _ => false

-- The documented order a_dialing → a_connected → b_dialing → b_connected →
-- bridged → finished/failed, after initiating.
def Status.rank : Status → Nat
  | .initiating => 0
  | .a_dialing => 1
  | .a_connected => 2
  | .b_dialing => 3
  | .b_connected => 4
  | .bridged => 5
  | .finished | .failed => 6

inductive RecordingStatus
  | recording | merging | ready | failed
  deriving DecidableEq, Repr

inductive WastageType
  | a_connected_b_failed | bridge_broken_early
  deriving DecidableEq, Repr

-- A row of callback_calls, and the record the goroutines of a call share in memory.
structure CallbackCall where
  callID : String
  userID : UserID
  aNumber : String
  bNumber : String
  callerID : Option String
  maxDuration : Option Int
  status : Status
  afsUUID : Option String
  aGatewayName : Option String
  aDialAt : Option Time
  aAnswerAt : Option Time
  aHangupAt : Option Time
  aHangupCause : Option String
  aDurationMs : Int64
  bfsUUID : Option String
  bGatewayName : Option String
  bDialAt : Option Time
  bAnswerAt : Option Time
  bHangupAt : Option Time
  bHangupCause : Option String
  bDurationMs : Int64
  bridgeAt : Option Time
  bridgeEndAt : Option Time
  bridgeDurationMs : Int64
  aLegRate : Int64
  bLegRate : Int64
  preDeductAmount : Int64
  aLegCost : Int64
  bLegCost : Int64
  totalCost : Int64
  recordingStatus : Option RecordingStatus
  wastageType : Option WastageType
  wastageCost : Option Int64
  wastageDurationMs : Option Int64
  hangupBy : Option String
  failureReason : Option String
  deriving DecidableEq, Repr

-- The columns insertCall writes. The others start as NULL or 0.
def CallbackCall.new (callID : String) (userID : UserID) (aNumber bNumber : String)
    (callerID : Option String) (maxDuration : Option Int) (aGatewayName bGatewayName : String)
    (aLegRate bLegRate preDeductAmount : Money) : CallbackCall where
  callID := callID
  userID := userID
  aNumber := aNumber
  bNumber := bNumber
  callerID := callerID
  maxDuration := maxDuration
  status := .initiating
  afsUUID := none
  aGatewayName := some aGatewayName
  aDialAt := none
  aAnswerAt := none
  aHangupAt := none
  aHangupCause := none
  aDurationMs := 0
  bfsUUID := none
  bGatewayName := some bGatewayName
  bDialAt := none
  bAnswerAt := none
  bHangupAt := none
  bHangupCause := none
  bDurationMs := 0
  bridgeAt := none
  bridgeEndAt := none
  bridgeDurationMs := 0
  aLegRate := aLegRate
  bLegRate := bLegRate
  preDeductAmount := preDeductAmount
  aLegCost := 0
  bLegCost := 0
  totalCost := 0
  recordingStatus := none
  wastageType := none
  wastageCost := none
  wastageDurationMs := none
  hangupBy := none
  failureReason := none

-- A call as InitiateCallback builds it, for the runs on fixed inputs.
def sampleCall : CallbackCall :=
  .new "c1" 1 "13800000001" "13900000002" none none "gw-a" "gw-b" 60 120 5400

-- calculateCost calculates cost in fen using billing blocks.
def calculateCost (durationSec ratePerMin blockSizeSec : Int64) : Int64 :=
  if durationSec ≤ 0 ∨ ratePerMin ≤ 0 then 0
  else ceilDiv durationSec blockSizeSec * blockSizeSec * ratePerMin / 60

-- classifyWastage: the kind of wastage of a call, if any, and its cost.
def classifyWastage (call : CallbackCall) (bridgeBrokenThresholdSec : Int64) :
    Option (WastageType × Int64) :=
  match call.aAnswerAt, call.bAnswerAt with
  | some aAnswerAt, none =>
      -- A connected but B never answered
      match call.aHangupAt with
      | some aHangupAt =>
          let durationSec := seconds (Time.sub aHangupAt aAnswerAt)
          let durationSec := if durationSec < 1 then 1 else durationSec
          some (.a_connected_b_failed, calculateCost durationSec call.aLegRate 6)
      | none => some (.a_connected_b_failed, 0)
  | _, _ =>
      match call.bridgeAt, call.bridgeEndAt with
      | some bridgeAt, some bridgeEndAt =>
          -- Bridge established but broken early
          let bridgeDurationSec := seconds (Time.sub bridgeEndAt bridgeAt)
          if bridgeDurationSec < bridgeBrokenThresholdSec then
            some (.bridge_broken_early,
              calculateCost bridgeDurationSec call.aLegRate 6 +
                calculateCost bridgeDurationSec call.bLegRate 60)
          else none
      | _, _ => none

-- The seconds after which runCall's second timer ends a call: its own limit if
-- it is positive, else default_max_duration_sec, else 3600.
def effectiveMaxDuration (maxDuration : Option Int) (config : Option String) : Int :=
  match maxDuration with
  | some limit => if 0 < limit then limit else ((config.bind parseInt).getD 3600)
  | none => (config.bind parseInt).getD 3600

end Bos3000.Callback
