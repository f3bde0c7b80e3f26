import Bos3000.Billing.Operations
import Bos3000.Callback.Call

-- The body that finalizeCall hands to sync.Once, statement by statement.
namespace Bos3000.Callback

open Billing (FinalizeParams finalizeResponse)

inductive Stmt
  | now
  | aDuration
  | bDuration
  | bridgeDuration
  | wastage
  | status
  | billingFinalize
  | releaseSlot
  | floorSlot
  | mergeRecording
  | updateCallFinal
  | publishWebhook
  | delete
  deriving DecidableEq, Repr

def finalizeBody : List Stmt :=
  [.now, .aDuration, .bDuration, .bridgeDuration, .wastage, .status, .billingFinalize, .releaseSlot,
   .floorSlot, .mergeRecording, .updateCallFinal, .publishWebhook, .delete]

-- What the environment answers to a statement: the operation it calls succeeds
-- or fails, the clock, a row of system_configs, the counter after Increment.
inductive Outcome
  | ok
  | fault
  | time (t : Time)
  | config (value : Option String)
  | count (n : Int)
  deriving DecidableEq, Repr

-- The body while it runs: the statements left, the status it was called with,
-- its time.Now(), and the counter that the Increment of ReleaseSlot returned.
structure Body where
  todo : List Stmt
  status : Status
  now : Time
  slots : Option Int
  deriving DecidableEq, Repr

-- The milliseconds from start to stop, or to now while there is no stop; never
-- negative. Without a start the field keeps its value.
def durationMs (start stop : Option Time) (now : Time) (old : Int64) : Int64 :=
  match start with
  | none => old
  | some start =>
      let ms := milliseconds (Time.sub (stop.getD now) start)
      if ms < 0 then 0 else ms

def recordWastage (call : CallbackCall) (thresholdSec : Int64) : CallbackCall :=
  match classifyWastage call thresholdSec with
  | none => call
  | some (type, cost) =>
      { call with
        wastageType := some type
        wastageCost := some cost
        wastageDurationMs := some (match type with
          | .bridge_broken_early => call.bridgeDurationMs
          | .a_connected_b_failed => call.aDurationMs) }

def finalizeParams (call : CallbackCall) : FinalizeParams :=
  ⟨call.userID, call.callID, call.aDurationMs / 1000, call.bDurationMs / 1000, call.aLegRate,
    call.bLegRate, call.preDeductAmount⟩

def recordCosts (call : CallbackCall) : CallbackCall :=
  let resp := finalizeResponse (finalizeParams call)
  { call with aLegCost := resp.aLegCost, bLegCost := resp.bLegCost, totalCost := resp.totalCost }

-- A bridged call with an active recording is handed to the merge worker.
def mergeRecording (published : Bool) (call : CallbackCall) : CallbackCall :=
  if call.bridgeAt.isSome ∧ call.recordingStatus = some .recording then
    { call with recordingStatus := some (if published then .merging else .failed) }
  else call

-- A time as a TIMESTAMPTZ column keeps it: pgx cuts it to whole microseconds.
def timestamptz (t : Time) : Time := t / 1000 * 1000

-- The columns that updateCallFinal writes.
def updateCallFinal (call row : CallbackCall) : CallbackCall :=
  { row with
    status := call.status
    afsUUID := call.afsUUID
    aDialAt := call.aDialAt.map timestamptz
    aAnswerAt := call.aAnswerAt.map timestamptz
    aHangupAt := call.aHangupAt.map timestamptz
    aHangupCause := call.aHangupCause
    aDurationMs := call.aDurationMs
    bfsUUID := call.bfsUUID
    bDialAt := call.bDialAt.map timestamptz
    bAnswerAt := call.bAnswerAt.map timestamptz
    bHangupAt := call.bHangupAt.map timestamptz
    bHangupCause := call.bHangupCause
    bDurationMs := call.bDurationMs
    bridgeAt := call.bridgeAt.map timestamptz
    bridgeEndAt := call.bridgeEndAt.map timestamptz
    bridgeDurationMs := call.bridgeDurationMs
    aLegCost := call.aLegCost
    bLegCost := call.bLegCost
    totalCost := call.totalCost
    wastageType := call.wastageType
    wastageCost := call.wastageCost
    wastageDurationMs := call.wastageDurationMs
    hangupBy := call.hangupBy
    failureReason := call.failureReason
    recordingStatus := call.recordingStatus }

-- A statement works on the shared record, the row and the body's own variables.
-- It leaves the statements left to its caller.
def Stmt.exec (call row : CallbackCall) (body : Body) :
    Stmt → Outcome → Option (CallbackCall × CallbackCall × Body)
  | .now, .time t => some (call, row, { body with now := t })
  | .aDuration, .ok =>
      let aDurationMs := durationMs call.aAnswerAt call.aHangupAt body.now call.aDurationMs
      some ({ call with aDurationMs }, row, body)
  | .bDuration, .ok =>
      let bDurationMs := durationMs call.bAnswerAt call.bHangupAt body.now call.bDurationMs
      some ({ call with bDurationMs }, row, body)
  | .bridgeDuration, .ok =>
      let bridgeDurationMs := durationMs call.bridgeAt call.bridgeEndAt body.now call.bridgeDurationMs
      some ({ call with bridgeDurationMs }, row, body)
  | .wastage, .config value =>
      some (recordWastage call (Int64.ofInt ((value.bind parseInt).getD 10)), row, body)
  | .status, .ok => some ({ call with status := body.status }, row, body)
  | .billingFinalize, .ok => some (recordCosts call, row, body)
  | .billingFinalize, .fault => some (call, row, body)
  -- ReleaseSlot reports success when its Increment fails
  | .releaseSlot, .count n => some (call, row, { body with slots := some n })
  | .releaseSlot, .fault => some (call, row, { body with slots := none })
  | .floorSlot, .ok => some (call, row, body)
  | .floorSlot, .fault => if body.slots.any (· < 0) then some (call, row, body) else none
  | .mergeRecording, .ok => some (Callback.mergeRecording true call, row, body)
  | .mergeRecording, .fault => some (Callback.mergeRecording false call, row, body)
  | .updateCallFinal, .ok => some (call, Callback.updateCallFinal call row, body)
  | .updateCallFinal, .fault => some (call, row, body)
  | .publishWebhook, .ok => some (call, row, body)
  | .delete, .ok => some (call, row, body)
  | _, _ => none

end Bos3000.Callback
