import Bos3000.Callback.ActiveCall
import Bos3000.Lib.Table
import Bos3000.Listing

-- What the endpoints show of calls, from the rows of callback_calls and the calls
-- in memory.
namespace Bos3000.Callback

-- A call with the columns that no goroutine of it writes.
structure CallRecord where
  call : CallbackCall
  customData : List UInt8
  createdAt : Time
  updatedAt : Time
  deriving DecidableEq, Repr

-- A row of callback_calls.
structure CallRow extends CallRecord where
  recordingKey : Option String
  recordingAKey : Option String
  recordingBKey : Option String
  deriving DecidableEq, Repr

def CallRow.callID (row : CallRow) : String := row.call.callID

-- callback_calls and activeCalls. A call that is active has its row.
structure CallStore where
  rows : Table CallRow.callID
  active : String → Option CallRecord
  owned : ∀ id r, active id = some r → ∃ row, rows.find id = some row ∧ row.call.userID = r.call.userID

-- Where no call is active, nothing is asked of the table.
theorem CallStore.owned_empty (id : String) (r : CallRecord) (h : none = some r) :
    ∃ row, (Table.empty : Table CallRow.callID).find id = some row ∧ row.call.userID = r.call.userID := by
  cases h

-- getCall. A query fails, or sees the table as it stands.
inductive QueryError
  | noRows
  | failed (e : String)
  deriving DecidableEq, Repr

def CallStore.select (s : CallStore) (fault : Option String) (callID : String) :
    Except QueryError CallRow :=
  match fault with
  | some e => .error (.failed e)
  | none =>
      match s.rows.find callID with
      | none => .error .noRows
      | some row => .ok row

def callNotFound : APIError := ⟨.NotFound, "call not found"⟩

def notAuthenticated : APIError := ⟨.Unauthenticated, "not authenticated"⟩

-- The errors of getCall as the endpoints pass them on.
def getCall (s : CallStore) (fault : Option String) (callID : String) : Except APIError CallRow :=
  match s.select fault callID with
  | .ok row => .ok row
  | .error .noRows => .error callNotFound
  | .error (.failed e) => .error ⟨.Unknown, "get call: " ++ e⟩

structure LegStatus where
  dialAt : Option Time
  answerAt : Option Time
  hangupAt : Option Time
  hangupCause : Option String
  durationMs : Int64
  deriving DecidableEq, Repr

structure BridgeStatus where
  start : Option Time
  endAt : Option Time
  durationMs : Int64
  deriving DecidableEq, Repr

structure BillingStatus where
  aLegRate : Money
  bLegRate : Money
  preDeductAmount : Money
  aLegCost : Money
  bLegCost : Money
  totalCost : Money
  deriving DecidableEq, Repr

structure WastageStatus where
  type : Option WastageType
  cost : Option Int64
  durationMs : Option Int64
  deriving DecidableEq, Repr

structure CallStatusResponse where
  callID : String
  status : Status
  aNumber : String
  bNumber : String
  callerID : Option String
  aLeg : LegStatus
  bLeg : LegStatus
  bridge : BridgeStatus
  billing : BillingStatus
  wastage : WastageStatus
  hangupBy : Option String
  failureReason : Option String
  customData : List UInt8
  createdAt : Time
  updatedAt : Time
  deriving DecidableEq, Repr

def callToResponse (r : CallRecord) : CallStatusResponse where
  callID := r.call.callID
  status := r.call.status
  aNumber := r.call.aNumber
  bNumber := r.call.bNumber
  callerID := r.call.callerID
  aLeg := ⟨r.call.aDialAt, r.call.aAnswerAt, r.call.aHangupAt, r.call.aHangupCause, r.call.aDurationMs⟩
  bLeg := ⟨r.call.bDialAt, r.call.bAnswerAt, r.call.bHangupAt, r.call.bHangupCause, r.call.bDurationMs⟩
  bridge := ⟨r.call.bridgeAt, r.call.bridgeEndAt, r.call.bridgeDurationMs⟩
  billing := ⟨r.call.aLegRate, r.call.bLegRate, r.call.preDeductAmount, r.call.aLegCost, r.call.bLegCost,
    r.call.totalCost⟩
  wastage := ⟨r.call.wastageType, r.call.wastageCost, r.call.wastageDurationMs⟩
  hangupBy := r.call.hangupBy
  failureReason := r.call.failureReason
  customData := r.customData
  createdAt := r.createdAt
  updatedAt := r.updatedAt

def getCallStatus (auth : Option AuthData) (id : String) (fault : Option String) (s : CallStore) :
    Except APIError CallStatusResponse :=
  match auth with
  | none => .error notAuthenticated
  | some ad =>
      -- Try active call first for fresher data
      match s.active id with
      | some r =>
          if ad.role ≠ "admin" ∧ r.call.userID ≠ ad.userID then .error callNotFound
          else .ok (callToResponse r)
      | none =>
          -- Fallback to DB
          match getCall s fault id with
          | .error e => .error e
          | .ok row =>
              if ad.role ≠ "admin" ∧ row.call.userID ≠ ad.userID then .error callNotFound
              else .ok (callToResponse row.toCallRecord)

-- The response of ForceHangup; what it does to the call is in ActiveCall.
def forceHangup (auth : Option AuthData) (id : String) (fault : Option String) (s : CallStore) :
    Except APIError ForceHangupResponse :=
  match auth with
  | none => .error notAuthenticated
  | some ad =>
      match getCall s fault id with
      | .error e => .error e
      | .ok row => (forceHangupCheck (some ad) (some row.call)).map fun _ => ⟨id, "finished", "Call terminated"⟩

def Status.text : Status → String
  | .initiating => "initiating"
  | .a_dialing => "a_dialing"
  | .a_connected => "a_connected"
  | .b_dialing => "b_dialing"
  | .b_connected => "b_connected"
  | .bridged => "bridged"
  | .finished => "finished"
  | .failed => "failed"

def WastageType.text : WastageType → String
  | .a_connected_b_failed => "a_connected_b_failed"
  | .bridge_broken_early => "bridge_broken_early"

structure ListCallbacksParams where
  status : String
  aNumber : String
  bNumber : String
  wastageType : String
  userID : UserID
  startTime : String
  endTime : String
  page : Int64
  pageSize : Int64
  deriving DecidableEq, Repr

-- The conditions of the WHERE clause, each with its argument.
inductive Condition
  | userID (u : UserID)
  | status (text : String)
  | aNumber (text : String)
  | bNumber (text : String)
  | wastageType (text : String)
  | startTime (text : String)
  | endTime (text : String)
  deriving DecidableEq, Repr

-- Client isolation: force user_id filter
def ListCallbacksParams.conditions (p : ListCallbacksParams) (ad : AuthData) : List Condition :=
  (if ad.role ≠ "admin" then [Condition.userID ad.userID]
    else if p.userID ≠ 0 then [Condition.userID p.userID] else []) ++
  (if p.status ≠ "" then [Condition.status p.status] else []) ++
  (if p.aNumber ≠ "" then [Condition.aNumber p.aNumber] else []) ++
  (if p.bNumber ≠ "" then [Condition.bNumber p.bNumber] else []) ++
  (if p.wastageType ≠ "" then [Condition.wastageType p.wastageType] else []) ++
  (if p.startTime ≠ "" then [Condition.startTime p.startTime] else []) ++
  (if p.endTime ≠ "" then [Condition.endTime p.endTime] else [])

def Condition.test (db : Listing CallRow) : Condition → Except String (CallRow → Bool)
  | .userID u => .ok fun row => row.call.userID = u
  | .status text => (db.readText text).map fun text row => row.call.status.text = text
  | .aNumber text => (db.readText text).map fun text row => row.call.aNumber = text
  | .bNumber text => (db.readText text).map fun text row => row.call.bNumber = text
  | .wastageType text => (db.readText text).map fun text row => row.call.wastageType.map WastageType.text = some text
  | .startTime text => (db.timestamptz text).map fun t row => t ≤ row.createdAt
  | .endTime text => (db.timestamptz text).map fun t row => row.createdAt ≤ t

-- The rows that satisfy all conditions. A query fails where the database does,
-- or where it cannot read an argument.
def selectWhere (db : Listing CallRow) (fault : Option String) (conditions : List Condition) (rows : List CallRow) :
    Except String (List CallRow) :=
  match fault with
  | some e => .error e
  | none => (conditions.mapM (Condition.test db)).map fun tests =>
      rows.filter fun row => tests.all fun test => test row

structure CallSummary where
  callID : String
  userID : UserID
  aNumber : String
  bNumber : String
  status : Status
  bridgeDurationMs : Int64
  totalCost : Money
  wastageType : Option WastageType
  hangupBy : Option String
  failureReason : Option String
  customData : List UInt8
  createdAt : Time
  deriving DecidableEq, Repr

def CallRow.summary (row : CallRow) : CallSummary :=
  ⟨row.call.callID, row.call.userID, row.call.aNumber, row.call.bNumber, row.call.status,
    row.call.bridgeDurationMs, row.call.totalCost, row.call.wastageType, row.call.hangupBy,
    row.call.failureReason, row.customData, row.createdAt⟩

structure ListCallbacksResponse where
  items : List CallSummary
  total : Nat
  page : Int64
  pageSize : Int64
  deriving DecidableEq, Repr

def ListCallbacksParams.pageOf (p : ListCallbacksParams) : Int64 := max p.page 1

def ListCallbacksParams.pageSizeOf (p : ListCallbacksParams) : Int64 :=
  if p.pageSize < 1 ∨ 100 < p.pageSize then 20 else p.pageSize

def listCallbacks (db : Listing CallRow) (auth : Option AuthData) (p : ListCallbacksParams)
    (countFault : Option String) (pageFault : Option PageFault) (s : CallStore) :
    Except APIError ListCallbacksResponse :=
  match auth with
  | none => .error notAuthenticated
  | some ad =>
      -- Count total
      match selectWhere db countFault (p.conditions ad) s.rows.rows with
      | .error e => .error ⟨.Unknown, e⟩
      | .ok counted =>
          -- Fetch page
          let offset := (p.pageOf - 1) * p.pageSizeOf
          match db.readPage pageFault p.pageSizeOf offset (selectWhere db none (p.conditions ad) s.rows.rows) with
          | .error e => .error ⟨.Unknown, e⟩
          | .ok listed => .ok ⟨listed.map CallRow.summary, counted.length, p.pageOf, p.pageSizeOf⟩

end Bos3000.Callback
