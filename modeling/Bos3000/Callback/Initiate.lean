import Bos3000.Billing.Operations
import Bos3000.Callback.Steps
import Bos3000.Lib.Json

-- InitiateCallback as a resumable program: at each stage it waits for the answer
-- of one operation. What an operation reads and writes of the state that requests
-- share is its access.
namespace Bos3000.Callback

open Billing (Account PreDeductParams FinalizeParams Op preDeductAmount)

structure InitiateCallbackParams where
  aNumber : String
  bNumber : String
  callerID : Option String
  maxDuration : Option Int
  customData : List UInt8
  deriving DecidableEq, Repr

def InitiateCallbackParams.validate (p : InitiateCallbackParams) : Except APIError Unit :=
  if p.aNumber = "" then .error ⟨.InvalidArgument, "a_number is required"⟩
  else if p.bNumber = "" then .error ⟨.InvalidArgument, "b_number is required"⟩
  else if 1024 < p.customData.length then
    .error ⟨.InvalidArgument, "custom_data must be <= 1024 bytes"⟩
  else if 0 < p.customData.length ∧ !Json.valid p.customData then
    .error ⟨.InvalidArgument, "custom_data must be valid JSON"⟩
  else if p.maxDuration.any (· ≤ 0) then
    .error ⟨.InvalidArgument, "max_duration must be positive"⟩
  else .ok ()

structure InitiateCallbackResponse where
  callID : String
  status : String
  deriving DecidableEq, Repr

-- A request of a user, with the id that its call gets.
structure Request where
  userID : UserID
  callID : String
  params : InitiateCallbackParams
  deriving DecidableEq, Repr

-- What a request knows once its hold is taken: the limit it read and its rates.
structure Hold where
  maxConcurrent : Int
  aLegRate : Money
  bLegRate : Money
  deriving DecidableEq, Repr

def Hold.preDeductParams (r : Request) (hold : Hold) : PreDeductParams :=
  ⟨r.userID, r.callID, hold.aLegRate, hold.bLegRate⟩

-- The amount in the answer of PreDeduct.
def Hold.amount (r : Request) (hold : Hold) : Money := preDeductAmount (hold.preDeductParams r)

-- The Finalize that gives a hold back.
def Hold.refundParams (r : Request) (hold : Hold) : FinalizeParams :=
  ⟨r.userID, r.callID, 0, 0, hold.aLegRate, hold.bLegRate, hold.amount r⟩

def callRecord (r : Request) (hold : Hold) (aGateway bGateway callerID : String) : CallbackCall :=
  .new r.callID r.userID r.params.aNumber r.params.bNumber
    (if callerID = "" then none else some callerID) r.params.maxDuration aGateway bGateway
    hold.aLegRate hold.bLegRate (hold.amount r)

-- The stages name the operation they wait for. `rollbackSlot` belongs to
-- AcquireSlot, `uncountDaily` to CheckDailyLimit, `floorSlot` to the compensating
-- ReleaseSlot, and `refund` is the compensating Finalize.
inductive InitiateStage
  | checkBlacklist
  | getAccount
  | countDaily (maxConcurrent : Int)
  | uncountDaily (date : String)
  | resolveRate (maxConcurrent : Int)
  | preDeduct (hold : Hold)
  | acquireSlot (hold : Hold)
  | rollbackSlot (hold : Hold)
  | pickALeg (hold : Hold)
  | pickBLeg (hold : Hold) (aGateway : String)
  | selectDID (hold : Hold) (aGateway bGateway : String)
  | insertCall (hold : Hold) (aGateway bGateway callerID : String)
  | releaseSlot (hold : Hold) (e : APIError)
  | floorSlot (hold : Hold) (e : APIError)
  | refund (hold : Hold) (e : APIError)
  | store (hold : Hold) (aGateway bGateway callerID : String)
  | failed (e : APIError)
  | stored (call : CallbackCall)
  deriving DecidableEq, Repr

def InitiateStage.response : InitiateStage → Option (Except APIError InitiateCallbackResponse)
  | .failed e => some (.error e)
  | .stored call => some (.ok ⟨call.callID, "initiating"⟩)
  | _ => none

-- The answers. A fault carries the error of the operation; operations that see
-- a cancelled request context answer with one.
inductive Reply
  | ok
  | fault (e : APIError)
  | account (a : Account)
  | counted (date : String) (n : Int)
  | rates (aLegRate bLegRate : Money)
  | count (n : Int)
  | gateway (sipAddress : String)
  | did (number : String)
  deriving DecidableEq, Repr

-- An access to the shared state: a read of an account, a committed transaction
-- on it, an Increment or Set of its slot counter, an Increment of its daily
-- counter.
inductive Access
  | none
  | account (userID : UserID) (a : Account)
  | transact (op : Op)
  | increment (userID : UserID) (delta result : Int)
  | setSlot (userID : UserID) (value : Int)
  | countDaily (userID : UserID) (date : String) (delta result : Int)
  deriving DecidableEq, Repr

def dailyLimitExceeded : APIError := ⟨.ResourceExhausted, "daily call limit exceeded"⟩

def concurrencyLimitExceeded : APIError := ⟨.ResourceExhausted, "concurrent call limit exceeded"⟩

def InitiateStage.resume (r : Request) : InitiateStage → Reply → Option (InitiateStage × Access)
  | .checkBlacklist, .ok => some (.getAccount, .none)
  | .checkBlacklist, .fault e => some (.failed e, .none)
  | .getAccount, .account a => some (.countDaily a.maxConcurrent, .account r.userID a)
  | .getAccount, .fault e => some (.failed e, .none)
  -- generous daily limit based on concurrency
  | .countDaily m, .counted date n =>
      if m * 1000 < n then some (.uncountDaily date, .countDaily r.userID date 1 n)
      else some (.resolveRate m, .countDaily r.userID date 1 n)
  -- Fail open
  | .countDaily m, .fault _ => some (.resolveRate m, .none)
  | .uncountDaily date, .counted day n =>
      if day = date then some (.failed dailyLimitExceeded, .countDaily r.userID date (-1) n) else none
  | .uncountDaily _, .fault _ => some (.failed dailyLimitExceeded, .none)
  | .resolveRate m, .rates a b => some (.preDeduct ⟨m, a, b⟩, .none)
  | .resolveRate _, .fault e => some (.failed e, .none)
  | .preDeduct hold, .ok => some (.acquireSlot hold, .transact (.preDeduct (hold.preDeductParams r)))
  | .preDeduct _, .fault e => some (.failed e, .none)
  | .acquireSlot hold, .count n =>
      if hold.maxConcurrent < n then some (.rollbackSlot hold, .increment r.userID 1 n)
      else some (.pickALeg hold, .increment r.userID 1 n)
  -- Refund pre-deduction
  | .acquireSlot hold, .fault e => some (.refund hold e, .none)
  | .rollbackSlot hold, .count n => some (.refund hold concurrencyLimitExceeded, .increment r.userID (-1) n)
  | .rollbackSlot hold, .fault e => some (.refund hold e, .none)
  | .pickALeg hold, .gateway a => some (.pickBLeg hold a, .none)
  -- Release slot and refund
  | .pickALeg hold, .fault e => some (.releaseSlot hold e, .none)
  | .pickBLeg hold a, .gateway b =>
      match r.params.callerID with
      | some callerID => some (.insertCall hold a b callerID, .none)
      | none => some (.selectDID hold a b, .none)
  | .pickBLeg hold _, .fault e => some (.releaseSlot hold e, .none)
  | .selectDID hold a b, .did number => some (.insertCall hold a b number, .none)
  | .selectDID hold a b, .fault _ => some (.insertCall hold a b "", .none)
  | .insertCall hold a b callerID, .ok => some (.store hold a b callerID, .none)
  | .insertCall hold _ _ _, .fault e => some (.releaseSlot hold e, .none)
  | .releaseSlot hold e, .count n =>
      if n < 0 then some (.floorSlot hold e, .increment r.userID (-1) n)
      else some (.refund hold e, .increment r.userID (-1) n)
  -- Key might not exist, that's fine
  | .releaseSlot hold e, .fault _ => some (.refund hold e, .none)
  | .floorSlot hold e, .ok => some (.refund hold e, .setSlot r.userID 0)
  | .floorSlot hold e, .fault _ => some (.refund hold e, .none)
  | .refund hold e, .ok => some (.failed e, .transact (.finalize (hold.refundParams r)))
  | .refund _ e, .fault _ => some (.failed e, .none)
  | .store hold a b callerID, .ok => some (.stored (callRecord r hold a b callerID), .none)
  | _, _ => none

-- The amount held while a request waits at a stage.
def InitiateStage.held (r : Request) : InitiateStage → Option Money
  | .acquireSlot hold | .rollbackSlot hold | .pickALeg hold | .pickBLeg hold _
  | .selectDID hold _ _ | .insertCall hold _ _ _ | .releaseSlot hold _ | .floorSlot hold _
  | .refund hold _ | .store hold _ _ _ => some (hold.amount r)
  | .stored call => some call.preDeductAmount
  | _ => none

-- What a request does about its hold: it takes it, gives it back, or keeps it.
-- It fails before it has one, or at the compensating Finalize.
theorem resume_cases {r : Request} {stage next : InitiateStage} {x : Reply} {access : Access}
    (h : stage.resume r x = some (next, access)) :
    (∃ hold, stage = .preDeduct hold ∧ next = .acquireSlot hold ∧
      access = .transact (.preDeduct (hold.preDeductParams r))) ∨
    (∃ hold e, stage = .refund hold e ∧ x = .ok ∧ next = .failed e ∧
      access = .transact (.finalize (hold.refundParams r))) ∨
    (∀ op, access ≠ .transact op) ∧
      ((∃ e, next = .failed e ∧ (stage.held r = none ∨ ∃ hold f, stage = .refund hold e ∧ x = .fault f)) ∨
        next.held r = stage.held r) := by
  revert h
  fun_cases InitiateStage.resume r stage x <;> intro h <;> cases h <;>
    simp [InitiateStage.held]
  all_goals rfl

-- InitiateCallback up to its first operation on another service.
def initiateCallback (p : InitiateCallbackParams) (auth : Option AuthData) (callID : String) :
    Except APIError (Request × InitiateStage) := do
  p.validate
  match auth with
  | none => .error ⟨.Unauthenticated, "not authenticated"⟩
  | some ad => .ok (⟨ad.userID, callID, p⟩, .checkBlacklist)

-- What the statements of the body access.
def Stmt.access (call : CallbackCall) (slots : Option Int) : Stmt → Outcome → Access
  | .billingFinalize, .ok => .transact (.finalize (finalizeParams call))
  | .releaseSlot, .count n => .increment call.userID (-1) n
  | .floorSlot, .ok => if slots.any (· < 0) then .setSlot call.userID 0 else .none
  | _, _ => .none

def ActiveCall.access (w : ActiveCall) : Label → Access
  | .body o =>
      match w.finalized with
      | .running ⟨stmt :: _, _, _, slots⟩ => stmt.access w.call slots o
      | _ => .none
  | _ => .none

theorem access_running {w : ActiveCall} {stmt : Stmt} {body : Body}
    (h : w.finalized = .running { body with todo := stmt :: body.todo }) (o : Outcome) :
    w.access (.body o) = stmt.access w.call body.slots o := by
  simp only [ActiveCall.access, h]

-- Only the body accesses anything.
theorem access_body {w v : ActiveCall} {l : Label} (hstep : w.step l = some v)
    (h : w.access l ≠ .none) :
    ∃ (o : Outcome) (stmt : Stmt) (body : Body), l = .body o ∧
      w.finalized = .running { body with todo := stmt :: body.todo } ∧
      w.access l = stmt.access w.call body.slots o := by
  cases l with
  | body o =>
      obtain ⟨stmt, body, _, _, _, hrunning, _⟩ := bodyStep_eq_some hstep
      exact ⟨o, stmt, body, rfl, hrunning, access_running hrunning o⟩
  | resume | exec | finalize | event | fsLost | shutdown | forceHangup | thread => exact absurd rfl h

-- The only transaction of an active call is the Finalize of its body.
theorem access_transact {w v : ActiveCall} {l : Label} {op : Op} (hstep : w.step l = some v)
    (h : w.access l = .transact op) :
    ∃ body : Body, l = .body .ok ∧
      w.finalized = .running { body with todo := .billingFinalize :: body.todo } ∧
      op = .finalize (finalizeParams w.call) := by
  obtain ⟨o, stmt, body, rfl, hrunning, haccess⟩ := access_body hstep (by simp [h])
  rw [h] at haccess
  revert haccess
  fun_cases Stmt.access w.call body.slots stmt o <;> intro haccess <;> cases haccess
  exact ⟨body, rfl, hrunning, rfl⟩

end Bos3000.Callback
