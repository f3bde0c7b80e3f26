import Bos3000.Lib.RowLock
import Bos3000.Types

-- The money operations of the billing service. Each reads one row of
-- billing_accounts under FOR UPDATE, writes its balance and inserts one row
-- into transactions.
namespace Bos3000.Billing

inductive Error
  | InsufficientBalance
  | InvalidArgument (message : String)
  deriving DecidableEq, Repr

inductive AccountStatus
  | active | suspended | closed
  deriving DecidableEq, Repr

-- A row of billing_accounts, keyed by its user_id.
structure Account where
  balance : Money
  creditLimit : Money
  maxConcurrent : Int
  ratePlanID : Option Int64
  status : AccountStatus
  deriving DecidableEq, Repr

inductive TxType
  | pre_deduct | finalize | refund | topup | deduction
  deriving DecidableEq, Repr

-- A row of transactions without its id and user_id. Only the operations on
-- calls set the reference.
structure Transaction where
  type : TxType
  amount : Money
  balanceAfter : Money
  referenceID : Option String
  deriving DecidableEq, Repr

-- The amount with the sign it has for the balance.
def Transaction.signed (tx : Transaction) : Money :=
  match tx.type with
  | .topup | .refund => tx.amount
  | .pre_deduct | .finalize | .deduction => -tx.amount

-- The rows that settle a hold.
def Transaction.settles (tx : Transaction) : Bool := tx.type = .refund ∨ tx.type = .finalize

structure PreDeductParams where
  userID : UserID
  callID : String
  aLegRate : Money
  bLegRate : Money
  deriving DecidableEq, Repr

-- 30 min at combined per-minute rate
def preDeductAmount (p : PreDeductParams) : Money := (p.aLegRate + p.bLegRate) * 30

def preDeduct (p : PreDeductParams) (account : Account) : Except Error (Account × Transaction) :=
  if account.balance + account.creditLimit < preDeductAmount p then
    .error .InsufficientBalance
  else
    let newBalance := account.balance - preDeductAmount p
    .ok ({ account with balance := newBalance },
      ⟨.pre_deduct, preDeductAmount p, newBalance, some p.callID⟩)

structure FinalizeParams where
  userID : UserID
  callID : String
  aLegDurationSec : Int64
  bLegDurationSec : Int64
  aLegRate : Money
  bLegRate : Money
  preDeductAmount : Money
  deriving DecidableEq, Repr

structure FinalizeResponse where
  aLegCost : Money
  bLegCost : Money
  totalCost : Money
  refund : Money
  deriving DecidableEq, Repr

-- A-leg: ceil to 6s blocks, per-minute rate
def FinalizeParams.aLegCost (p : FinalizeParams) : Money :=
  if 0 < p.aLegDurationSec then ceilDiv p.aLegDurationSec 6 * 6 * p.aLegRate / 60 else 0

-- B-leg: ceil to 60s blocks, per-minute rate
def FinalizeParams.bLegCost (p : FinalizeParams) : Money :=
  if 0 < p.bLegDurationSec then ceilDiv p.bLegDurationSec 60 * 60 * p.bLegRate / 60 else 0

def FinalizeParams.actualCost (p : FinalizeParams) : Money := p.aLegCost + p.bLegCost

def FinalizeParams.diff (p : FinalizeParams) : Money := p.preDeductAmount - p.actualCost

-- The response does not depend on the account.
def finalizeResponse (p : FinalizeParams) : FinalizeResponse :=
  ⟨p.aLegCost, p.bLegCost, p.actualCost, if 0 < p.diff then p.diff else 0⟩

def finalize (p : FinalizeParams) (account : Account) : Account × Transaction :=
  if 0 < p.diff then
    -- Refund the difference
    let balance := account.balance + p.diff
    ({ account with balance }, ⟨.refund, p.diff, balance, some p.callID⟩)
  else if p.diff < 0 then
    -- Charge additional
    let balance := account.balance - -p.diff
    ({ account with balance }, ⟨.finalize, -p.diff, balance, some p.callID⟩)
  else
    (account, ⟨.finalize, 0, account.balance, some p.callID⟩)

def topup (amount : Money) (account : Account) : Account × Transaction :=
  let newBalance := account.balance + amount
  ({ account with balance := newBalance }, ⟨.topup, amount, newBalance, none⟩)

def deduct (amount : Money) (account : Account) : Account × Transaction :=
  let newBalance := account.balance - amount
  ({ account with balance := newBalance }, ⟨.deduction, amount, newBalance, none⟩)

-- TopupParams.Validate and DeductParams.Validate
def validateAmount (amount : Money) : Except Error Unit :=
  if amount ≤ 0 then .error (.InvalidArgument "amount must be positive") else .ok ()

structure CreateAccountParams where
  userID : UserID
  creditLimit : Money
  maxConcurrent : Int
  ratePlanID : Option Int64
  deriving DecidableEq, Repr

def CreateAccountParams.validate (p : CreateAccountParams) : Except Error Unit :=
  if p.userID ≤ 0 then .error (.InvalidArgument "user_id is required")
  else if p.maxConcurrent < 0 then
    .error (.InvalidArgument "max_concurrent must be non-negative")
  else .ok ()

-- Requests that passed validation; the services run no other.
structure Amount where
  value : Money
  valid : validateAmount value = .ok ()
  deriving DecidableEq, Repr

structure AccountRequest where
  params : CreateAccountParams
  valid : params.validate = .ok ()
  deriving DecidableEq, Repr

def createAccount (request : AccountRequest) : UserID × Account :=
  (request.params.userID, ⟨0, request.params.creditLimit, request.params.maxConcurrent,
    request.params.ratePlanID, .active⟩)

inductive Op
  | preDeduct (p : PreDeductParams)
  | finalize (p : FinalizeParams)
  | topup (userID : UserID) (amount : Amount)
  | deduct (userID : UserID) (amount : Amount)
  deriving DecidableEq, Repr

def Op.userID : Op → UserID
  | .preDeduct p => p.userID
  | .finalize p => p.userID
  | .topup userID _ => userID
  | .deduct userID _ => userID

def Op.apply (account : Account) : Op → Except Error (Account × Transaction)
  | .preDeduct p => Billing.preDeduct p account
  | .finalize p => .ok (Billing.finalize p account)
  | .topup _ amount => .ok (Billing.topup amount.value account)
  | .deduct _ amount => .ok (Billing.deduct amount.value account)

def Op.operation (op : Op) : RowLock.Operation UserID Account Transaction :=
  ⟨op.userID, fun account => (op.apply account).toOption⟩

-- The committed tables of the billing database.
abbrev Ledger := RowLock.Store UserID Account Transaction

def Ledger.run (ledger : Ledger) (op : Op) : Option Ledger := ledger.exec op.operation

end Bos3000.Billing
