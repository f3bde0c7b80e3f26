import Bos3000.Billing.Operations
import Bos3000.Lib.RunningBalance

namespace Bos3000.Billing

-- What every operation does to the account it is given and writes into its row.
structure Recorded (account new : Account) (tx : Transaction) : Prop where
  balanceAfter : tx.balanceAfter = account.balance + tx.signed
  balance : new.balance = tx.balanceAfter
  creditLimit : new.creditLimit = account.creditLimit
  maxConcurrent : new.maxConcurrent = account.maxConcurrent

theorem preDeduct_recorded {p : PreDeductParams} {account new : Account} {tx : Transaction}
    (h : preDeduct p account = .ok (new, tx)) : Recorded account new tx := by
  unfold preDeduct at h
  split at h
  · cases h
  · cases h
    exact ⟨Int64.sub_eq_add_neg _ _, rfl, rfl, rfl⟩

theorem finalize_recorded (p : FinalizeParams) (account : Account) :
    Recorded account (finalize p account).1 (finalize p account).2 := by
  unfold finalize
  split
  · exact ⟨rfl, rfl, rfl, rfl⟩
  · split
    · exact ⟨Int64.sub_eq_add_neg _ _, rfl, rfl, rfl⟩
    · refine ⟨?_, rfl, rfl, rfl⟩
      simp [Transaction.signed]

theorem topup_recorded (amount : Money) (account : Account) :
    Recorded account (topup amount account).1 (topup amount account).2 :=
  ⟨rfl, rfl, rfl, rfl⟩

theorem deduct_recorded (amount : Money) (account : Account) :
    Recorded account (deduct amount account).1 (deduct amount account).2 :=
  ⟨Int64.sub_eq_add_neg _ _, rfl, rfl, rfl⟩

theorem Op.effect_eq_some {op : Op} {account new : Account} {tx : Transaction} :
    op.operation.effect account = some (new, tx) ↔ op.apply account = .ok (new, tx) := by
  simp only [Op.operation]
  cases op.apply account <;> simp [Except.toOption]

theorem Op.recorded {op : Op} {account new : Account} {tx : Transaction}
    (h : op.apply account = .ok (new, tx)) : Recorded account new tx := by
  cases op with
  | preDeduct p => exact preDeduct_recorded h
  | finalize p =>
      have hrecorded := finalize_recorded p account
      rwa [Except.ok.inj h] at hrecorded
  | topup userID amount =>
      cases h
      exact topup_recorded amount.value account
  | deduct userID amount =>
      cases h
      exact deduct_recorded amount.value account

-- Finalize moves the balance by the difference in each of its branches.
theorem finalize_signed (p : FinalizeParams) (account : Account) :
    ((finalize p account).2.type = .refund ∨ (finalize p account).2.type = .finalize) ∧
      (finalize p account).2.signed = p.diff := by
  unfold finalize
  split
  · exact ⟨.inl rfl, rfl⟩
  · split
    · refine ⟨.inr rfl, ?_⟩
      simp [Transaction.signed]
    · refine ⟨.inr rfl, ?_⟩
      simp only [Transaction.signed]
      have : p.diff = 0 := by
        apply Int64.toInt_inj.mp
        simp_all [Int64.lt_iff_toInt_lt]
        omega
      simp [this]

-- The change an operation makes does not depend on the account.
def Op.signed : Op → Money
  | .preDeduct p => -preDeductAmount p
  | .finalize p => p.diff
  | .topup _ amount => amount.value
  | .deduct _ amount => -amount.value

theorem Op.signed_eq {op : Op} {account new : Account} {tx : Transaction}
    (h : op.apply account = .ok (new, tx)) : tx.signed = op.signed := by
  cases op with
  | preDeduct p =>
      simp only [Op.apply, Billing.preDeduct] at h
      split at h <;> cases h
      rfl
  | finalize p =>
      have htx : (Billing.finalize p account).2 = tx := congrArg Prod.snd (Except.ok.inj h)
      rw [← htx]
      exact (finalize_signed p account).2
  | topup | deduct =>
      cases h
      rfl

-- The call an operation belongs to, and its row with it.
def Op.reference : Op → Option String
  | .preDeduct p => some p.callID
  | .finalize p => some p.callID
  | .topup .. | .deduct .. => none

theorem Op.referenceID_eq {op : Op} {account new : Account} {tx : Transaction}
    (h : op.apply account = .ok (new, tx)) : tx.referenceID = op.reference := by
  cases op with
  | preDeduct p =>
      simp only [Op.apply, Billing.preDeduct] at h
      split at h <;> cases h
      rfl
  | finalize p =>
      have htx : (Billing.finalize p account).2 = tx := congrArg Prod.snd (Except.ok.inj h)
      rw [← htx]
      unfold Billing.finalize
      split
      · rfl
      · split <;> rfl
  | topup userID amount =>
      cases h
      rfl
  | deduct userID amount =>
      cases h
      rfl

-- The billing database with its sessions: transactions of any number of
-- requests, interleaved statement by statement.
abbrev Database := RowLock.State Op UserID Account Transaction

def databaseStep : Database → RowLock.Label Op AccountRequest → Option Database :=
  RowLock.step Op.operation createAccount

-- The rows from the first one on reach the balance the account has.
def Reconstructs (rows : List Transaction) (account : Account) : Prop :=
  RunningBalance.Chain Transaction.signed Transaction.balanceAfter 0 rows ∧
    account.balance = RunningBalance.closing Transaction.balanceAfter 0 rows

theorem Reconstructs.concat {rows : List Transaction} {account new : Account} {tx : Transaction}
    (h : Reconstructs rows account) (hrecorded : Recorded account new tx) :
    Reconstructs (rows ++ [tx]) new := by
  obtain ⟨hchain, hclosing⟩ := h
  refine ⟨(RunningBalance.chain_concat _ _ _).mpr ⟨hchain, ?_⟩, ?_⟩
  · rw [← hclosing]
    exact hrecorded.balanceAfter
  · rw [RunningBalance.closing_concat]
    exact hrecorded.balance

-- However the transactions of PreDeduct, Finalize, Topup and Deduct interleave,
-- commit and roll back, a user's rows in id order form a chain of balances from
-- 0 to the account's balance.
theorem ledger_reconstructs {db : Database} {labels : List (RowLock.Label Op AccountRequest)}
    (hrun : Machine.run databaseStep RowLock.State.empty labels = some db)
    (userID : UserID) (account : Account) (haccount : db.rows userID = some account) :
    ((db.inIdOrder userID).Pairwise fun a b => a.id < b.id) ∧
    Reconstructs ((db.inIdOrder userID).map RowLock.Entry.body) account := by
  have hrecorded := RowLock.recorded Op.operation createAccount (R := Reconstructs)
    (fun request => ⟨trivial, rfl⟩)
    (fun op rows account new tx h heffect => h.concat (Op.recorded (Op.effect_eq_some.mp heffect)))
    hrun userID
  exact ⟨hrecorded.1, hrecorded.2 account haccount⟩

-- Two users' transactions interleave, one of them rolls back after its INSERT,
-- and a PreDeduct is settled by a Finalize.
def interleaved : List (RowLock.Label Op AccountRequest) :=
  [.create ⟨⟨1, 100, 2, none⟩, rfl⟩, .create ⟨⟨2, 0, 2, none⟩, rfl⟩,
   .begin (.topup 1 ⟨9000, rfl⟩), .begin (.topup 2 ⟨500, rfl⟩), .begin (.preDeduct ⟨1, "c1", 60, 120⟩),
   .lock 0, .lock 1, .update 1, .insert 1, .update 0, .insert 0, .rollback 1, .commit 0,
   .lock 2, .update 2, .insert 2, .commit 2,
   .begin (.finalize ⟨1, "c1", 10, 30, 60, 120, 5400⟩), .lock 3, .update 3, .insert 3, .commit 3]

theorem ledger_reconstructs_interleaved :
    ∃ db account, Machine.run databaseStep RowLock.State.empty interleaved = some db ∧
      db.rows 1 = some account ∧
      ((db.inIdOrder 1).Pairwise fun a b => a.id < b.id) ∧
      Reconstructs ((db.inIdOrder 1).map RowLock.Entry.body) account :=
  ⟨_, _, rfl, rfl, @ledger_reconstructs _ interleaved rfl 1 _ rfl⟩

end Bos3000.Billing
