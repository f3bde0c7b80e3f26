import Bos3000.Billing.Credit
import Bos3000.Lib.Attempts
import Bos3000.Lib.Budget

-- Which of several PreDeducts on one account go through.
namespace Bos3000.Billing

open ExactInt64 (Fits)

-- The account after the hold of a PreDeduct, and its row in transactions.
def Account.hold (account : Account) (p : PreDeductParams) : Account :=
  { account with balance := account.balance - preDeductAmount p }

def holdRow (account : Account) (p : PreDeductParams) : Transaction :=
  ⟨.pre_deduct, preDeductAmount p, (account.hold p).balance, some p.callID⟩

-- The tables after that hold.
def Ledger.hold (ledger : Ledger) (account : Account) (p : PreDeductParams) : Ledger where
  rows := Function.update ledger.rows p.userID (some (account.hold p))
  log := ledger.log ++ [(p.userID, holdRow account p)]

def PreDeductParams.amount (p : PreDeductParams) : Int := (preDeductAmount p).toInt

def PreDeductParams.operation (p : PreDeductParams) : RowLock.Operation UserID Account Transaction :=
  (Op.preDeduct p).operation

-- The PreDeducts of a serialization, in the order in which they have the account.
abbrev PreDeductAttempt := RowLock.Attempt PreDeductParams UserID Account Transaction

def servePreDeducts (ledger : Ledger) (calls : List PreDeductParams) : List PreDeductAttempt :=
  RowLock.serve PreDeductParams.operation ledger calls

def admitted (ledger : Ledger) (calls : List PreDeductParams) : List PreDeductAttempt :=
  (servePreDeducts ledger calls).filter RowLock.Attempt.succeeded

section Step

variable {ledger : Ledger} {account : Account} {p : PreDeductParams}

theorem attempt_ok (haccount : ledger.rows p.userID = some account)
    (hfits : Fits account.available) (hcovers : p.amount ≤ account.available) :
    RowLock.attempt PreDeductParams.operation ledger p =
      ⟨p, ledger, some (ledger.hold account p)⟩ := by
  have hcheck : ¬account.balance + account.creditLimit < preDeductAmount p := by
    rw [Int64.lt_iff_toInt_lt, ExactInt64.toInt_add hfits]
    exact Int.not_lt.mpr hcovers
  have heffect : p.operation.effect account = some (account.hold p, holdRow account p) := by
    refine Op.effect_eq_some.mpr ?_
    rw [Op.apply, preDeduct, if_neg hcheck]
    rfl
  have hexec := RowLock.Store.exec_eq_some.mpr ⟨account, _, _, haccount, heffect, rfl⟩
  rw [RowLock.attempt, hexec]
  rfl

theorem attempt_refused (haccount : ledger.rows p.userID = some account)
    (hfits : Fits account.available) (hshort : account.available < p.amount) :
    RowLock.attempt PreDeductParams.operation ledger p = ⟨p, ledger, none⟩ := by
  have hcheck : account.balance + account.creditLimit < preDeductAmount p := by
    rw [Int64.lt_iff_toInt_lt, ExactInt64.toInt_add hfits]
    exact hshort
  have heffect : p.operation.effect account = none := by
    simp [PreDeductParams.operation, Op.operation, Op.apply, preDeduct, hcheck, Except.toOption]
  have hrow : ledger.rows p.operation.key = some account := haccount
  rw [RowLock.attempt, RowLock.Store.exec, hrow]
  simp only [heffect]

-- A hold that the credit covers does not overflow.
theorem hold_exact (hfits : Fits account.available) (hpos : 0 < p.amount)
    (hcovers : p.amount ≤ account.available) :
    (account.hold p).balance.toInt = account.balance.toInt - p.amount ∧
      (account.hold p).available = account.available - p.amount ∧ Fits (account.hold p).available := by
  have hbalance : (account.hold p).balance.toInt = account.balance.toInt - p.amount := by
    refine ExactInt64.toInt_sub ?_
    have hlimit := ExactInt64.fits_toInt account.creditLimit
    have hold := ExactInt64.fits_toInt account.balance
    unfold Account.available PreDeductParams.amount Fits at *
    omega
  refine ⟨hbalance, ?_, ?_⟩
  · simp only [Account.available, hbalance]
    simp only [Account.hold]
    omega
  · unfold Fits at *
    simp only [Account.available, hbalance] at *
    simp only [Account.hold]
    omega

end Step

-- The account an attempt found, and what it did with it.
structure Decided (userID : UserID) (a : PreDeductAttempt) (account : Account) : Prop where
  found : a.before.rows userID = some account
  success : a.succeeded = true → a.after = Ledger.hold a.before account a.op ∧
    (account.hold a.op).balance.toInt = account.balance.toInt - a.op.amount
  failure : a.succeeded = false → account.available < a.op.amount ∧ a.after = a.before

-- What the calls of one user on one account are granted is what a budget of its
-- credit grants.
theorem serve_decided {userID : UserID} {calls : List PreDeductParams} {ledger : Ledger}
    {account : Account} (haccount : ledger.rows userID = some account) (hfits : Fits account.available)
    (huser : ∀ p ∈ calls, p.userID = userID) (hpos : ∀ p ∈ calls, 0 < p.amount) :
    (admitted ledger calls).map (fun a => a.op.amount) =
      Budget.granted account.available (calls.map PreDeductParams.amount) ∧
    ∀ a ∈ servePreDeducts ledger calls, ∃ found, Decided userID a found := by
  induction calls generalizing ledger account with
  | nil => exact ⟨rfl, fun a ha => absurd ha List.not_mem_nil⟩
  | cons p rest ih =>
      obtain ⟨rfl, huser⟩ := List.forall_mem_cons.mp huser
      obtain ⟨hp, hpos⟩ := List.forall_mem_cons.mp hpos
      by_cases hcovers : p.amount ≤ account.available
      · have hattempt := attempt_ok haccount hfits hcovers
        obtain ⟨hbalance, havailable, hnext⟩ := hold_exact hfits hp hcovers
        have hrow : (ledger.hold account p).rows p.userID = some (account.hold p) :=
          Function.update_self ..
        obtain ⟨hgranted, hdecided⟩ := ih hrow hnext huser hpos
        constructor
        · rw [List.map_cons, Budget.granted, if_pos hcovers, ← havailable, ← hgranted]
          simp only [admitted, servePreDeducts, RowLock.serve, hattempt]
          rfl
        · simp only [servePreDeducts, RowLock.serve, hattempt, List.forall_mem_cons]
          refine ⟨⟨account, haccount, fun _ => ⟨rfl, hbalance⟩, fun hfails => ?_⟩, hdecided⟩
          cases hfails
      · have hattempt := attempt_refused haccount hfits (Int.not_le.mp hcovers)
        obtain ⟨hgranted, hdecided⟩ := ih haccount hfits huser hpos
        constructor
        · rw [List.map_cons, Budget.granted, if_neg hcovers, ← hgranted]
          simp only [admitted, servePreDeducts, RowLock.serve, hattempt]
          rfl
        · simp only [servePreDeducts, RowLock.serve, hattempt, List.forall_mem_cons]
          refine ⟨⟨account, haccount, fun hsucceeds => ?_, fun _ => ⟨Int.not_le.mp hcovers, rfl⟩⟩,
            hdecided⟩
          cases hsucceeds

theorem length_admitted {userID : UserID} {calls : List PreDeductParams} {ledger : Ledger}
    {account : Account} (haccount : ledger.rows userID = some account) (hfits : Fits account.available)
    (huser : ∀ p ∈ calls, p.userID = userID) {m : Int} (hm : 0 < m) (hequal : ∀ p ∈ calls, p.amount = m) :
    ((admitted ledger calls).length : Int) = min (calls.length : Int) (max 0 (account.available / m)) := by
  obtain ⟨hgranted, _⟩ := serve_decided haccount hfits huser fun p hp => by rw [hequal p hp]; exact hm
  have hamounts : calls.map PreDeductParams.amount = List.replicate calls.length m := by
    refine List.eq_replicate_iff.mpr ⟨List.length_map _, fun amount hamount => ?_⟩
    obtain ⟨p, hp, rfl⟩ := List.mem_map.mp hamount
    exact hequal p hp
  have hlength := congrArg List.length hgranted
  rw [List.length_map, hamounts] at hlength
  rw [hlength, Budget.length_granted_replicate hm]

-- In whatever order PreDeducts have an account, they are admitted exactly as far as
-- balance and credit limit go.
theorem preDeduct_admission {userID : UserID} {calls : List PreDeductParams} {ledger : Ledger}
    {account : Account} (haccount : ledger.rows userID = some account)
    (hfits : Fits (account.balance.toInt + account.creditLimit.toInt))
    (huser : ∀ p ∈ calls, p.userID = userID) (hpos : ∀ p ∈ calls, 0 < p.amount) :
    (admitted ledger calls ≠ [] → ((admitted ledger calls).map fun a => a.op.amount).sum ≤
      account.balance.toInt + account.creditLimit.toInt) ∧
    (∀ a ∈ servePreDeducts ledger calls, ∃ found, Decided userID a found) ∧
    ∀ m, 0 < m → (∀ p ∈ calls, p.amount = m) → ((admitted ledger calls).length : Int) =
      min (calls.length : Int) (max 0 ((account.balance.toInt + account.creditLimit.toInt) / m)) := by
  obtain ⟨hgranted, hdecided⟩ := serve_decided haccount hfits huser hpos
  refine ⟨fun hany => ?_, hdecided, fun m hm hequal => length_admitted haccount hfits huser hm hequal⟩
  rw [hgranted]
  refine Budget.sum_granted_le ?_ ?_
  · simpa using hpos
  · rwa [← hgranted, Ne, List.map_eq_nil_iff]

-- Three calls of 9000 fen on an account that covers two.
def threeCalls : List PreDeductParams := [⟨7, "c0", 100, 200⟩, ⟨7, "c1", 100, 200⟩, ⟨7, "c2", 100, 200⟩]

def coversTwo : Ledger := ⟨fun _ => some ⟨20000, 0, 10, none, .active⟩, []⟩

theorem preDeduct_admission_two : ((admitted coversTwo threeCalls).length : Int) = 2 := by
  have haccount : coversTwo.rows 7 = some ⟨20000, 0, 10, none, .active⟩ := rfl
  have huser : ∀ p ∈ threeCalls, p.userID = 7 := by decide
  obtain ⟨_, _, hequal⟩ := preDeduct_admission haccount (by decide) huser (by decide)
  exact (hequal 9000 (by decide) (by decide)).trans (by decide)

-- The same of transactions that interleave statement by statement, where each that
-- ends without a commit was refused.
theorem concurrent_admission {userID : UserID} {account : Account}
    {db after : RowLock.State PreDeductParams UserID Account Transaction}
    {labels : List (RowLock.Label PreDeductParams AccountRequest)}
    (hinv : RowLock.Inv PreDeductParams.operation db) (hidle : db.sessions = [])
    (hrun : Machine.run (Machine.restrict (RowLock.refusing PreDeductParams.operation)
      (RowLock.step PreDeductParams.operation createAccount)) db labels = some after)
    (hended : ∀ x ∈ after.sessions, x.phase.isClosed = true)
    (haccount : db.rows userID = some account) (hfits : Fits account.available)
    (huser : ∀ x ∈ after.sessions, x.op.userID = userID)
    {m : Int} (hm : 0 < m) (hequal : ∀ x ∈ after.sessions, x.op.amount = m) :
    (after.entries.length : Int) = db.entries.length +
      min (after.sessions.length : Int) (max 0 (account.available / m)) := by
  obtain ⟨calls, hperm, hserved⟩ := RowLock.interleaving_served _ createAccount hinv hidle hrun
  have hfinished : RowLock.finished after.sessions = after.sessions.map RowLock.Session.op := by
    rw [RowLock.finished, List.filter_eq_self.mpr hended]
  rw [hfinished] at hperm
  have hmem : ∀ p ∈ calls, ∃ x ∈ after.sessions, x.op = p :=
    fun p hp => List.mem_map.mp (hperm.mem_iff.mp hp)
  have hlength := RowLock.length_log_served PreDeductParams.operation db.committed calls
  have hcommitted : db.committed.rows userID = some account := haccount
  have huser' : ∀ p ∈ calls, p.userID = userID := by
    intro p hp
    obtain ⟨x, hx, rfl⟩ := hmem p hp
    exact huser x hx
  have hequal' : ∀ p ∈ calls, p.amount = m := by
    intro p hp
    obtain ⟨x, hx, rfl⟩ := hmem p hp
    exact hequal x hx
  have hadmitted := length_admitted hcommitted hfits huser' hm hequal'
  rw [hserved] at hlength
  have hcalls : calls.length = after.sessions.length := by
    rw [hperm.length_eq, List.length_map]
  simp only [RowLock.State.committed, List.length_map] at hlength
  rw [hcalls] at hadmitted
  rw [← hadmitted, hlength, Int.natCast_add]
  rfl

end Bos3000.Billing
