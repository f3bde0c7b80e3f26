import Bos3000.Billing.Ledger
import Bos3000.Lib.ExactInt64

-- What one operation does to the credit that is left, when nothing overflows.
namespace Bos3000.Billing

open ExactInt64 (Fits)

-- The cost of a leg: both legs compute it alike, in blocks of their own.
def legCost (block durationSec rate : Money) : Money :=
  if 0 < durationSec then ceilDiv durationSec block * block * rate / 60 else 0

theorem aLegCost_eq (p : FinalizeParams) : p.aLegCost = legCost 6 p.aLegDurationSec p.aLegRate := rfl

theorem bLegCost_eq (p : FinalizeParams) : p.bLegCost = legCost 60 p.bLegDurationSec p.bLegRate := rfl

-- None of the operations in the cost of a leg overflows.
def LegFits (block durationSec rate : Money) : Prop :=
  Fits (durationSec.toInt + block.toInt) ∧
    Fits ((durationSec.toInt + block.toInt - 1) / block.toInt * block.toInt) ∧
    Fits ((durationSec.toInt + block.toInt - 1) / block.toInt * block.toInt * rate.toInt)

instance (block durationSec rate : Money) : Decidable (LegFits block durationSec rate) :=
  inferInstanceAs (Decidable (_ ∧ _))

theorem toInt_ceilDiv {block durationSec : Money} (hblock : 0 < block.toInt) (hnonneg : 0 ≤ durationSec.toInt)
    (hsum : Fits (durationSec.toInt + block.toInt)) :
    (ceilDiv durationSec block).toInt = (durationSec.toInt + block.toInt - 1) / block.toInt := by
  have hadd := ExactInt64.toInt_add hsum
  have hsub : (durationSec + block - 1).toInt = durationSec.toInt + block.toInt - 1 := by
    rw [ExactInt64.toInt_sub, hadd]
    · rfl
    · rw [hadd]
      have h1 : (1 : Int64).toInt = 1 := rfl
      unfold Fits at hsum ⊢
      omega
  rw [ceilDiv, ExactInt64.toInt_div _ hblock, hsub]
  rw [hsub]
  omega

-- Go's division truncates.
theorem toInt_legCost_tdiv {block durationSec rate : Money} (hblock : 0 < block.toInt)
    (hfits : LegFits block durationSec rate) (hpos : 0 < durationSec.toInt) :
    (legCost block durationSec rate).toInt =
      ((durationSec.toInt + block.toInt - 1) / block.toInt * block.toInt * rate.toInt).tdiv 60 := by
  obtain ⟨hsum, hblocks, hproduct⟩ := hfits
  have hdiv := toInt_ceilDiv hblock (Int.le_of_lt hpos) hsum
  have hmul : (ceilDiv durationSec block * block).toInt =
      (durationSec.toInt + block.toInt - 1) / block.toInt * block.toInt := by
    rw [ExactInt64.toInt_mul, hdiv]
    rwa [hdiv]
  have hrated : (ceilDiv durationSec block * block * rate).toInt =
      (durationSec.toInt + block.toInt - 1) / block.toInt * block.toInt * rate.toInt := by
    rw [ExactInt64.toInt_mul, hmul]
    rwa [hmul]
  rw [legCost, if_pos (ExactInt64.pos_iff.mpr hpos), Int64.toInt_div_of_ne_right _ 60 (by decide), hrated]
  rfl

theorem toInt_legCost {block durationSec rate : Money} (hblock : 0 < block.toInt) (hrate : 0 ≤ rate.toInt)
    (hfits : LegFits block durationSec rate) (hpos : 0 < durationSec.toInt) :
    (legCost block durationSec rate).toInt =
      (durationSec.toInt + block.toInt - 1) / block.toInt * block.toInt * rate.toInt / 60 := by
  rw [toInt_legCost_tdiv hblock hfits hpos, Int.tdiv_eq_ediv_of_nonneg]
  refine Int.mul_nonneg (Int.mul_nonneg (Int.ediv_nonneg ?_ ?_) ?_) hrate <;> omega

-- A leg of at most 30 minutes costs at most 30 times its rate.
theorem legCost_le {block durationSec rate : Money} (hblock : block = 6 ∨ block = 60)
    (hrate : 0 ≤ rate.toInt) (hfits : LegFits block durationSec rate) (hshort : durationSec.toInt ≤ 1800) :
    (legCost block durationSec rate).toInt ≤ rate.toInt * 30 := by
  by_cases hpos : 0 < durationSec.toInt
  · have hblocks : (durationSec.toInt + block.toInt - 1) / block.toInt * block.toInt ≤ 1800 := by
      obtain rfl | rfl := hblock
      · change (durationSec.toInt + 6 - 1) / 6 * 6 ≤ 1800
        omega
      · change (durationSec.toInt + 60 - 1) / 60 * 60 ≤ 1800
        omega
    have hcost := Int.mul_le_mul_of_nonneg_right hblocks hrate
    rw [toInt_legCost (by obtain rfl | rfl := hblock <;> decide) hrate hfits hpos]
    omega
  · have hzero : legCost block durationSec rate = 0 := by
      rw [legCost, if_neg (mt ExactInt64.pos_iff.mp hpos)]
    rw [hzero]
    change (0 : Int) ≤ _
    omega

-- None of the operations in the amount of a hold overflows.
def HoldFits (aLegRate bLegRate : Money) : Prop :=
  Fits (aLegRate.toInt + bLegRate.toInt) ∧ Fits ((aLegRate.toInt + bLegRate.toInt) * 30)

instance (aLegRate bLegRate : Money) : Decidable (HoldFits aLegRate bLegRate) :=
  inferInstanceAs (Decidable (_ ∧ _))

theorem toInt_preDeductAmount {p : PreDeductParams} (h : HoldFits p.aLegRate p.bLegRate) :
    (preDeductAmount p).toInt = (p.aLegRate.toInt + p.bLegRate.toInt) * 30 := by
  have hadd := ExactInt64.toInt_add h.1
  have hthirty : (30 : Int64).toInt = 30 := rfl
  rw [preDeductAmount, ExactInt64.toInt_mul, hadd, hthirty]
  rw [hadd, hthirty]
  exact h.2

-- No int64 operation of the service overflows.
def Op.Exact (account : Account) : Op → Prop
  | .preDeduct p =>
      HoldFits p.aLegRate p.bLegRate ∧ Fits (account.balance.toInt + account.creditLimit.toInt) ∧
        Fits (account.balance.toInt - (preDeductAmount p).toInt)
  | .finalize p =>
      HoldFits p.aLegRate p.bLegRate ∧ LegFits 6 p.aLegDurationSec p.aLegRate ∧
        LegFits 60 p.bLegDurationSec p.bLegRate ∧ Fits (p.aLegCost.toInt + p.bLegCost.toInt) ∧
        Fits (p.preDeductAmount.toInt - p.actualCost.toInt) ∧ Fits (-p.diff.toInt) ∧
        Fits (account.balance.toInt + p.diff.toInt)
  | .topup _ amount => Fits (account.balance.toInt + amount.value.toInt)
  | .deduct _ amount => Fits (account.balance.toInt - amount.value.toInt)

instance (account : Account) : (op : Op) → Decidable (op.Exact account)
  | .preDeduct _ | .finalize _ | .topup _ _ | .deduct _ _ => inferInstanceAs (Decidable (_ ∧ _))

def Op.NonnegRates : Op → Prop
  | .preDeduct p => 0 ≤ p.aLegRate.toInt ∧ 0 ≤ p.bLegRate.toInt
  | .finalize p => 0 ≤ p.aLegRate.toInt ∧ 0 ≤ p.bLegRate.toInt
  | .topup .. | .deduct .. => True

instance : (op : Op) → Decidable op.NonnegRates
  | .preDeduct _ | .finalize _ => inferInstanceAs (Decidable (_ ∧ _))
  | .topup _ _ | .deduct _ _ => inferInstanceAs (Decidable True)

-- What the user can still spend.
def Account.available (account : Account) : Int := account.balance.toInt + account.creditLimit.toInt

-- What Finalize charged beyond the hold.
def Transaction.extra (tx : Transaction) : Int := if tx.type = .finalize then tx.amount.toInt else 0

theorem validAmount_pos (amount : Amount) : 0 < amount.value.toInt := by
  have hvalid := amount.valid
  unfold validateAmount at hvalid
  split at hvalid
  · cases hvalid
  · rename_i hpos
    rw [Int64.le_iff_toInt_le, Int64.toInt_zero] at hpos
    omega

-- Finalize moves the balance by the difference, and charges what exceeds the hold.
theorem finalize_available {p : FinalizeParams} {account : Account} (hexact : (Op.finalize p).Exact account) :
    (finalize p account).1.available = account.available + p.diff.toInt ∧
      (finalize p account).2.extra = max 0 (-p.diff.toInt) := by
  obtain ⟨_, _, _, _, _, hneg, hbalance⟩ := hexact
  unfold finalize
  split
  · rename_i hpos
    rw [ExactInt64.pos_iff] at hpos
    simp only [Account.available, Transaction.extra, ExactInt64.toInt_add hbalance]
    exact ⟨by omega, by simp; omega⟩
  · rename_i hpos
    rw [ExactInt64.pos_iff] at hpos
    have hnegated := ExactInt64.toInt_neg hneg
    split
    · rename_i hlt
      have hfits : Fits (account.balance.toInt - (-p.diff).toInt) := by
        rw [hnegated]
        simpa using hbalance
      simp only [Account.available, Transaction.extra, ExactInt64.toInt_sub hfits, hnegated]
      exact ⟨by omega, by simp; omega⟩
    · rename_i hge
      rw [Int64.lt_iff_toInt_lt, Int64.toInt_zero] at hge
      have hzero : p.diff.toInt = 0 := by omega
      simp [Account.available, Transaction.extra, hzero]

theorem preDeduct_available {p : PreDeductParams} {account new : Account} {tx : Transaction}
    (hexact : (Op.preDeduct p).Exact account) (h : preDeduct p account = .ok (new, tx)) :
    0 ≤ new.available ∧ tx.extra = 0 := by
  obtain ⟨_, hcredit, hbalance⟩ := hexact
  unfold preDeduct at h
  split at h
  · cases h
  · rename_i hcheck
    cases h
    rw [Int64.lt_iff_toInt_lt, ExactInt64.toInt_add hcredit] at hcheck
    simp only [Account.available, ExactInt64.toInt_sub hbalance]
    exact ⟨by omega, rfl⟩

-- An operation other than Deduct takes the account below its limit by what it
-- charges beyond the hold, at most.
theorem apply_available {op : Op} {account new : Account} {tx : Transaction}
    (hexact : op.Exact account) (hdeduct : ∀ userID amount, op ≠ .deduct userID amount)
    (h : op.apply account = .ok (new, tx)) {extra : Int} (hextra : 0 ≤ extra)
    (havailable : -extra ≤ account.available) :
    0 ≤ tx.extra ∧ -(extra + tx.extra) ≤ new.available := by
  cases op with
  | preDeduct p =>
      obtain ⟨hnew, htx⟩ := preDeduct_available hexact h
      omega
  | finalize p =>
      obtain ⟨hnew, htx⟩ := finalize_available hexact
      rw [Except.ok.inj h] at hnew htx
      simp only at hnew htx
      omega
  | topup userID amount =>
      cases h
      have hpos := validAmount_pos amount
      simp only [Transaction.extra, Account.available, ExactInt64.toInt_add hexact] at havailable ⊢
      exact ⟨by simp, by simp; omega⟩
  | deduct userID amount => exact absurd rfl (hdeduct userID amount)

-- The Finalize settles the hold of its own rates and bills neither leg for more
-- than the 30 minutes that the hold covers.
structure Covers (p : FinalizeParams) : Prop where
  hold : p.preDeductAmount = preDeductAmount ⟨p.userID, p.callID, p.aLegRate, p.bLegRate⟩
  aLeg : p.aLegDurationSec.toInt ≤ 1800
  bLeg : p.bLegDurationSec.toInt ≤ 1800

theorem Covers.cost_le {p : FinalizeParams} (h : Covers p) (hhold : HoldFits p.aLegRate p.bLegRate)
    (haLeg : LegFits 6 p.aLegDurationSec p.aLegRate) (hbLeg : LegFits 60 p.bLegDurationSec p.bLegRate)
    (hsum : Fits (p.aLegCost.toInt + p.bLegCost.toInt)) (ha : 0 ≤ p.aLegRate.toInt) (hb : 0 ≤ p.bLegRate.toInt) :
    p.actualCost.toInt ≤ p.preDeductAmount.toInt := by
  have hacost := legCost_le (.inl rfl) ha haLeg h.aLeg
  have hbcost := legCost_le (.inr rfl) hb hbLeg h.bLeg
  have hamount : p.preDeductAmount.toInt = (p.aLegRate.toInt + p.bLegRate.toInt) * 30 := by
    rw [h.hold]
    exact toInt_preDeductAmount hhold
  have hcost : p.actualCost.toInt = p.aLegCost.toInt + p.bLegCost.toInt := ExactInt64.toInt_add hsum
  rw [hcost, hamount, aLegCost_eq, bLegCost_eq]
  omega

theorem Covers.diff_nonneg {p : FinalizeParams} (h : Covers p) {account : Account}
    (hexact : (Op.finalize p).Exact account) (hrates : (Op.finalize p).NonnegRates) : 0 ≤ p.diff.toInt := by
  obtain ⟨hhold, haLeg, hbLeg, hsum, hdiff, _, _⟩ := hexact
  have hle := h.cost_le hhold haLeg hbLeg hsum hrates.1 hrates.2
  rw [FinalizeParams.diff, ExactInt64.toInt_sub hdiff]
  omega

-- Where every Finalize is covered, the account stays within its limit.
theorem apply_within {op : Op} {account new : Account} {tx : Transaction}
    (hexact : op.Exact account) (hrates : op.NonnegRates)
    (hdeduct : ∀ userID amount, op ≠ .deduct userID amount) (hcovers : ∀ p, op = .finalize p → Covers p)
    (h : op.apply account = .ok (new, tx)) (havailable : 0 ≤ account.available) : 0 ≤ new.available := by
  obtain ⟨_, hnew⟩ := apply_available hexact hdeduct h (Int.le_refl 0) (by omega)
  cases op with
  | preDeduct p => exact (preDeduct_available hexact h).1
  | finalize p =>
      have hdiff := (hcovers p rfl).diff_nonneg hexact hrates
      obtain ⟨hmoved, _⟩ := finalize_available hexact
      rw [Except.ok.inj h] at hmoved
      simp only at hmoved
      omega
  | topup userID amount =>
      cases h
      simpa [Transaction.extra, topup] using hnew
  | deduct userID amount => exact absurd rfl (hdeduct userID amount)

end Bos3000.Billing
