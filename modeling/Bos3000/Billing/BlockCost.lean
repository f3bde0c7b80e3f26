import Bos3000.Billing.Credit
import Bos3000.Lib.Blocks

-- The cost that Finalize computes, as the cost of whole blocks.
namespace Bos3000.Billing

open ExactInt64 (Fits)

section Leg

variable {block durationSec rate : Money}

theorem toInt_legCost_eq (hblock : 0 < block.toInt) (hrate : 0 ≤ rate.toInt)
    (hfits : LegFits block durationSec rate) :
    (legCost block durationSec rate).toInt = Blocks.cost block.toInt 60 durationSec.toInt rate.toInt := by
  by_cases hpos : 0 < durationSec.toInt
  · rw [toInt_legCost hblock hrate hfits hpos, Blocks.cost, if_pos hpos, Blocks.count]
  · rw [legCost, if_neg (mt ExactInt64.pos_iff.mp hpos), Blocks.cost, if_neg hpos]
    rfl

-- The blocks a leg is billed.
def legBlocks (block durationSec : Money) : Int64 := if 0 < durationSec then ceilDiv durationSec block else 0

theorem legCost_eq_blocks (block durationSec rate : Money) :
    legCost block durationSec rate = legBlocks block durationSec * block * rate / 60 := by
  unfold legCost legBlocks
  split
  · rfl
  · rw [Int64.zero_mul, Int64.zero_mul, Int64.zero_div]

theorem toInt_legBlocks (hblock : 0 < block.toInt) (hnonneg : 0 ≤ durationSec.toInt)
    (hsum : Fits (durationSec.toInt + block.toInt)) :
    (legBlocks block durationSec).toInt = Blocks.count block.toInt durationSec.toInt := by
  by_cases hpos : 0 < durationSec.toInt
  · rw [legBlocks, if_pos (ExactInt64.pos_iff.mpr hpos), toInt_ceilDiv hblock hnonneg hsum, Blocks.count]
  · have hzero : durationSec.toInt = 0 * block.toInt := by omega
    rw [legBlocks, if_neg (mt ExactInt64.pos_iff.mp hpos), hzero, Blocks.count_mul hblock]
    rfl

-- A shorter leg at a lower rate overflows no earlier.
theorem LegFits.mono {durationSec' rate' : Money} (h : LegFits block durationSec' rate') (hblock : 0 < block.toInt)
    (hnonneg : 0 ≤ durationSec.toInt) (hduration : durationSec.toInt ≤ durationSec'.toInt)
    (hrate : 0 ≤ rate.toInt)
    (hrates : rate.toInt ≤ rate'.toInt) : LegFits block durationSec rate := by
  obtain ⟨hsum, hblocks, hproduct⟩ := h
  have hcount := Blocks.count_nonneg hblock hnonneg
  have hmono := Int.mul_le_mul_of_nonneg_right (Blocks.count_mono hblock hduration) (Int.le_of_lt hblock)
  have hlow := Int.mul_nonneg hcount (Int.le_of_lt hblock)
  have hrated := Blocks.mul_rate_mono hblock hnonneg hduration hrate hrates
  have hrated_low := Int.mul_nonneg hlow hrate
  unfold Blocks.count at hmono hlow hrated hrated_low
  unfold Fits at *
  refine ⟨?_, ?_, ?_⟩ <;> constructor <;> omega

end Leg

-- No operation in the cost of a Finalize overflows.
def CostFits (p : FinalizeParams) : Prop :=
  LegFits 6 p.aLegDurationSec p.aLegRate ∧ LegFits 60 p.bLegDurationSec p.bLegRate ∧
    Fits (p.aLegCost.toInt + p.bLegCost.toInt)

instance (p : FinalizeParams) : Decidable (CostFits p) := inferInstanceAs (Decidable (_ ∧ _))

structure NonnegParams (p : FinalizeParams) : Prop where
  aLegDurationSec : 0 ≤ p.aLegDurationSec.toInt
  bLegDurationSec : 0 ≤ p.bLegDurationSec.toInt
  aLegRate : 0 ≤ p.aLegRate.toInt
  bLegRate : 0 ≤ p.bLegRate.toInt

-- No leg of p is longer, or has a higher rate, than in q.
structure AtMost (p q : FinalizeParams) : Prop where
  aLegDurationSec : p.aLegDurationSec.toInt ≤ q.aLegDurationSec.toInt
  bLegDurationSec : p.bLegDurationSec.toInt ≤ q.bLegDurationSec.toInt
  aLegRate : p.aLegRate.toInt ≤ q.aLegRate.toInt
  bLegRate : p.bLegRate.toInt ≤ q.bLegRate.toInt

theorem toInt_aLegCost {p : FinalizeParams} (hrate : 0 ≤ p.aLegRate.toInt)
    (hfits : LegFits 6 p.aLegDurationSec p.aLegRate) :
    p.aLegCost.toInt = Blocks.cost 6 60 p.aLegDurationSec.toInt p.aLegRate.toInt :=
  @toInt_legCost_eq 6 _ _ (by decide) hrate hfits

theorem toInt_bLegCost {p : FinalizeParams} (hrate : 0 ≤ p.bLegRate.toInt)
    (hfits : LegFits 60 p.bLegDurationSec p.bLegRate) :
    p.bLegCost.toInt = Blocks.cost 60 60 p.bLegDurationSec.toInt p.bLegRate.toInt :=
  @toInt_legCost_eq 60 _ _ (by decide) hrate hfits

theorem aLegCost_nonneg {p : FinalizeParams} (hrate : 0 ≤ p.aLegRate.toInt)
    (hfits : LegFits 6 p.aLegDurationSec p.aLegRate) : 0 ≤ p.aLegCost.toInt := by
  rw [toInt_aLegCost hrate hfits]
  exact Blocks.cost_nonneg (by decide) (by decide) hrate

theorem bLegCost_nonneg {p : FinalizeParams} (hrate : 0 ≤ p.bLegRate.toInt)
    (hfits : LegFits 60 p.bLegDurationSec p.bLegRate) : 0 ≤ p.bLegCost.toInt := by
  rw [toInt_bLegCost hrate hfits]
  exact Blocks.cost_nonneg (by decide) (by decide) hrate

theorem actualCost_mono {p q : FinalizeParams} (hp : NonnegParams p) (h : AtMost p q) (hfits : CostFits q) :
    p.actualCost.toInt ≤ q.actualCost.toInt := by
  obtain ⟨haLeg, hbLeg, hsum⟩ := hfits
  have hpa : LegFits 6 p.aLegDurationSec p.aLegRate :=
    haLeg.mono (by decide) hp.aLegDurationSec h.aLegDurationSec hp.aLegRate h.aLegRate
  have hpb : LegFits 60 p.bLegDurationSec p.bLegRate :=
    hbLeg.mono (by decide) hp.bLegDurationSec h.bLegDurationSec hp.bLegRate h.bLegRate
  have ha : p.aLegCost.toInt ≤ q.aLegCost.toInt := by
    rw [toInt_aLegCost hp.aLegRate hpa, toInt_aLegCost (Int.le_trans hp.aLegRate h.aLegRate) haLeg]
    exact Blocks.cost_mono (by decide) (by decide) h.aLegDurationSec hp.aLegRate h.aLegRate
  have hb : p.bLegCost.toInt ≤ q.bLegCost.toInt := by
    rw [toInt_bLegCost hp.bLegRate hpb, toInt_bLegCost (Int.le_trans hp.bLegRate h.bLegRate) hbLeg]
    exact Blocks.cost_mono (by decide) (by decide) h.bLegDurationSec hp.bLegRate h.bLegRate
  have hqcost : q.actualCost.toInt = q.aLegCost.toInt + q.bLegCost.toInt := ExactInt64.toInt_add hsum
  have hpcost : p.actualCost.toInt = p.aLegCost.toInt + p.bLegCost.toInt := by
    have ha0 := aLegCost_nonneg hp.aLegRate hpa
    have hb0 := bLegCost_nonneg hp.bLegRate hpb
    refine ExactInt64.toInt_add ?_
    unfold Fits at hsum ⊢
    omega
  omega

-- Two legs of half an hour cost what PreDeduct holds.
theorem actualCost_halfHour {p : FinalizeParams} (ha : p.aLegDurationSec = 1800) (hb : p.bLegDurationSec = 1800)
    (harate : 0 ≤ p.aLegRate.toInt) (hbrate : 0 ≤ p.bLegRate.toInt) (hfits : CostFits p) :
    p.actualCost = preDeductAmount ⟨p.userID, p.callID, p.aLegRate, p.bLegRate⟩ := by
  obtain ⟨haLeg, hbLeg, hsum⟩ := hfits
  have hseconds : (1800 : Int64).toInt = 1800 := rfl
  have hacost : p.aLegCost.toInt = 30 * p.aLegRate.toInt := by
    rw [toInt_aLegCost harate haLeg, ha, hseconds]
    exact Blocks.cost_whole (n := 300) (by decide) (by decide) (by decide) (by decide) (by decide)
  have hbcost : p.bLegCost.toInt = 30 * p.bLegRate.toInt := by
    rw [toInt_bLegCost hbrate hbLeg, hb, hseconds]
    exact Blocks.cost_whole (n := 30) (by decide) (by decide) (by decide) (by decide) (by decide)
  have hcost : p.actualCost.toInt = p.aLegCost.toInt + p.bLegCost.toInt := ExactInt64.toInt_add hsum
  have hhold : HoldFits p.aLegRate p.bLegRate := by
    unfold HoldFits
    unfold Fits at hsum ⊢
    omega
  have hamount : (preDeductAmount ⟨p.userID, p.callID, p.aLegRate, p.bLegRate⟩).toInt =
      (p.aLegRate.toInt + p.bLegRate.toInt) * 30 := toInt_preDeductAmount hhold
  apply Int64.toInt_inj.mp
  rw [hcost, hamount]
  omega

-- A Finalize that is covered refunds what the hold exceeds the cost by, and charges
-- nothing on top.
theorem Covers.settlement {p : FinalizeParams} (h : Covers p) (harate : 0 ≤ p.aLegRate.toInt)
    (hbrate : 0 ≤ p.bLegRate.toInt) (hhold : HoldFits p.aLegRate p.bLegRate) (hfits : CostFits p)
    (account : Account) :
    p.actualCost.toInt ≤ p.preDeductAmount.toInt ∧
      (finalizeResponse p).refund.toInt = p.preDeductAmount.toInt - p.actualCost.toInt ∧
      (finalize p account).2.amount = (finalizeResponse p).refund ∧
      ((finalize p account).2.type = .refund ∨
        (finalize p account).2.type = .finalize ∧ (finalize p account).2.amount = 0) := by
  obtain ⟨haLeg, hbLeg, hsum⟩ := hfits
  have hle := h.cost_le hhold haLeg hbLeg hsum harate hbrate
  have hdiff : p.diff.toInt = p.preDeductAmount.toInt - p.actualCost.toInt := by
    have hcost : p.actualCost.toInt = p.aLegCost.toInt + p.bLegCost.toInt := ExactInt64.toInt_add hsum
    have ha0 := aLegCost_nonneg harate haLeg
    have hb0 := bLegCost_nonneg hbrate hbLeg
    have hamount := ExactInt64.fits_toInt p.preDeductAmount
    refine ExactInt64.toInt_sub ?_
    unfold Fits at hamount ⊢
    omega
  have hnotless : ¬ p.diff < 0 := by
    rw [Int64.lt_iff_toInt_lt, Int64.toInt_zero]
    omega
  refine ⟨hle, ?_⟩
  unfold finalizeResponse finalize
  by_cases hpos : 0 < p.diff
  · simp [hpos, hdiff]
  · have hzero : p.preDeductAmount.toInt - p.actualCost.toInt = 0 := by
      rw [ExactInt64.pos_iff] at hpos
      omega
    simp [hpos, hnotless, hzero]

end Bos3000.Billing
