import Bos3000.Billing.BlockCost
import Bos3000.Billing.Rates

-- For which rates the charges of a call are the mathematical ones.
namespace Bos3000.Billing

open ExactInt64 (Fits)

-- PreDeduct takes what half an hour costs, which is not negative, and leaves the
-- account within its limit.
structure ExactPreDeduct (a b : Money) (account : Account) : Prop where
  hold : HoldFits a b
  available : Fits (account.balance.toInt + account.creditLimit.toInt)
  taken : ∀ userID callID new tx, preDeduct ⟨userID, callID, a, b⟩ account = .ok (new, tx) →
    Fits (account.balance.toInt - 30 * (a.toInt + b.toInt)) ∧
      new.balance.toInt = account.balance.toInt - 30 * (a.toInt + b.toInt) ∧ 0 ≤ 30 * (a.toInt + b.toInt) ∧
      0 ≤ new.balance.toInt + account.creditLimit.toInt

-- The seconds of an admissible call.
def AdmissibleSec (durationSec : Int64) : Prop := 0 ≤ durationSec.toInt ∧ durationSec.toInt ≤ 2147483648

instance (durationSec : Int64) : Decidable (AdmissibleSec durationSec) := inferInstanceAs (Decidable (_ ∧ _))

-- Finalize computes the cost of whole blocks, the one of A rounded down, and what
-- it differs from the hold by.
structure ExactFinalize (p : FinalizeParams) : Prop where
  fits : CostFits p
  aLegCost : p.aLegCost.toInt = Blocks.count 6 p.aLegDurationSec.toInt * 6 * p.aLegRate.toInt / 60
  bLegCost : p.bLegCost.toInt = Blocks.count 60 p.bLegDurationSec.toInt * p.bLegRate.toInt
  diff : Fits (p.preDeductAmount.toInt - p.actualCost.toInt)

structure ExactCharges (a b : Money) (account : Account) : Prop where
  preDeduct : ExactPreDeduct a b account
  finalize : ∀ userID callID aLegDurationSec bLegDurationSec, AdmissibleSec aLegDurationSec →
    AdmissibleSec bLegDurationSec →
    ExactFinalize ⟨userID, callID, aLegDurationSec, bLegDurationSec, a, b,
      preDeductAmount ⟨userID, callID, a, b⟩⟩

-- The rates of A are not negative or whole tens, no product with the blocks of the
-- longest call overflows, and a hold that the account covers is not negative.
def ChargesFit (a b : Money) (account : Account) : Prop :=
  (-4294967288 ≤ a.toInt ∧ a.toInt ≤ 4294967288) ∧ (0 ≤ a.toInt ∨ 10 ∣ a.toInt) ∧
    (-4294967192 ≤ b.toInt ∧ b.toInt ≤ 4294967192) ∧
    Fits (account.balance.toInt + account.creditLimit.toInt) ∧
    (0 ≤ a.toInt + b.toInt ∨ account.balance.toInt + account.creditLimit.toInt < 30 * (a.toInt + b.toInt))

theorem count_le {block amount : Int} (hblock : 0 < block) (h : amount ≤ 2147483648) :
    Blocks.count block amount * block ≤ Blocks.count block 2147483648 * block :=
  Int.mul_le_mul_of_nonneg_right (Blocks.count_mono hblock h) (Int.le_of_lt hblock)

-- A product of a bounded factor that is not negative.
theorem mul_bounds {n rate bound most : Int} (hn : 0 ≤ n) (hmost : n ≤ most) (hlow : -bound ≤ rate)
    (hhigh : rate ≤ bound) (hbound : 0 ≤ bound) : -(most * bound) ≤ n * rate ∧ n * rate ≤ most * bound := by
  have hupper : n * rate ≤ n * bound := Int.mul_le_mul_of_nonneg_left hhigh hn
  have hlower : n * -bound ≤ n * rate := Int.mul_le_mul_of_nonneg_left hlow hn
  have hgrow : n * bound ≤ most * bound := Int.mul_le_mul_of_nonneg_right hmost hbound
  rw [Int.mul_neg] at hlower
  constructor <;> omega

theorem aLegFits_iff (a : Money) : (∀ durationSec, AdmissibleSec durationSec → LegFits 6 durationSec a) ↔
    -4294967288 ≤ a.toInt ∧ a.toInt ≤ 4294967288 := by
  constructor
  · intro h
    obtain ⟨_, _, hproduct⟩ := h 2147483648 (by decide)
    have hblocks : ((2147483648 : Int64).toInt + (6 : Int64).toInt - 1) / (6 : Int64).toInt * (6 : Int64).toInt =
        2147483652 := by decide
    rw [hblocks] at hproduct
    unfold Fits at hproduct
    omega
  · rintro ⟨hlow, hhigh⟩ durationSec ⟨hnonneg, hmost⟩
    have hblock : (6 : Int64).toInt = 6 := rfl
    have hcount : 0 ≤ Blocks.count 6 durationSec.toInt := Blocks.count_nonneg (by decide) hnonneg
    have hle : Blocks.count 6 durationSec.toInt * 6 ≤ 2147483652 := count_le (by decide) hmost
    have hproduct := mul_bounds (by omega) hle hlow hhigh (by decide)
    unfold Blocks.count at hcount hle hproduct
    unfold LegFits
    rw [hblock]
    unfold Fits
    omega

theorem bLegFits_iff (b : Money) : (∀ durationSec, AdmissibleSec durationSec → LegFits 60 durationSec b) ↔
    -4294967192 ≤ b.toInt ∧ b.toInt ≤ 4294967192 := by
  constructor
  · intro h
    obtain ⟨_, _, hproduct⟩ := h 2147483648 (by decide)
    have hblocks : ((2147483648 : Int64).toInt + (60 : Int64).toInt - 1) / (60 : Int64).toInt * (60 : Int64).toInt =
        2147483700 := by decide
    rw [hblocks] at hproduct
    unfold Fits at hproduct
    omega
  · rintro ⟨hlow, hhigh⟩ durationSec ⟨hnonneg, hmost⟩
    have hblock : (60 : Int64).toInt = 60 := rfl
    have hcount : 0 ≤ Blocks.count 60 durationSec.toInt := Blocks.count_nonneg (by decide) hnonneg
    have hle : Blocks.count 60 durationSec.toInt * 60 ≤ 2147483700 := count_le (by decide) hmost
    have hproduct := mul_bounds (by omega) hle hlow hhigh (by decide)
    unfold Blocks.count at hcount hle hproduct
    unfold LegFits
    rw [hblock]
    unfold Fits
    omega

-- Truncation is rounding down for what is not negative, and for whole minutes.
theorem tdiv_eq_ediv_iff (n : Int) : n.tdiv 60 = n / 60 ↔ 0 ≤ n ∨ 60 ∣ n := by
  have hsign : Int.sign 60 = 1 := rfl
  rw [Int.tdiv_eq_ediv, hsign]
  split
  · simp [*]
  · rename_i hnot
    simp only [hnot, iff_false]
    omega

theorem aLegCost_exact_iff {a : Money}
    (hfits : ∀ durationSec, AdmissibleSec durationSec → LegFits 6 durationSec a) :
    (∀ durationSec, AdmissibleSec durationSec →
      (legCost 6 durationSec a).toInt = Blocks.count 6 durationSec.toInt * 6 * a.toInt / 60) ↔
    0 ≤ a.toInt ∨ 10 ∣ a.toInt := by
  have hblock : (6 : Int64).toInt = 6 := rfl
  constructor
  · intro h
    have hone := h 1 (by decide)
    rw [toInt_legCost_tdiv (by decide) (hfits 1 (by decide)) (by decide)] at hone
    have hblocks : ((1 : Int64).toInt + (6 : Int64).toInt - 1) / (6 : Int64).toInt * (6 : Int64).toInt = 6 := by decide
    have hcount : Blocks.count 6 (1 : Int64).toInt * 6 = 6 := by decide
    rw [hblocks, hcount, tdiv_eq_ediv_iff] at hone
    omega
  · intro ha durationSec hduration
    by_cases hpos : 0 < durationSec.toInt
    · rw [toInt_legCost_tdiv (by decide) (hfits durationSec hduration) hpos, hblock]
      refine (tdiv_eq_ediv_iff _).mpr ?_
      have hcount : 0 ≤ Blocks.count 6 durationSec.toInt := Blocks.count_nonneg (by decide) hduration.1
      unfold Blocks.count at hcount
      obtain hnonneg | ⟨tens, htens⟩ := ha
      · exact .inl (Int.mul_nonneg (by omega) hnonneg)
      · refine .inr ⟨(durationSec.toInt + 6 - 1) / 6 * tens, ?_⟩
        rw [htens]
        grind
    · have hzero : durationSec.toInt = 0 := Int.le_antisymm (by omega) hduration.1
      rw [legCost, if_neg (mt ExactInt64.pos_iff.mp hpos), hzero]
      simp [Blocks.count]

theorem bLegCost_exact {b durationSec : Money} (hduration : AdmissibleSec durationSec)
    (hfits : LegFits 60 durationSec b) :
    (legCost 60 durationSec b).toInt = Blocks.count 60 durationSec.toInt * b.toInt := by
  have hblock : (60 : Int64).toInt = 60 := rfl
  by_cases hpos : 0 < durationSec.toInt
  · rw [toInt_legCost_tdiv (by decide) hfits hpos, hblock, Int.mul_right_comm, Int.mul_tdiv_cancel _ (by decide)]
    rfl
  · have hzero : durationSec.toInt = 0 := Int.le_antisymm (by omega) hduration.1
    rw [legCost, if_neg (mt ExactInt64.pos_iff.mp hpos), hzero]
    simp [Blocks.count]

theorem ChargesFit.finalize {a b : Money} {account : Account} (h : ChargesFit a b account) (userID : UserID)
    (callID : String) {aLegDurationSec bLegDurationSec : Int64} (ha : AdmissibleSec aLegDurationSec)
    (hb : AdmissibleSec bLegDurationSec) : ExactFinalize ⟨userID, callID, aLegDurationSec, bLegDurationSec, a, b,
      preDeductAmount ⟨userID, callID, a, b⟩⟩ := by
  obtain ⟨harate, htens, hbrate, _, _⟩ := h
  have haLegs := (aLegFits_iff a).mpr harate
  have haFits := haLegs aLegDurationSec ha
  have hbFits := (bLegFits_iff b).mpr hbrate bLegDurationSec hb
  have hacost := (aLegCost_exact_iff haLegs).mpr htens aLegDurationSec ha
  have hbcost := bLegCost_exact hb hbFits
  have haBound : Fits (Blocks.count 6 aLegDurationSec.toInt * 6 * a.toInt) := haFits.2.2
  have hbBound : Fits (Blocks.count 60 bLegDurationSec.toInt * 60 * b.toInt) := hbFits.2.2
  rw [Int.mul_right_comm] at hbBound
  have hsum : Fits ((legCost 6 aLegDurationSec a).toInt + (legCost 60 bLegDurationSec b).toInt) := by
    rw [hacost, hbcost]
    unfold Fits at haBound hbBound ⊢
    omega
  have hamount := toInt_preDeductAmount (p := ⟨userID, callID, a, b⟩)
    (show HoldFits a b by unfold HoldFits Fits; omega)
  refine ⟨⟨haFits, hbFits, hsum⟩, hacost, hbcost, ?_⟩
  change Fits ((preDeductAmount ⟨userID, callID, a, b⟩).toInt -
    (legCost 6 aLegDurationSec a + legCost 60 bLegDurationSec b).toInt)
  rw [ExactInt64.toInt_add hsum, hamount, hacost, hbcost]
  unfold Fits at haBound hbBound ⊢
  simp only
  omega

theorem ChargesFit.preDeduct {a b : Money} {account : Account} (h : ChargesFit a b account) :
    ExactPreDeduct a b account := by
  obtain ⟨harate, _, hbrate, havailable, hcovered⟩ := h
  have hhold : HoldFits a b := by
    unfold HoldFits Fits
    omega
  refine ⟨hhold, havailable, ?_⟩
  intro userID callID new tx hok
  unfold Billing.preDeduct at hok
  split at hok
  · cases hok
  · rename_i hcheck
    cases hok
    have hamount := toInt_preDeductAmount (p := ⟨userID, callID, a, b⟩) hhold
    rw [Int64.lt_iff_toInt_lt, ExactInt64.toInt_add havailable, hamount] at hcheck
    have hcredit := ExactInt64.fits_toInt account.creditLimit
    have hbalance := ExactInt64.fits_toInt account.balance
    simp only at hcheck hamount
    have hleft : Fits (account.balance.toInt - (preDeductAmount ⟨userID, callID, a, b⟩).toInt) := by
      rw [hamount]
      unfold Fits at hcredit hbalance ⊢
      omega
    simp only [ExactInt64.toInt_sub hleft]
    rw [hamount] at hleft ⊢
    unfold Fits at hleft ⊢
    omega

-- All four endpoints accept every pair of rates. The charges are exact for those, and
-- an account, that fit.
theorem charges_exact_iff (a b : Money) (account : Account) :
    (∀ endpoint, Accepted endpoint a b) ∧ (ExactCharges a b account ↔ ChargesFit a b account) := by
  refine ⟨fun endpoint => accepted endpoint a b, ?_,
    fun h => ⟨h.preDeduct, fun userID callID _ _ => h.finalize userID callID⟩⟩
  rintro ⟨⟨hhold, havailable, htaken⟩, hfinalize⟩
  have haLegs : ∀ durationSec, AdmissibleSec durationSec → LegFits 6 durationSec a := fun durationSec hduration =>
    (hfinalize 0 "" durationSec 0 hduration (by decide)).fits.1
  have hbLegs : ∀ durationSec, AdmissibleSec durationSec → LegFits 60 durationSec b := fun durationSec hduration =>
    (hfinalize 0 "" 0 durationSec (by decide) hduration).fits.2.1
  have hacosts := (aLegCost_exact_iff haLegs).mp fun durationSec hduration =>
    (hfinalize 0 "" durationSec 0 hduration (by decide)).aLegCost
  refine ⟨(aLegFits_iff a).mp haLegs, hacosts, (bLegFits_iff b).mp hbLegs, havailable, ?_⟩
  by_contra hcovered
  have hamount := toInt_preDeductAmount (p := ⟨0, "", a, b⟩) hhold
  have hcheck : ¬ account.balance + account.creditLimit < preDeductAmount ⟨0, "", a, b⟩ := by
    rw [Int64.lt_iff_toInt_lt, ExactInt64.toInt_add havailable, hamount]
    simp only
    omega
  obtain ⟨_, _, hnonneg, _⟩ := htaken 0 "" _ _ (by rw [Billing.preDeduct, if_neg hcheck])
  omega

-- A rate below 0 is accepted, and PreDeduct raises the balance.
theorem negativeRates_inexact :
    ¬ ∀ endpoint a b account, Accepted endpoint a b → ExactCharges a b account := by
  intro h
  have hexact := h .setUserRateConfig (-1) (-1) ⟨0, 0, 2, none, .active⟩ (accepted .setUserRateConfig (-1) (-1))
  have hok : preDeduct ⟨7, "c1", -1, -1⟩ ⟨0, 0, 2, none, .active⟩ =
      .ok (⟨60, 0, 2, none, .active⟩, ⟨.pre_deduct, -60, 60, some "c1"⟩) := rfl
  obtain ⟨_, _, hnonneg, _⟩ := hexact.preDeduct.taken 7 "c1" _ _ hok
  exact absurd hnonneg (by decide)

end Bos3000.Billing
