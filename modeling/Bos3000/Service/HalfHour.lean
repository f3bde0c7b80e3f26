import Bos3000.Billing.BlockCost
import Bos3000.Service.Holds

-- The hold of PreDeduct against the cost of calls of at most half an hour.
namespace Bos3000.Service

open Billing (AtMost CostFits Covers FinalizeParams HoldFits NonnegParams Transaction finalizeResponse preDeductAmount)
open Callback

theorem toInt_div_le {ms : Int64} (h : ms.toInt ≤ 1800000) : (ms / 1000).toInt ≤ 1800 := by
  rw [Int64.toInt_div_of_ne_right ms 1000 (by decide)]
  exact Int.tdiv_le_tdiv (by decide) h

theorem Admitted.covers {request : Request} {w : ActiveCall} (h : Admitted request w)
    (ha : w.call.aDurationMs.toInt ≤ 1800000) (hb : w.call.bDurationMs.toInt ≤ 1800000) :
    Covers (finalizeParams w.call) :=
  ⟨h.hold, toInt_div_le ha, toInt_div_le hb⟩

-- The total cost of Finalize grows with each duration and each rate, two legs of
-- half an hour cost what PreDeduct takes for their rates, and so every call whose
-- legs last no longer is settled by a refund of what is left of its hold.
theorem hold_covers_halfHour :
    (∀ p q : FinalizeParams, NonnegParams p → AtMost p q → CostFits q →
    p.actualCost.toInt ≤ q.actualCost.toInt) ∧
    (∀ p : FinalizeParams, p.aLegDurationSec = 1800 → p.bLegDurationSec = 1800 → 0 ≤ p.aLegRate.toInt →
      0 ≤ p.bLegRate.toInt → CostFits p →
      p.actualCost = preDeductAmount ⟨p.userID, p.callID, p.aLegRate, p.bLegRate⟩) ∧
    ∀ labels s x w, run labels = some s → x ∈ s.sessions → x.phase = .active w → w.billed →
      0 ≤ w.call.aLegRate.toInt → 0 ≤ w.call.bLegRate.toInt → HoldFits w.call.aLegRate w.call.bLegRate →
      CostFits (finalizeParams w.call) → w.call.aDurationMs.toInt ≤ 1800000 →
        w.call.bDurationMs.toInt ≤ 1800000 →
      ∃ hold settlement : Transaction, s.rowsOf x.request.callID = [hold, settlement] ∧
        hold.type = .pre_deduct ∧ hold.amount = w.call.preDeductAmount ∧
        (finalizeParams w.call).actualCost.toInt ≤ hold.amount.toInt ∧
        (finalizeResponse (finalizeParams w.call)).refund.toInt =
          hold.amount.toInt - (finalizeParams w.call).actualCost.toInt ∧
        settlement.amount = (finalizeResponse (finalizeParams w.call)).refund ∧
        (settlement.type = .refund ∨ settlement.type = .finalize ∧ settlement.amount = 0) := by
  refine ⟨fun p q => Billing.actualCost_mono, fun p => Billing.actualCost_halfHour, ?_⟩
  intro labels s x w hrun hx hactive hbilled harate hbrate hhold hfits ha hb
  have hadmitted := ((calls_run hrun).valid x hx).admitted w hactive
  have hrows := holdInv_run hrun x hx
  simp only [HoldInv, hactive] at hrows
  obtain ⟨hold, account, hrows, htype, hamount⟩ := hrows.2 hbilled
  have hsettlement := (hadmitted.covers ha hb).settlement harate hbrate hhold hfits account
  rw [← hamount] at hsettlement
  exact ⟨hold, _, hrows, htype, hamount, hsettlement⟩

def shortCall : FinalizeParams := ⟨1, "c1", 100, 61, 60, 120, 5400⟩

def halfHourCall : FinalizeParams := ⟨1, "c1", 1800, 1800, 60, 120, 5400⟩

theorem hold_covers_halfHour_rejected :
    shortCall.actualCost = 342 ∧ shortCall.actualCost.toInt ≤ halfHourCall.actualCost.toInt ∧
      halfHourCall.actualCost = preDeductAmount ⟨1, "c1", 60, 120⟩ ∧
    ∃ s x w, run (admitted ++ rejected) = some s ∧ s.sessions = [x] ∧ x.phase = .active w ∧ w.billed ∧
      ∃ hold settlement : Transaction, s.rowsOf x.request.callID = [hold, settlement] ∧
        hold.type = .pre_deduct ∧ hold.amount = w.call.preDeductAmount ∧
        (finalizeParams w.call).actualCost.toInt ≤ hold.amount.toInt ∧
        (finalizeResponse (finalizeParams w.call)).refund.toInt =
          hold.amount.toInt - (finalizeParams w.call).actualCost.toInt ∧
        settlement.amount = (finalizeResponse (finalizeParams w.call)).refund ∧
        (settlement.type = .refund ∨ settlement.type = .finalize ∧ settlement.amount = 0) := by
  obtain ⟨hmono, hhalfHour, hcalls⟩ := hold_covers_halfHour
  refine ⟨by decide, ?_, ?_, _, _, _, rfl, rfl, rfl, by decide, ?_⟩
  · exact hmono shortCall halfHourCall ⟨by decide, by decide, by decide, by decide⟩
      ⟨by decide, by decide, by decide, by decide⟩ (by decide)
  · exact hhalfHour halfHourCall rfl rfl (by decide) (by decide) (by decide)
  · exact hcalls (admitted ++ rejected) _ _ _ rfl (List.mem_singleton_self _) rfl (by decide) (by decide) (by decide)
      (by decide) (by decide) (by decide) (by decide)

end Bos3000.Service
