import Bos3000.Callback.AnswerFirst
import Bos3000.Service.Holds

-- What a call that A never answered costs its user.
namespace Bos3000.Service

open Billing (FinalizeParams Transaction)
open Callback

-- The hold of a call, and a settlement that gives all of it back.
def Refunded (amount : Money) (rows : List Transaction) : Prop :=
  ∃ hold settlement, rows = [hold, settlement] ∧ hold.type = .pre_deduct ∧ hold.amount = amount ∧
    settlement.signed = amount ∧ (0 < amount → settlement.type = .refund)

-- The call is finalized, and runCall took no answer of A.
def EndedUnanswered (w : ActiveCall) : Prop :=
  w.finalized = .done ∧ ∀ e ∈ consumed w.trace, e.isAnswer .A = false

theorem Held.not_refunded {amount held : Money} {rows : List Transaction} (h : Held held rows) :
    ¬ Refunded amount rows := by
  obtain ⟨hold, rfl, _⟩ := h
  rintro ⟨_, _, hrows, _⟩
  cases hrows

-- Finalize gives the whole hold back when the call cost nothing.
theorem Settled.refunded {p : FinalizeParams} {rows : List Transaction} (h : Settled p rows)
    (hcost : p.actualCost = 0) : Refunded p.preDeductAmount rows := by
  obtain ⟨hold, account, rfl, htype, hamount⟩ := h
  have hdiff : p.diff = p.preDeductAmount := by simp [FinalizeParams.diff, hcost]
  refine ⟨hold, _, rfl, htype, hamount, (Billing.finalize_signed p account).2.trans hdiff, fun hpos => ?_⟩
  rw [← hdiff] at hpos
  simp [Billing.finalize, hpos]

theorem unanswered_callRecord (r : Request) (hold : Hold) (aGateway bGateway callerID : String) :
    Unanswered (callRecord r hold aGateway bGateway callerID) :=
  ⟨fun field => by cases field <;> rfl, rfl, rfl, rfl, rfl⟩

theorem Admitted.first_decides {request : Request} {w : ActiveCall} (h : Admitted request w) :
    (OnlyAfterAnswer request.callID w.trace ↔ FirstEvent w.trace) ∧
      (FirstEvent w.trace → (∀ e ∈ consumed w.trace, e.isAnswer .A = false) →
        Unanswered w.call ∧ Unanswered w.row) := by
  rw [← h.callID.1]
  obtain ⟨hold, a, b, callerID, labels, hrun⟩ := h
  exact Callback.first_decides (unanswered_callRecord ..) hrun

-- B is dialled after an answer of A only, and a call that ends without one costs
-- nothing, if and only if the first event is an answer of A or a hangup and the
-- Finalize of such a call succeeds.
theorem answerFirst_iff {labels : List Label} {s : System} (hrun : run labels = some s) {x : Session}
    (hx : x ∈ s.sessions) {w : ActiveCall} (hactive : x.phase = .active w) :
    (OnlyAfterAnswer x.request.callID w.trace ∧
      (EndedUnanswered w →
        w.call.totalCost = 0 ∧ w.row.totalCost = 0 ∧ w.call.wastageType = none ∧
        w.row.wastageType = none ∧ Refunded w.row.preDeductAmount (s.rowsOf x.request.callID))) ↔
    FirstEvent w.trace ∧ (EndedUnanswered w → w.billed) := by
  have hadmitted := ((calls_run hrun).valid x hx).admitted w hactive
  have hrows := holdInv_run hrun x hx
  simp only [HoldInv, hactive] at hrows
  obtain ⟨hordered, hunanswered⟩ := hadmitted.first_decides
  rw [hordered]
  refine and_congr_right fun hfirst => forall_congr' fun hended => ?_
  obtain ⟨hcall, hrow⟩ := hunanswered hfirst hended.2
  constructor
  · rintro ⟨_, _, _, _, hrefunded⟩
    by_contra hbilled
    exact (hrows.1 hbilled).not_refunded hrefunded
  · intro hbilled
    refine ⟨hcall.totalCost, hrow.totalCost, hcall.wastageType, hrow.wastageType, ?_⟩
    rw [hadmitted.row.2]
    exact (hrows.2 hbilled).refunded hcall.actualCost

-- The A leg rings.
def rings : List Callback.Label :=
  [.resume (.load true), .exec 0 true, .exec 0 true, .resume (.originated .A true)] ++
  List.replicate 5 (.exec 10 true)

-- finalizeCall, every operation succeeding.
def finalizes : List Callback.Label :=
  [.finalize, .finalize, .body (.time 40000000000), .body .ok, .body .ok, .body .ok,
   .body (.config none), .body .ok, .body .ok, .body (.count 0), .body .ok, .body .ok, .body .ok,
   .body .ok, .body .ok, .finalize]

-- A hangs up instead of answering.
def declined : List Callback.Label :=
  rings ++ [.event ⟨"c1", .A, .CHANNEL_HANGUP, "USER_BUSY", 5000000000⟩,
    .resume (.event ⟨"c1", .A, .CHANNEL_HANGUP, "USER_BUSY", 5000000000⟩)] ++
  List.replicate 4 (.exec 5000000000 true) ++ finalizes

theorem answerFirst_declined :
    ∃ s x w, run (admitted ++ declined.map fun l => .move 0 (.call l)) = some s ∧ s.sessions = [x] ∧
      x.phase = .active w ∧
      ((OnlyAfterAnswer x.request.callID w.trace ∧
        (EndedUnanswered w →
          w.call.totalCost = 0 ∧ w.row.totalCost = 0 ∧ w.call.wastageType = none ∧
          w.row.wastageType = none ∧ Refunded w.row.preDeductAmount (s.rowsOf x.request.callID))) ↔
      FirstEvent w.trace ∧ (EndedUnanswered w → w.billed)) := by
  refine ⟨_, _, _, rfl, rfl, rfl, ?_⟩
  exact @answerFirst_iff (admitted ++ declined.map fun l => .move 0 (.call l)) _ rfl _
    (List.mem_singleton_self _) _ rfl

-- A bridge of the ringing A leg comes before any answer: B is dialled, answers
-- and stays for 30 seconds.
def earlyBridge : List Callback.Label :=
  rings ++ [Callback.Label.event ⟨"c1", .A, .CHANNEL_BRIDGE, "", 1000000000⟩,
    .resume (.event ⟨"c1", .A, .CHANNEL_BRIDGE, "", 1000000000⟩), .exec 1000000000 true,
    .resume (.originated .B true)] ++ List.replicate 5 (Callback.Label.exec 1000000000 true) ++
  [Callback.Label.event ⟨"c1", .B, .CHANNEL_ANSWER, "", 2000000000⟩,
    .resume (.event ⟨"c1", .B, .CHANNEL_ANSWER, "", 2000000000⟩)] ++
  List.replicate 5 (Callback.Label.exec 2000000000 true) ++
  [Callback.Label.resume (.bridged true), .event ⟨"c1", .B, .CHANNEL_HANGUP, "NORMAL_CLEARING", 32000000000⟩,
    .resume (.event ⟨"c1", .B, .CHANNEL_HANGUP, "NORMAL_CLEARING", 32000000000⟩)] ++
  List.replicate 5 (Callback.Label.exec 32000000000 true) ++ finalizes

theorem earlyBridge_bills :
    ∃ s x w, run (admitted ++ earlyBridge.map fun l => .move 0 (.call l)) = some s ∧ s.sessions = [x] ∧
      x.phase = .active w ∧ EndedUnanswered w ∧ w.billed ∧
      ¬ OnlyAfterAnswer x.request.callID w.trace ∧ w.row.totalCost = 120 ∧
      ¬ Refunded w.row.preDeductAmount (s.rowsOf x.request.callID) := by
  refine ⟨_, _, _, rfl, rfl, rfl, ⟨rfl, by decide⟩, by decide, ?_, by decide, ?_⟩
  · exact not_onlyAfterAnswer (by decide) (by decide)
  · rintro ⟨hold, settlement, hrows, _, _, hsigned, _⟩
    cases hrows
    exact absurd hsigned (by decide)

end Bos3000.Service
