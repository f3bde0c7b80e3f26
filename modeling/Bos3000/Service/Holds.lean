import Bos3000.Callback.Costs
import Bos3000.Service.Calls

-- The hold of a call and its settlement.
namespace Bos3000.Service

open Billing (Account FinalizeParams Op Transaction finalizeResponse)
open Callback

-- The rows of a call whose hold is open, and of one whose hold is settled.
def Held (amount : Money) (rows : List Transaction) : Prop :=
  ∃ hold, rows = [hold] ∧ hold.type = .pre_deduct ∧ hold.amount = amount

def Settled (p : FinalizeParams) (rows : List Transaction) : Prop :=
  ∃ hold account, rows = [hold, (Billing.finalize p account).2] ∧ hold.type = .pre_deduct ∧
    hold.amount = p.preDeductAmount

theorem held_preDeduct {p : Billing.PreDeductParams} {account new : Account} {tx : Transaction}
    (h : (Op.preDeduct p).apply account = .ok (new, tx)) : Held (Billing.preDeductAmount p) [tx] := by
  simp only [Op.apply, Billing.preDeduct] at h
  split at h <;> cases h
  exact ⟨_, rfl, rfl, rfl⟩

theorem Held.settle {p : FinalizeParams} {rows : List Transaction} (h : Held p.preDeductAmount rows)
    {account new : Account} {tx : Transaction} (hop : (Op.finalize p).apply account = .ok (new, tx)) :
    Settled p (rows ++ [tx]) := by
  obtain ⟨hold, rfl, htype, hamount⟩ := h
  have htx : (Billing.finalize p account).2 = tx := congrArg Prod.snd (Except.ok.inj hop)
  exact ⟨hold, account, by rw [htx]; rfl, htype, hamount⟩

-- A settled hold leaves the user charged with the actual cost.
theorem Settled.sum {p : FinalizeParams} {rows : List Transaction} (h : Settled p rows) :
    (rows.map Transaction.signed).sum = -p.actualCost := by
  obtain ⟨hold, account, rfl, htype, hamount⟩ := h
  have hhold : hold.signed = -p.preDeductAmount := by simp [Transaction.signed, htype, hamount]
  simp only [List.map_cons, List.map_nil, List.sum_cons, List.sum_nil, hhold, (Billing.finalize_signed p account).2,
    FinalizeParams.diff]
  grind

theorem refund_eq_max (p : FinalizeParams) :
    (finalizeResponse p).refund = max 0 (p.preDeductAmount - p.actualCost) := by
  have hmax : max 0 p.diff = if 0 ≤ p.diff then p.diff else 0 := rfl
  change (if 0 < p.diff then p.diff else 0) = max 0 p.diff
  rw [hmax]
  grind

section Active

variable {w v : ActiveCall} {l : Callback.Label}

theorem notBilled_of_running (hsettling : Settling w) {body : Body}
    (hrunning : w.finalized = .running { body with todo := .billingFinalize :: body.todo }) :
    ¬ w.billed := by
  intro hbilled
  exact absurd (hsettling.before hrunning (mem_executed hbilled)) (Nat.lt_irrefl _)

-- The parameters of Finalize do not change from the statement on.
theorem step_finalizeParams (hsettling : Settling w) (hstep : w.step l = some v)
    (h : w.billed ∨ ∃ op, w.access l = .transact op) :
    finalizeParams v.call = finalizeParams w.call := by
  have hfixed := (step_fixed hstep).1
  by_cases hl : ∃ o, l = .body o
  · obtain ⟨o, rfl⟩ := hl
    obtain ⟨stmt, body, call, row, next, hrunning, hexec, rfl⟩ := bodyStep_eq_some hstep
    obtain hsame | hduration | hduration | ⟨_, _, rfl⟩ := (exec_costs hexec).1
    · exact finalizeParams_congr hfixed hsame
    · subst hduration
      rw [access_running hrunning] at h
      obtain hbilled | ⟨op, haccess⟩ := h
      · exact absurd (hsettling.before hrunning (mem_executed hbilled)) (by decide)
      · cases o <;> cases haccess
    · subst hduration
      rw [access_running hrunning] at h
      obtain hbilled | ⟨op, haccess⟩ := h
      · exact absurd (hsettling.before hrunning (mem_executed hbilled)) (by decide)
      · cases o <;> cases haccess
    · rfl
  · obtain ⟨hcall, _, _⟩ := step_costs (fun o ho => hl ⟨o, ho⟩) hstep
    exact finalizeParams_congr hfixed hcall

theorem access_transacts (call : CallbackCall) (slots : Option Int) (stmt : Stmt) (o : Outcome) :
    (∃ op, stmt.access call slots o = .transact op) ↔ stmt = .billingFinalize ∧ o = .ok := by
  constructor
  · rintro ⟨op, h⟩
    revert h
    fun_cases Stmt.access call slots stmt o <;> intro h <;> cases h
    exact ⟨rfl, rfl⟩
  · rintro ⟨rfl, rfl⟩
    exact ⟨_, rfl⟩

-- A call is billed by the step that commits its transaction.
theorem step_billed (hstep : w.step l = some v) :
    v.billed ↔ w.billed ∨ ∃ op, w.access l = .transact op := by
  by_cases hl : ∃ o, l = .body o
  · obtain ⟨o, rfl⟩ := hl
    obtain ⟨stmt, body, call, row, next, hrunning, hexec, rfl⟩ := bodyStep_eq_some hstep
    have haccess := access_running hrunning o
    simp only [ActiveCall.billed, List.mem_append, List.mem_singleton, Effect.body.injEq, haccess]
    refine or_congr_right ?_
    rw [access_transacts]
    exact ⟨fun h => ⟨h.1.symm, h.2.symm⟩, fun h => ⟨h.1.symm, h.2.symm⟩⟩
  · have hnone : w.access l = .none := by
      cases l <;> first | rfl | exact absurd ⟨_, rfl⟩ hl
    obtain ⟨_, _, hlog⟩ := step_costs (fun o ho => hl ⟨o, ho⟩) hstep
    simp [ActiveCall.billed, hlog, hnone]

end Active

-- A request that fails leaves nothing, a hold, or a hold with its settlement.
def StageInv (r : Request) (stage : InitiateStage) (rows : List Transaction) : Prop :=
  match stage.held r with
  | some amount => Held amount rows
  | none =>
      rows = [] ∨ (∃ e, stage = .failed e) ∧ ((∃ amount, Held amount rows) ∨ ∃ p, Settled p rows)

-- The rows of a call are its hold and, once it is billed, the settlement.
def CallInv (w : ActiveCall) (rows : List Transaction) : Prop :=
  (¬ w.billed → Held w.call.preDeductAmount rows) ∧ (w.billed → Settled (finalizeParams w.call) rows)

def HoldInv (x : Session) (rows : List Transaction) : Prop :=
  match x.phase with
  | .initiating stage => StageInv x.request stage rows
  | .active w => CallInv w rows

theorem CallInv.step {w v : ActiveCall} {l : Callback.Label} {rows new : List Transaction}
    (h : CallInv w rows) (hsettling : Settling w) (hstep : w.step l = some v)
    (hwrites : Writes (w.access l) new) : CallInv v (rows ++ new) := by
  by_cases hop : ∃ op, w.access l = .transact op
  · have hbilled := (step_billed hstep).mpr (.inr hop)
    refine ⟨fun hnot => absurd hbilled hnot, fun _ => ?_⟩
    rw [step_finalizeParams hsettling hstep (.inr hop)]
    obtain ⟨op, haccess⟩ := hop
    obtain ⟨body, _, hrunning, rfl⟩ := access_transact hstep haccess
    rw [haccess] at hwrites
    cases hwrites with
    | nothing hno => exact absurd rfl (hno _)
    | row hop => exact (h.1 (notBilled_of_running hsettling hrunning)).settle hop
  · have hnew : new = [] := hwrites.eq_nil fun op haccess => hop ⟨op, haccess⟩
    have hamount : v.call.preDeductAmount = w.call.preDeductAmount :=
      congrArg Fixed.preDeductAmount (step_fixed hstep).1
    have hbilled : v.billed ↔ w.billed := by
      rw [step_billed hstep]
      exact or_iff_left hop
    rw [hnew, List.append_nil]
    constructor
    · intro hnot
      rw [hamount]
      exact h.1 (mt hbilled.mpr hnot)
    · intro hv
      have hw := hbilled.mp hv
      rw [step_finalizeParams hsettling hstep (.inl hw)]
      exact h.2 hw

theorem StageInv.step {r : Request} {stage next : InitiateStage} {x : Reply} {access : Access}
    {rows new : List Transaction} (h : StageInv r stage rows)
    (hresume : stage.resume r x = some (next, access)) (hwrites : Writes access new) :
    StageInv r next (rows ++ new) := by
  obtain ⟨hold, rfl, rfl, rfl⟩ | ⟨hold, e, rfl, _, rfl, rfl⟩ | ⟨hno, hnext⟩ := resume_cases hresume
  · obtain rfl | ⟨⟨_, hfailed⟩, _⟩ := h
    · cases hwrites with
      | nothing hno => exact absurd rfl (hno _)
      | row hop => exact held_preDeduct hop
    · cases hfailed
  · cases hwrites with
    | nothing hno => exact absurd rfl (hno _)
    | row hop => exact .inr ⟨⟨e, rfl⟩, .inr ⟨_, Held.settle (p := hold.refundParams r) h hop⟩⟩
  · rw [hwrites.eq_nil hno, List.append_nil]
    have hrunning : ∀ e, stage ≠ .failed e := by
      rintro e rfl
      cases hresume
    obtain ⟨e, rfl, _⟩ | hheld := hnext
    · unfold StageInv at h
      split at h
      · exact .inr ⟨⟨e, rfl⟩, .inl ⟨_, h⟩⟩
      · exact .inl (h.resolve_right fun hfailed => hrunning _ hfailed.1.choose_spec)
    · unfold StageInv at h ⊢
      rw [hheld]
      split at h
      · exact h
      · exact .inl (h.resolve_right fun hfailed => hrunning _ hfailed.1.choose_spec)

theorem callInv_init {call : CallbackCall} {rows : List Transaction}
    (h : Held call.preDeductAmount rows) : CallInv (.init call) rows :=
  ⟨fun _ => h, fun hbilled => by cases hbilled⟩

theorem holdInv_of {r : Request} {stage : InitiateStage} {alive : Bool} {rows : List Transaction}
    (h : StageInv r stage rows) : HoldInv ⟨r, Phase.of stage, alive⟩ rows := by
  cases stage with
  | stored call => exact callInv_init h
  | _ => exact h

theorem Admitted.row {request : Request} {w : ActiveCall} (h : Admitted request w) :
    w.row.callID = request.callID ∧ w.row.preDeductAmount = (finalizeParams w.call).preDeductAmount := by
  obtain ⟨hold, a, b, callerID, hcall, hrow⟩ := h.fixed
  exact ⟨congrArg Fixed.callID hrow, congrArg Fixed.preDeductAmount (hrow.trans hcall.symm)⟩

-- The costs in the row are those of the Finalize.
theorem Admitted.costs {request : Request} {w : ActiveCall} (h : Admitted request w) (hbilled : w.billed)
    (hpersisted : w.persisted) :
    w.row.totalCost = (finalizeParams w.call).actualCost ∧
      (finalizeParams w.call).actualCost = w.row.aLegCost + w.row.bLegCost := by
  obtain ⟨_, _, _, _, _, hrun⟩ := h
  have hinv := costInv_run hrun
  have hcosts := (hinv.row hpersisted).trans (hinv.costs hbilled)
  simp only [CallbackCall.costs, Costs.mk.injEq] at hcosts
  obtain ⟨_, _, ha, hb, htotal⟩ := hcosts
  exact ⟨htotal, by rw [ha, hb]; rfl⟩

theorem HoldInv.step {x : Session} {rows new : List Transaction} (h : HoldInv x rows) (hvalid : x.Valid)
    {m : Move} {phase : Phase} {access : Access} (hstep : x.step m = some (phase, access))
    (hwrites : Writes access new) : HoldInv { x with phase } (rows ++ new) := by
  obtain ⟨stage, r, next, hstage, _, hresume, rfl⟩ | ⟨w, l, v, hw, _, hv, rfl, rfl⟩ :=
    Session.step_eq_some hstep
  · simp only [HoldInv, hstage] at h
    exact holdInv_of (h.step hresume hwrites)
  · simp only [HoldInv, hw] at h ⊢
    exact h.step (hvalid.admitted w hw).settling hv hwrites

theorem holdInv_run {labels : List Label} {s : System} (hrun : run labels = some s) :
    ∀ x ∈ s.sessions, HoldInv x (s.rowsOf x.request.callID) := by
  refine Machine.run_induction
    (motive := fun _ s => ∀ x ∈ s.sessions, HoldInv x (s.rowsOf x.request.callID)) ?_ ?_ hrun
  · intro x hx
    cases hx
  · intro _ _ s t hs hP hstep
    have hcalls := calls_run hs
    refine hcalls.each_step hstep (fun _ => .inl rfl) (fun _ _ _ _ h => h) ?_ hP
    intro i m x phase access rows new _ hx _ hmove hwrites h
    exact h.step (hcalls.valid x (List.mem_of_getElem? hx)) hmove hwrites

-- When its Finalize and its updateCallFinal succeeded, a call has two rows, its
-- hold and its settlement, and they explain the costs in its record.
theorem conserved {labels : List Label} {s : System} (hrun : run labels = some s) {x : Session}
    (hx : x ∈ s.sessions) {w : ActiveCall} (hactive : x.phase = .active w) (hbilled : w.billed)
    (hpersisted : w.persisted) :
    (∃ hold account, s.rowsOf w.row.callID = [hold, (Billing.finalize (finalizeParams w.call) account).2] ∧
      hold.type = .pre_deduct ∧ hold.amount = w.row.preDeductAmount) ∧
    ((s.rowsOf w.row.callID).map Transaction.signed).sum = -w.row.totalCost ∧
    w.row.totalCost = w.row.aLegCost + w.row.bLegCost ∧
    (finalizeResponse (finalizeParams w.call)).refund = max 0 (w.row.preDeductAmount - w.row.totalCost) := by
  have hadmitted := ((calls_run hrun).valid x hx).admitted w hactive
  have hsettled : Settled (finalizeParams w.call) (s.rowsOf x.request.callID) := by
    have h := holdInv_run hrun x hx
    simp only [HoldInv, hactive] at h
    exact h.2 hbilled
  obtain ⟨hcallID, hamount⟩ := hadmitted.row
  obtain ⟨hcost, hlegs⟩ := hadmitted.costs hbilled hpersisted
  rw [hcallID, hamount, hcost]
  exact ⟨hsettled, hsettled.sum, hlegs, refund_eq_max _⟩

theorem conserved_rejected :
    ∃ s x w, run (admitted ++ rejected) = some s ∧ s.sessions = [x] ∧ x.phase = .active w ∧
      w.billed ∧ w.persisted ∧
      (∃ hold account, s.rowsOf w.row.callID = [hold, (Billing.finalize (finalizeParams w.call) account).2] ∧
        hold.type = .pre_deduct ∧ hold.amount = w.row.preDeductAmount) ∧
      ((s.rowsOf w.row.callID).map Transaction.signed).sum = -w.row.totalCost ∧
      w.row.totalCost = w.row.aLegCost + w.row.bLegCost ∧
      (finalizeResponse (finalizeParams w.call)).refund =
        max 0 (w.row.preDeductAmount - w.row.totalCost) := by
  refine ⟨_, _, _, rfl, rfl, rfl, by decide, by decide, ?_⟩
  exact @conserved (admitted ++ rejected) _ rfl _ (List.mem_singleton_self _) _ rfl (by decide) (by decide)

end Bos3000.Service
