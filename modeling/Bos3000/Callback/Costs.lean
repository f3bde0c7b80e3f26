import Bos3000.Callback.Frame

-- The durations and costs of a call: billed once, and persisted as billed.
namespace Bos3000.Callback

open Billing (FinalizeParams finalizeResponse)

structure Costs where
  aDurationMs : Int64
  bDurationMs : Int64
  aLegCost : Int64
  bLegCost : Int64
  totalCost : Int64
  deriving DecidableEq, Repr

def CallbackCall.costs (call : CallbackCall) : Costs :=
  ⟨call.aDurationMs, call.bDurationMs, call.aLegCost, call.bLegCost, call.totalCost⟩

-- billing.Finalize succeeded.
def ActiveCall.billed (w : ActiveCall) : Prop := .body .billingFinalize .ok ∈ w.log

-- updateCallFinal succeeded.
def ActiveCall.persisted (w : ActiveCall) : Prop := .body .updateCallFinal .ok ∈ w.log

instance (w : ActiveCall) : Decidable w.billed := inferInstanceAs (Decidable (_ ∈ _))

instance (w : ActiveCall) : Decidable w.persisted := inferInstanceAs (Decidable (_ ∈ _))

theorem finalizeParams_congr {c d : CallbackCall} (hfixed : c.fixed = d.fixed) (hcosts : c.costs = d.costs) :
    finalizeParams c = finalizeParams d := by
  simp only [CallbackCall.fixed, Fixed.mk.injEq] at hfixed
  simp only [CallbackCall.costs, Costs.mk.injEq] at hcosts
  simp only [finalizeParams, hfixed, hcosts]

@[simp] theorem onCall_costs (now : Time) (call : CallbackCall) (a : Action) :
    (a.onCall now call).costs = call.costs := by
  cases a with
  | assign a => cases a <;> rfl
  | _ => rfl

@[simp] theorem onRow_costs (row : CallbackCall) (a : Action) : (a.onRow row).costs = row.costs := by
  cases a <;> rfl

theorem recordWastage_costs (call : CallbackCall) (thresholdSec : Int64) :
    (recordWastage call thresholdSec).costs = call.costs := by
  unfold recordWastage
  split <;> rfl

theorem mergeRecording_costs (published : Bool) (call : CallbackCall) :
    (mergeRecording published call).costs = call.costs := by
  unfold mergeRecording
  split <;> rfl

-- The statements that write durations and costs.
theorem exec_costs {call row call' row' : CallbackCall} {body next : Body} {stmt : Stmt} {o : Outcome}
    (h : stmt.exec call row body o = some (call', row', next)) :
    (call'.costs = call.costs ∨ stmt = .aDuration ∨ stmt = .bDuration ∨
      stmt = .billingFinalize ∧ o = .ok ∧ call' = recordCosts call) ∧
    (row'.costs = row.costs ∧ (stmt = .updateCallFinal → o ≠ .ok) ∨
      stmt = .updateCallFinal ∧ o = .ok ∧ call' = call ∧ row'.costs = call.costs) := by
  revert h
  fun_cases Stmt.exec call row body stmt o <;> intro h <;> cases h <;>
    simp [recordWastage_costs, mergeRecording_costs]
  all_goals rfl

-- The order of the statements in the body.
def Stmt.index (stmt : Stmt) : Nat := finalizeBody.idxOf stmt

theorem executed_or_rest {executed rest : List Stmt} (hsplit : executed ++ rest = finalizeBody) (stmt : Stmt) :
    stmt ∈ executed ∨ stmt ∈ rest := by
  have hmem : stmt ∈ executed ++ rest := by
    rw [hsplit]
    cases stmt <;> decide
  exact List.mem_append.mp hmem

theorem index_lt_of_split {executed rest : List Stmt} (hsplit : executed ++ rest = finalizeBody) {earlier later : Stmt}
    (hearlier : earlier ∈ executed) (hlater : later ∈ rest) : earlier.index < later.index := by
  have hsorted : (executed ++ rest).Pairwise fun a b => a.index < b.index := by
    rw [hsplit]
    decide
  exact (List.pairwise_append.mp hsorted).2.2 earlier hearlier later hlater

theorem Settling.before {w : ActiveCall} (h : Settling w) {body : Body} {stmt earlier : Stmt}
    (hrunning : w.finalized = .running { body with todo := stmt :: body.todo })
    (hearlier : earlier ∈ w.executed) : earlier.index < stmt.index :=
  index_lt_of_split (h.split_running hrunning) hearlier (List.mem_cons_self ..)

theorem Settling.executed_of_lt {w : ActiveCall} (h : Settling w) {body : Body} {stmt earlier : Stmt}
    (hrunning : w.finalized = .running { body with todo := stmt :: body.todo })
    (hlt : earlier.index < stmt.index) : earlier ∈ w.executed := by
  have hsplit : (w.executed ++ [stmt]) ++ body.todo = finalizeBody := by
    rw [List.append_assoc]
    exact h.split_running hrunning
  rcases executed_or_rest hsplit earlier with hmem | hmem
  · rcases List.mem_append.mp hmem with hmem | hmem
    · exact hmem
    · rw [List.mem_singleton.mp hmem] at hlt
      exact absurd hlt (Nat.lt_irrefl _)
  · have hgt := index_lt_of_split hsplit (List.mem_append_right _ (List.mem_singleton_self stmt)) hmem
    omega

-- What comes before an executed statement was executed.
theorem Settling.executed_down {w : ActiveCall} (h : Settling w) {earlier later : Stmt}
    (hlater : later ∈ w.executed) (hlt : earlier.index < later.index) : earlier ∈ w.executed := by
  obtain ⟨rest, hrest⟩ := h.split
  rcases executed_or_rest hrest earlier with hmem | hmem
  · exact hmem
  · have hgt := index_lt_of_split hrest hlater hmem
    omega

theorem mem_executed_iff {w : ActiveCall} {stmt : Stmt} :
    stmt ∈ w.executed ↔ ∃ o, .body stmt o ∈ w.log := by
  simp only [ActiveCall.executed, List.mem_filterMap]
  constructor
  · rintro ⟨effect, hmem, heffect⟩
    cases effect <;> cases heffect
    exact ⟨_, hmem⟩
  · rintro ⟨o, hmem⟩
    exact ⟨_, hmem, rfl⟩

theorem mem_executed {w : ActiveCall} {stmt : Stmt} {o : Outcome} (h : .body stmt o ∈ w.log) :
    stmt ∈ w.executed :=
  mem_executed_iff.mpr ⟨o, h⟩

structure CostInv (w : ActiveCall) : Prop where
  costs : w.billed → w.call.costs = (recordCosts w.call).costs
  row : w.persisted → w.row.costs = w.call.costs

section Step

variable {w v : ActiveCall}

-- A step outside the body writes no cost and executes no statement of the body.
theorem step_costs {l : Label} (hl : ∀ o, l ≠ .body o) (hstep : w.step l = some v) :
    v.call.costs = w.call.costs ∧ v.row.costs = w.row.costs ∧
      ∀ stmt o, .body stmt o ∈ v.log ↔ .body stmt o ∈ w.log := by
  obtain ⟨i, rfl, hresume⟩ | ⟨now, ok, rfl, hexec⟩ | ⟨rfl, hfin⟩ | ⟨o, rfl, _⟩ | ⟨_, haside⟩ :=
    step_cases hstep
  · obtain ⟨_, _, _, _, _, _, _, rfl⟩ := resumeRun_eq_some hresume
    simp
  · obtain ⟨_, _, ⟨_, _, rfl⟩ | ⟨a, _, _, rfl⟩⟩ := execRun_eq_some hexec
    · simp
    · cases ok <;> simp
  · obtain ⟨_, _, rfl, _⟩ := finalizeRun_starts hfin
    simp
  · exact absurd rfl (hl o)
  · obtain ⟨_, _, hcall⟩ := haside.call
    obtain ⟨_, hlog⟩ := haside.log
    rw [hcall, haside.row, hlog]
    simp [CallbackCall.costs]

theorem recordCosts_congr {c d : CallbackCall} (hfixed : c.fixed = d.fixed) (hcosts : c.costs = d.costs) :
    (recordCosts c).costs = (recordCosts d).costs := by
  have hparams := finalizeParams_congr hfixed hcosts
  simp only [CallbackCall.costs, Costs.mk.injEq] at hcosts ⊢
  simp only [recordCosts, hparams, hcosts, and_self]

theorem CostInv.body (h : CostInv w) (hsettling : Settling w) {o : Outcome}
    (hstep : w.bodyStep o = some v) : CostInv v := by
  obtain ⟨stmt, body, call, row, next, hrunning, hexec, rfl⟩ := bodyStep_eq_some hstep
  obtain ⟨hcall, hrow⟩ := exec_costs hexec
  have hfixed := (exec_fixed hexec).1
  have hindex : ∀ earlier result, .body earlier result ∈ w.log → earlier.index < stmt.index :=
    fun _ _ hlog => hsettling.before hrunning (mem_executed hlog)
  constructor
  · intro hbilled
    simp only [ActiveCall.billed, List.mem_append, List.mem_singleton, Effect.body.injEq] at hbilled
    obtain hbilled | ⟨rfl, rfl⟩ := hbilled
    · -- the body is past its Finalize
      have hsame : call.costs = w.call.costs := by
        obtain hsame | rfl | rfl | ⟨rfl, _⟩ := hcall
        · exact hsame
        all_goals exact absurd (hindex _ _ hbilled) (by decide)
      rw [hsame, h.costs hbilled]
      exact recordCosts_congr hfixed.symm hsame.symm
    · obtain hsame | heq | heq | ⟨_, _, rfl⟩ := hcall
      · cases hexec
        rfl
      · cases heq
      · cases heq
      · rfl
  · intro hpersisted
    simp only [ActiveCall.persisted, List.mem_append, List.mem_singleton, Effect.body.injEq] at hpersisted
    obtain hpersisted | ⟨rfl, rfl⟩ := hpersisted
    · have hcosts : call.costs = w.call.costs := by
        obtain hsame | rfl | rfl | ⟨rfl, _⟩ := hcall
        · exact hsame
        all_goals exact absurd (hindex _ _ hpersisted) (by decide)
      obtain ⟨hsame, _⟩ | ⟨rfl, _⟩ := hrow
      · rw [hcosts, hsame]
        exact h.row hpersisted
      · exact absurd (hindex _ _ hpersisted) (by decide)
    · obtain ⟨_, hother⟩ | ⟨_, _, rfl, hwritten⟩ := hrow
      · exact absurd rfl (hother rfl)
      · exact hwritten

theorem CostInv.step (h : CostInv w) (hsettling : Settling w) {l : Label} (hstep : w.step l = some v) :
    CostInv v := by
  by_cases hl : ∃ o, l = .body o
  · obtain ⟨o, rfl⟩ := hl
    exact h.body hsettling hstep
  · obtain ⟨hcall, hrow, hlog⟩ := step_costs (fun o ho => hl ⟨o, ho⟩) hstep
    constructor
    · intro hbilled
      rw [hcall, h.costs ((hlog _ _).mp hbilled)]
      exact recordCosts_congr (step_fixed hstep).1.symm hcall.symm
    · intro hpersisted
      rw [hcall, hrow]
      exact h.row ((hlog _ _).mp hpersisted)

end Step

theorem costInv_run {call : CallbackCall} {labels : List Label} {w : ActiveCall}
    (hrun : Machine.run ActiveCall.step (.init call) labels = some w) : CostInv w := by
  have hboth : Settling w ∧ CostInv w := by
    refine Machine.invariant (P := fun w => Settling w ∧ CostInv w) ?_ ⟨settling_init call, ?_⟩ hrun
    · exact fun _ _ _ h hstep => ⟨h.1.step hstep, h.2.step h.1 hstep⟩
    · constructor <;> simp [ActiveCall.billed, ActiveCall.persisted, ActiveCall.init]
  exact hboth.2

end Bos3000.Callback
