import Bos3000.Callback.Costs

-- What finalizeCall works out of a call. No other goroutine writes it.
namespace Bos3000.Callback

structure Results where
  costs : Costs
  bridgeDurationMs : Int64
  wastageType : Option WastageType
  wastageCost : Option Int64
  wastageDurationMs : Option Int64
  deriving DecidableEq, Repr

def CallbackCall.results (call : CallbackCall) : Results :=
  ⟨call.costs, call.bridgeDurationMs, call.wastageType, call.wastageCost, call.wastageDurationMs⟩

-- The columns as insertCall leaves them.
def Results.none : Results := ⟨⟨0, 0, 0, 0, 0⟩, 0, .none, .none, .none⟩

-- The statements of the body that work something out.
def Stmt.computes : Stmt → Bool
  | .aDuration | .bDuration | .bridgeDuration | .wastage | .billingFinalize => true
  | _ => false

@[simp] theorem onCall_results (now : Time) (call : CallbackCall) (a : Action) :
    (a.onCall now call).results = call.results := by
  cases a with
  | assign a => cases a <;> rfl
  | _ => rfl

@[simp] theorem onRow_results (row : CallbackCall) (a : Action) : (a.onRow row).results = row.results := by
  cases a <;> rfl

theorem mergeRecording_results (published : Bool) (call : CallbackCall) :
    (mergeRecording published call).results = call.results := by
  unfold mergeRecording
  split <;> rfl

theorem exec_results {call row call' row' : CallbackCall} {body next : Body} {stmt : Stmt} {o : Outcome}
    (h : stmt.exec call row body o = some (call', row', next)) :
    (stmt.computes = false → call'.results = call.results) ∧
    (row' = row ∧ (stmt = .updateCallFinal → o = .fault) ∨
      stmt = .updateCallFinal ∧ o = .ok ∧ call' = call ∧ row' = updateCallFinal call row) := by
  revert h
  fun_cases Stmt.exec call row body stmt o <;> intro h <;> cases h <;>
    simp [Stmt.computes, mergeRecording_results]
  rfl

section Step

variable {w v : ActiveCall}

theorem step_results {l : Label} (hl : ∀ o, l ≠ .body o) (hstep : w.step l = some v) :
    v.call.results = w.call.results ∧ v.row.results = w.row.results :=
  step_keeps onCall_results onRow_results (fun _ _ _ => rfl) hl hstep

-- Nothing is worked out before the body runs.
theorem results_run {call : CallbackCall} {labels : List Label}
    (hrun : Machine.run ActiveCall.step (.init call) labels = some w) (hnone : w.executed = []) :
    w.call.results = call.results := by
  have hinv : w.executed = [] → w.call.results = call.results := by
    refine Machine.invariant (P := fun w => w.executed = [] → w.call.results = call.results) ?_ (fun _ => rfl) hrun
    intro w l v h hstep hnone
    by_cases hl : ∃ o, l = .body o
    · obtain ⟨o, rfl⟩ := hl
      obtain ⟨_, _, _, _, _, hrunning, _⟩ := bodyStep_eq_some hstep
      simp [bodyStep_executed hstep hrunning] at hnone
    · have hl : ∀ o, l ≠ .body o := fun o ho => hl ⟨o, ho⟩
      rw [step_executed hl hstep] at hnone
      exact (step_results hl hstep).1.trans (h hnone)
  exact hinv hnone

end Step

end Bos3000.Callback
