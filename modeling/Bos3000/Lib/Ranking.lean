import Mathlib.Algebra.GroupWithZero.Nat
import Bos3000.Lib.Machine

-- Machines whose states have a rank, the work that is left: each step of their own
-- takes some of it, and each label from outside adds a bounded amount.
namespace Machine

variable {σ ι : Type*}

structure Ranked (step : σ → ι → Option σ) (own : ι → Bool) (P : σ → Prop) (rank : σ → Nat)
    (cost : Nat) : Prop where
  keeps : ∀ s label t, P s → step s label = some t → P t
  falls : ∀ s label t, P s → own label = true → step s label = some t → rank t < rank s
  grows : ∀ s label t, P s → own label = false → step s label = some t → rank t ≤ rank s + cost

-- Nothing is left that the machine can do on its own.
def Drained (step : σ → ι → Option σ) (own : ι → Bool) (s : σ) : Prop :=
  ∀ label, own label = true → step s label = none

variable {step : σ → ι → Option σ} {own : ι → Bool} {P : σ → Prop} {rank : σ → Nat} {cost : Nat}

theorem Drained.restrict {allowed : σ → ι → Bool} {s : σ} (h : Drained step own s) :
    Drained (restrict allowed step) own s := by
  intro label hown
  rw [Machine.restrict, h label hown, ite_self]

theorem Ranked.restrict (h : Ranked step own P rank cost) (allowed : σ → ι → Bool) :
    Ranked (restrict allowed step) own P rank cost where
  keeps s label t hs hstep := h.keeps s label t hs (restrict_eq_some.mp hstep).2
  falls s label t hs hown hstep := h.falls s label t hs hown (restrict_eq_some.mp hstep).2
  grows s label t hs hown hstep := h.grows s label t hs hown (restrict_eq_some.mp hstep).2

-- What the machine does on its own is paid for by its first state and by the labels
-- from outside.
theorem Ranked.count_le (h : Ranked step own P rank cost) {s t : σ} {labels : List ι} (hs : P s)
    (hrun : run step s labels = some t) :
    labels.countP own + rank t ≤ rank s + cost * labels.countP (fun label => !own label) := by
  have hboth : P t ∧ labels.countP own + rank t ≤ rank s + cost * labels.countP (fun label => !own label) := by
    refine run_induction (motive := fun labels t => P t ∧
      labels.countP own + rank t ≤ rank s + cost * labels.countP (fun label => !own label)) ⟨hs, by simp⟩ ?_ hrun
    rintro labels label middle t _ ⟨hmiddle, hle⟩ hstep
    refine ⟨h.keeps middle label t hmiddle hstep, ?_⟩
    rw [List.countP_append, List.countP_append]
    cases hown : own label with
    | true =>
        have hfalls := h.falls middle label t hmiddle hown hstep
        simp only [List.countP_singleton, hown, Bool.not_true, Bool.false_eq_true, if_true, if_false, Nat.add_zero]
        omega
    | false =>
        have hgrows := h.grows middle label t hmiddle hown hstep
        simp only [List.countP_singleton, hown, Bool.not_false, Bool.false_eq_true, if_true, if_false, Nat.mul_add]
        omega
  exact hboth.2

-- From any state the machine can go on until nothing is left.
theorem Ranked.reach_drained (h : Ranked step own P rank cost) {s : σ} (hs : P s) :
    ∃ labels t, (∀ label ∈ labels, own label = true) ∧ run step s labels = some t ∧ Drained step own t := by
  induction hrank : rank s using Nat.strongRecOn generalizing s with
  | ind n ih =>
      by_cases hdrained : Drained step own s
      · exact ⟨[], s, by simp, rfl, hdrained⟩
      · simp only [Drained, not_forall] at hdrained
        obtain ⟨label, hown, hstep⟩ := hdrained
        obtain ⟨next, hnext⟩ := Option.ne_none_iff_exists'.mp hstep
        have hlt : rank next < n := hrank ▸ h.falls s label next hs hown hnext
        obtain ⟨labels, t, hall, hrun, ht⟩ := ih (rank next) hlt (h.keeps s label next hs hnext) rfl
        refine ⟨label :: labels, t, ?_, ?_, ht⟩
        · simpa [hown] using hall
        · rw [run, hnext]
          exact hrun

-- The work of parts that stand in a list, when one of them is replaced.
theorem sum_set {α : Type*} (work : α → Nat) {parts : List α} {k : Nat} {part next : α}
    (h : parts[k]? = some part) :
    ((parts.set k next).map work).sum + work part = (parts.map work).sum + work next := by
  induction parts generalizing k with
  | nil => cases h
  | cons first rest ih =>
      cases k with
      | zero =>
          cases h
          simp only [List.set_cons_zero, List.map_cons, List.sum_cons]
          omega
      | succ k =>
          have hrest := ih h
          simp only [List.set_cons_succ, List.map_cons, List.sum_cons] at hrest ⊢
          omega

end Machine
