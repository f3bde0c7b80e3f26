import Mathlib.Algebra.Ring.Int.Defs
import Mathlib.Algebra.BigOperators.Group.List.Basic
import Mathlib.Tactic.Common

-- Requests for parts of a budget, served in order: a request is granted where
-- what is left covers it.
namespace Budget

def granted (left : Int) : List Int → List Int
  | [] => []
  | amount :: rest =>
      if amount ≤ left then amount :: granted (left - amount) rest else granted left rest

variable {left : Int} {amounts : List Int}

-- An overdrawn budget grants nothing.
theorem granted_eq_nil (hpos : ∀ amount ∈ amounts, 0 < amount) (hleft : left < 0) :
    granted left amounts = [] := by
  induction amounts with
  | nil => rfl
  | cons amount rest ih =>
      obtain ⟨hamount, hrest⟩ := List.forall_mem_cons.mp hpos
      rw [granted, if_neg (by omega)]
      exact ih hrest

theorem sum_granted_le_of_nonneg (hleft : 0 ≤ left) : (granted left amounts).sum ≤ left := by
  induction amounts generalizing left with
  | nil => simpa [granted] using hleft
  | cons amount rest ih =>
      unfold granted
      split
      · rename_i hcovers
        have hrest : (granted (left - amount) rest).sum ≤ left - amount := ih (by omega)
        rw [List.sum_cons]
        omega
      · exact ih hleft

-- The granted amounts stay within the budget, if there are any.
theorem sum_granted_le (hpos : ∀ amount ∈ amounts, 0 < amount) (hany : granted left amounts ≠ []) :
    (granted left amounts).sum ≤ left := by
  refine sum_granted_le_of_nonneg ?_
  by_contra hneg
  exact hany (granted_eq_nil hpos (by omega))

-- Requests for one amount are granted until it no longer fits.
theorem length_granted_replicate {m : Int} (hm : 0 < m) (left : Int) (n : Nat) :
    ((granted left (List.replicate n m)).length : Int) = min (n : Int) (max 0 (left / m)) := by
  induction n generalizing left with
  | zero =>
      change (0 : Int) = min 0 _
      omega
  | succ n ih =>
      rw [List.replicate_succ, granted]
      split
      · rename_i hcovers
        have hone : 1 ≤ left / m := (Int.le_ediv_iff_mul_le hm).mpr (by omega)
        have hless : (left - m) / m = left / m - 1 := by
          have hsub : left - m = left + -1 * m := by omega
          rw [hsub, Int.add_mul_ediv_right _ _ (by omega)]
          rfl
        rw [List.length_cons, Int.natCast_add, ih, hless]
        omega
      · rename_i hcovers
        have hzero : left / m < 1 := (Int.ediv_lt_iff_lt_mul hm).mpr (by omega)
        rw [ih]
        omega

end Budget
