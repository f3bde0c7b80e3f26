import Bos3000.Lib.GrowingPages
import Bos3000.Lib.Table

-- Queries that list rows of a table in the order of their keys.
namespace Table

variable {ρ κ : Type*} {key : ρ → κ}

-- SELECT ... WHERE ... ORDER BY key
def select [LE κ] [DecidableLE κ] (t : Table key) (condition : ρ → Bool) : List ρ :=
  (t.rows.filter condition).mergeSort fun a b => key a ≤ key b

section Listed

variable [LE κ] [DecidableLE κ] {t : Table key} {condition : ρ → Bool} {row : ρ}

theorem mem_select : row ∈ t.select condition ↔ row ∈ t.rows ∧ condition row = true := by
  rw [select, List.mem_mergeSort, List.mem_filter]

theorem length_select : (t.select condition).length = (t.rows.filter condition).length :=
  (List.mergeSort_perm _ _).length_eq

theorem select_ascending [LT κ] [Std.IsLinearOrder κ] [Std.LawfulOrderLT κ] :
    (t.select condition).Pairwise fun a b => key a < key b := by
  have hsorted : (t.select condition).Pairwise fun a b => decide (key a ≤ key b) = true := by
    refine List.pairwise_mergeSort ?_ ?_ _
    · intro a b c hab hbc
      simp only [decide_eq_true_eq] at hab hbc ⊢
      exact Std.le_trans hab hbc
    · intro a b
      simp only [Bool.or_eq_true, decide_eq_true_eq]
      exact Std.le_total
  have hdistinct : (t.select condition).Pairwise fun a b => key a ≠ key b := by
    have hkeys : ((t.rows.filter condition).map key).Nodup := t.distinct.sublist (List.filter_sublist.map key)
    exact List.pairwise_map.mp (((List.mergeSort_perm _ _).map key).nodup_iff.mpr hkeys)
  exact hsorted.imp₂ (fun a b hle hne => Std.lt_of_le_of_ne (of_decide_eq_true hle) hne) hdistinct

end Listed

end Table

namespace Paging

variable {ρ : Type*}

-- The pages of one list are the list.
theorem flatMap_pages {size : Nat} (hsize : 0 < size) (listed : List ρ) :
    ((List.range (pages listed.length size)).flatMap fun i => page size i listed) = listed := by
  have hfirst : ∀ n, ((List.range n).flatMap fun i => page size i listed) = listed.take (n * size) := by
    intro n
    induction n with
    | zero => simp
    | succ n ih => rw [List.range_succ, List.flatMap_append, ih, GrowingPages.take_next, List.flatMap_singleton]
  rw [hfirst]
  refine List.take_of_length_le ?_
  unfold pages
  have hmod := Nat.mod_lt (listed.length + size - 1) hsize
  have hdiv := Nat.div_add_mod' (listed.length + size - 1) size
  omega

end Paging
