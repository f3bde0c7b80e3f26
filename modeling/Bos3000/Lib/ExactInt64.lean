import Mathlib.Algebra.Ring.Int.Defs
import Mathlib.Tactic.Common

-- Int64 arithmetic where nothing wraps around.
namespace ExactInt64

def Fits (n : Int) : Prop := -9223372036854775808 ≤ n ∧ n ≤ 9223372036854775807

instance (n : Int) : Decidable (Fits n) := inferInstanceAs (Decidable (_ ∧ _))

theorem Fits.bmod {n : Int} (h : Fits n) : n.bmod 18446744073709551616 = n := by
  obtain ⟨hlo, hhi⟩ := h
  exact Int.bmod_eq_of_le (by omega) (by omega)

theorem fits_toInt (x : Int64) : Fits x.toInt :=
  ⟨x.le_toInt, Int.le_of_lt_add_one x.toInt_lt⟩

variable {x y : Int64}

theorem pos_iff : 0 < x ↔ 0 < x.toInt := by
  rw [Int64.lt_iff_toInt_lt, Int64.toInt_zero]

theorem toInt_add (h : Fits (x.toInt + y.toInt)) : (x + y).toInt = x.toInt + y.toInt := by
  exact (Int64.toInt_add ..).trans h.bmod

theorem toInt_sub (h : Fits (x.toInt - y.toInt)) : (x - y).toInt = x.toInt - y.toInt := by
  exact (Int64.toInt_sub ..).trans h.bmod

theorem toInt_mul (h : Fits (x.toInt * y.toInt)) : (x * y).toInt = x.toInt * y.toInt := by
  exact (Int64.toInt_mul ..).trans h.bmod

theorem toInt_neg (h : Fits (-x.toInt)) : (-x).toInt = -x.toInt := by
  exact (Int64.toInt_neg ..).trans h.bmod

-- A sum that fits is exact even if its partial sums wrapped around.
theorem toInt_sum {all : List Int64} (h : Fits (all.map Int64.toInt).sum) :
    all.sum.toInt = (all.map Int64.toInt).sum := by
  have hbmod : all.sum.toInt = (all.map Int64.toInt).sum.bmod 18446744073709551616 := by
    clear h
    induction all with
    | nil => rfl
    | cons x rest ih =>
        have hadd : (x + rest.sum).toInt = (x.toInt + rest.sum.toInt).bmod 18446744073709551616 :=
          Int64.toInt_add ..
        rw [List.sum_cons, List.map_cons, List.sum_cons, hadd, ih, Int.add_bmod_bmod]
  rw [hbmod]
  exact h.bmod

theorem toInt_div (hx : 0 ≤ x.toInt) (hy : 0 < y.toInt) : (x / y).toInt = x.toInt / y.toInt := by
  have hne : y ≠ -1 := by
    rintro rfl
    exact absurd hy (by decide)
  rw [Int64.toInt_div_of_ne_right x y hne, Int.tdiv_eq_ediv_of_nonneg hx]

end ExactInt64
