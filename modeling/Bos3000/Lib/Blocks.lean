import Mathlib.Algebra.Order.Ring.Int
import Mathlib.Tactic.Common

-- Amounts rounded up to whole blocks, and what they cost.
namespace Blocks

variable {block per amount other rate rate' : Int}

-- The blocks that cover an amount.
def count (block amount : Int) : Int := (amount + block - 1) / block

theorem count_mul_add (hblock : 0 < block) (amount : Int) :
    ∃ spare, 0 ≤ spare ∧ spare < block ∧ count block amount * block = amount + spare := by
  have hdiv := Int.mul_ediv_add_emod (amount + block - 1) block
  have hnonneg := Int.emod_nonneg (amount + block - 1) (by omega : block ≠ 0)
  have hlt := Int.emod_lt_of_pos (amount + block - 1) hblock
  refine ⟨block - 1 - (amount + block - 1) % block, by omega, by omega, ?_⟩
  rw [count, Int.mul_comm]
  omega

theorem le_count_mul (hblock : 0 < block) (amount : Int) : amount ≤ count block amount * block := by
  obtain ⟨spare, hnonneg, _, heq⟩ := count_mul_add hblock amount
  omega

theorem count_mul_lt (hblock : 0 < block) (amount : Int) : count block amount * block < amount + block := by
  obtain ⟨spare, _, hlt, heq⟩ := count_mul_add hblock amount
  omega

theorem count_mono (hblock : 0 < block) (h : amount ≤ other) : count block amount ≤ count block other := by
  unfold count
  exact Int.ediv_le_ediv hblock (by omega)

theorem count_nonneg (hblock : 0 < block) (h : 0 ≤ amount) : 0 ≤ count block amount := by
  unfold count
  exact Int.ediv_nonneg (by omega) (by omega)

-- Cut down to whole units first, an amount is still covered by its blocks unless
-- what was cut off is all that reached past the last block.
theorem le_count_units_iff {unit : Int} (hblock : 0 < block) (hunit : 0 < unit) :
    amount ≤ count block (amount / unit) * (block * unit) ↔ amount % unit = 0 ∨ amount / unit % block ≠ 0 := by
  have hamount := Int.mul_ediv_add_emod amount unit
  have hnonneg := Int.emod_nonneg amount (by omega : unit ≠ 0)
  have hlt := Int.emod_lt_of_pos amount hunit
  obtain ⟨spare, hspare, hless, hcount⟩ := count_mul_add hblock (amount / unit)
  have hwhole : spare = 0 ↔ amount / unit % block = 0 := by
    have hdvd : block ∣ amount / unit + spare := ⟨count block (amount / unit), by rw [← hcount, Int.mul_comm]⟩
    constructor
    · rintro rfl
      exact Int.emod_eq_zero_of_dvd (by rwa [Int.add_zero] at hdvd)
    · intro hzero
      have hdvd : block ∣ spare := (Int.dvd_add_right (Int.dvd_of_emod_eq_zero hzero)).mp hdvd
      exact Int.eq_zero_of_dvd_of_nonneg_of_lt hspare hless hdvd
  have hsum : count block (amount / unit) * (block * unit) = unit * (amount / unit) + spare * unit := by
    rw [← Int.mul_assoc, hcount, Int.add_mul, Int.mul_comm (amount / unit)]
  rw [hsum, ne_eq, ← hwhole]
  by_cases hzero : spare = 0
  · rw [hzero, Int.zero_mul]
    omega
  · have hpast : 1 * unit ≤ spare * unit := Int.mul_le_mul_of_nonneg_right (by omega) (Int.le_of_lt hunit)
    simp only [hzero, not_false_iff, or_true, iff_true]
    omega

-- An amount of whole blocks is not rounded.
theorem count_mul (hblock : 0 < block) (n : Int) : count block (n * block) = n := by
  have hle := le_count_mul hblock (n * block)
  have hlt := count_mul_lt hblock (n * block)
  have hlower : n ≤ count block (n * block) := Int.le_of_mul_le_mul_right hle hblock
  have hupper : count block (n * block) < n + 1 := by
    refine Int.lt_of_mul_lt_mul_right ?_ (Int.le_of_lt hblock)
    rw [Int.add_mul, Int.one_mul]
    exact hlt
  omega

-- The cost of an amount in whole blocks, at a rate for `per` units, rounded down.
def cost (block per amount rate : Int) : Int :=
  if 0 < amount then count block amount * block * rate / per else 0

theorem cost_nonneg (hblock : 0 < block) (hper : 0 ≤ per)
    (hrate : 0 ≤ rate) : 0 ≤ cost block per amount rate := by
  unfold cost
  split
  · rename_i hpos
    have hcount := count_nonneg hblock (Int.le_of_lt hpos)
    exact Int.ediv_nonneg (Int.mul_nonneg (Int.mul_nonneg hcount (Int.le_of_lt hblock)) hrate) hper
  · exact Int.le_refl 0

-- More blocks at a higher rate cost more.
theorem mul_rate_mono (hblock : 0 < block) (hamount : 0 ≤ amount) (h : amount ≤ other) (hrate : 0 ≤ rate)
    (hrates : rate ≤ rate') : count block amount * block * rate ≤ count block other * block * rate' := by
  have hcount := Int.mul_le_mul_of_nonneg_right (count_mono hblock h) (Int.le_of_lt hblock)
  have hblocks : 0 ≤ count block other * block :=
    Int.mul_nonneg (count_nonneg hblock (Int.le_trans hamount h)) (Int.le_of_lt hblock)
  calc
    count block amount * block * rate ≤ count block other * block * rate :=
      Int.mul_le_mul_of_nonneg_right hcount hrate
    _ ≤ count block other * block * rate' := Int.mul_le_mul_of_nonneg_left hrates hblocks

theorem cost_mono (hblock : 0 < block) (hper : 0 < per) (h : amount ≤ other) (hrate : 0 ≤ rate)
    (hrates : rate ≤ rate') : cost block per amount rate ≤ cost block per other rate' := by
  by_cases hpos : 0 < amount
  · simp only [cost, hpos, Int.lt_of_lt_of_le hpos h, if_true]
    exact Int.ediv_le_ediv hper (mul_rate_mono hblock (Int.le_of_lt hpos) h hrate hrates)
  · rw [cost, if_neg hpos]
    exact cost_nonneg hblock (Int.le_of_lt hper) (Int.le_trans hrate hrates)

-- Whole blocks that are whole units cost their rate exactly.
theorem cost_whole (hblock : 0 < block) (hper : 0 < per) {n units : Int} (hamount : amount = n * block)
    (hunits : amount = units * per) (hpos : 0 < amount) : cost block per amount rate = units * rate := by
  have hcount : count block amount = n := by rw [hamount, count_mul hblock]
  rw [cost, if_pos hpos, hcount, ← hamount, hunits, Int.mul_right_comm, Int.mul_ediv_cancel _ (by omega)]

end Blocks
