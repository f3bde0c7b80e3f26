import Mathlib.Algebra.BigOperators.Ring.Finset
import Mathlib.Algebra.Order.BigOperators.Group.Finset
import Mathlib.Tactic.Linarith
import Mathlib.Tactic.Ring

-- Smooth weighted round robin. In each round every entry gains its weight, and
-- the entry with the greatest credit pays the total weight back.
namespace SmoothRoundRobin

variable {ι : Type*} [DecidableEq ι] (entries : Finset ι) (weight : ι → ℤ)

def total : ℤ := ∑ i ∈ entries, weight i

def round (credit : ι → ℤ) (best : ι) (i : ι) : ℤ :=
  credit i + weight i - if i = best then total entries weight else 0

-- `best` has the greatest credit once every entry has gained its weight.
def Greatest (credit : ι → ℤ) (best : ι) : Prop :=
  best ∈ entries ∧ ∀ i ∈ entries, credit i + weight i ≤ credit best + weight best

-- The credits after rounds that paid back at these entries, all starting with none.
def play : List ι → ι → ℤ
  | [] => 0
  | best :: earlier => round entries weight (play earlier) best

-- Every round paid back at an entry with the greatest credit; the last round is first.
def Smooth : List ι → Prop
  | [] => True
  | best :: earlier => Greatest entries weight (play entries weight earlier) best ∧ Smooth earlier

variable {entries weight}

-- A round moves credit between entries only.
theorem sum_round {credit : ι → ℤ} {best : ι} (hbest : best ∈ entries) :
    ∑ i ∈ entries, round entries weight credit best i = ∑ i ∈ entries, credit i := by
  simp only [round, Finset.sum_sub_distrib, Finset.sum_add_distrib, Finset.sum_ite_eq', hbest,
    if_true]
  unfold total
  ring

-- The entry that pays back had a positive credit, as the credits sum to the total.
omit [DecidableEq ι] in
theorem Greatest.pos {credit : ι → ℤ} {best : ι} (h : Greatest entries weight credit best)
    (hsum : ∑ i ∈ entries, credit i = 0) (htotal : 0 < total entries weight) :
    0 < credit best + weight best := by
  by_contra hnot
  have hle : ∑ i ∈ entries, (credit i + weight i) ≤ 0 := by
    apply Finset.sum_nonpos
    intro i hi
    have := h.2 i hi
    omega
  rw [Finset.sum_add_distrib, hsum, zero_add] at hle
  unfold total at htotal
  omega

variable {picks : List ι}

theorem play_eq (i : ι) :
    play entries weight picks i =
      picks.length * weight i - total entries weight * picks.count i := by
  induction picks with
  | nil => simp [play]
  | cons best earlier ih =>
      simp only [play, round, ih, List.length_cons, List.count_cons]
      by_cases hi : i = best
      · subst hi
        simp
        ring
      · have hne : (best == i) = false := beq_eq_false_iff_ne.mpr (Ne.symm hi)
        simp only [hi, hne]
        push_cast
        simp
        ring

theorem Smooth.sum_play (h : Smooth entries weight picks) :
    ∑ i ∈ entries, play entries weight picks i = 0 := by
  induction picks with
  | nil => simp [play]
  | cons best earlier ih =>
      obtain ⟨⟨hbest, _⟩, hearlier⟩ := h
      rw [play, sum_round hbest]
      exact ih hearlier

-- No entry ever owes a whole total.
theorem Smooth.neg_total_lt (h : Smooth entries weight picks) (hweight : ∀ i ∈ entries, 0 ≤ weight i)
    (htotal : 0 < total entries weight) {i : ι} (hi : i ∈ entries) :
    -total entries weight < play entries weight picks i := by
  induction picks generalizing i with
  | nil => simpa [play] using htotal
  | cons best earlier ih =>
      obtain ⟨hgreatest, hearlier⟩ := h
      have hcredit := ih hearlier hi
      have hgain := hweight i hi
      simp only [play, round]
      split
      · rename_i heq
        subst heq
        have hpos := hgreatest.pos hearlier.sum_play htotal
        omega
      · omega

-- What an entry has when it has gained its weight is at most a total for each entry,
-- as each of the others owes less than one.
theorem Smooth.play_add_le (h : Smooth entries weight picks) (hweight : ∀ i ∈ entries, 0 ≤ weight i)
    (htotal : 0 < total entries weight) {i : ι} (hi : i ∈ entries) :
    play entries weight picks i + weight i ≤ entries.card * total entries weight := by
  have hothers : (entries.erase i).card • -total entries weight ≤
      ∑ j ∈ entries.erase i, play entries weight picks j := by
    apply Finset.card_nsmul_le_sum
    intro j hj
    exact (h.neg_total_lt hweight htotal (Finset.mem_of_mem_erase hj)).le
  have hsum := Finset.add_sum_erase entries (play entries weight picks) hi
  have hshare : weight i ≤ total entries weight := Finset.single_le_sum hweight hi
  have hcard := Finset.card_erase_add_one hi
  rw [h.sum_play] at hsum
  rw [← hcard]
  simp only [nsmul_eq_mul, mul_neg] at hothers
  push_cast
  rw [add_mul, one_mul]
  omega

-- After any number of rounds an entry was chosen less than once more than its share.
theorem Smooth.count_lt (h : Smooth entries weight picks) (hweight : ∀ i ∈ entries, 0 ≤ weight i)
    (htotal : 0 < total entries weight) {i : ι} (hi : i ∈ entries) :
    total entries weight * picks.count i < picks.length * weight i + total entries weight := by
  have hcredit := h.neg_total_lt hweight htotal hi
  rw [play_eq] at hcredit
  omega

-- After whole turns the credits are even: each is a multiple of the total above
-- its negative, and they sum to zero.
theorem Smooth.play_eq_zero (h : Smooth entries weight picks) (hweight : ∀ i ∈ entries, 0 ≤ weight i)
    (htotal : 0 < total entries weight) {turns : ℕ}
    (hturns : (picks.length : ℤ) = turns * total entries weight) {i : ι} (hi : i ∈ entries) :
    play entries weight picks i = 0 := by
  have hnonneg : ∀ j ∈ entries, 0 ≤ play entries weight picks j := by
    intro j hj
    have hcredit := h.neg_total_lt hweight htotal hj
    have hmultiple : play entries weight picks j =
        total entries weight * (turns * weight j - picks.count j) := by
      rw [play_eq, hturns]
      ring
    rw [hmultiple] at hcredit ⊢
    have hfactor : -1 < (turns : ℤ) * weight j - picks.count j := by
      by_contra hle
      nlinarith
    exact mul_nonneg htotal.le (by omega)
  exact (Finset.sum_eq_zero_iff_of_nonneg hnonneg).mp h.sum_play i hi

theorem Smooth.count_eq (h : Smooth entries weight picks) (hweight : ∀ i ∈ entries, 0 ≤ weight i)
    (htotal : 0 < total entries weight) {turns : ℕ}
    (hturns : (picks.length : ℤ) = turns * total entries weight) {i : ι} (hi : i ∈ entries) :
    (picks.count i : ℤ) = turns * weight i := by
  have hzero := h.play_eq_zero hweight htotal hturns hi
  rw [play_eq, hturns] at hzero
  have hproduct : total entries weight * (turns * weight i - picks.count i) = 0 := by
    rw [← hzero]
    ring
  rcases mul_eq_zero.mp hproduct with h0 | h0
  · omega
  · omega

end SmoothRoundRobin
