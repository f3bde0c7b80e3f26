import Bos3000.Lib.SmoothRoundRobin

-- Smooth weighted round robin in which the entries that take part change from round
-- to round. An entry that sits a round out keeps its credit.
namespace SmoothRoundRobin

variable {ι : Type*} [DecidableEq ι]

def roundOf (present : Finset ι) (weight credit : ι → ℤ) (best i : ι) : ℤ :=
  credit i + (if i ∈ present then weight i else 0) - if i = best then total present weight else 0

-- Any k of n entries together have at most k (n - k) times the bound.
def Within (entries : Finset ι) (bound : ℤ) (credit : ι → ℤ) : Prop :=
  ∀ part ⊆ entries, ∑ i ∈ part, credit i ≤ bound * (part.card * (entries.card - part.card))

variable {entries present part : Finset ι} {weight credit : ι → ℤ} {best : ι} {bound : ℤ}

theorem sum_roundOf : ∑ i ∈ part, roundOf present weight credit best i =
    ∑ i ∈ part, credit i + ∑ i ∈ part ∩ present, weight i -
      if best ∈ part then total present weight else 0 := by
  simp only [roundOf, Finset.sum_sub_distrib, Finset.sum_add_distrib, Finset.sum_ite_eq',
    Finset.sum_ite_mem]

-- Entries that all gained at most what the best one has are bounded by it, and so
-- are those next to which it leaves little for the others. Between the two bounds
-- lies the one for any part that the best entry is not in.
theorem le_of_two_bounds {x greatest : ℤ} {k j n : ℤ} (hbound : 0 ≤ bound) (hj : 0 ≤ j)
    (hfirst : x ≤ bound * ((k - j) * (n - (k - j))) + j * greatest)
    (hsecond : x ≤ bound * ((k + 1) * (n - (k + 1))) + bound - greatest) :
    x ≤ bound * (k * (n - k)) := by
  have hscaled := mul_le_mul_of_nonneg_left hsecond hj
  have hslack : 0 ≤ bound * (j * j) := mul_nonneg hbound (mul_nonneg hj hj)
  have hsum : (1 + j) * x ≤ (1 + j) * (bound * (k * (n - k))) := by
    calc
      (1 + j) * x = x + j * x := by ring
      _ ≤ bound * ((k - j) * (n - (k - j))) + j * greatest +
          j * (bound * ((k + 1) * (n - (k + 1))) + bound - greatest) := add_le_add hfirst hscaled
      _ = (1 + j) * (bound * (k * (n - k))) - bound * (j * j) := by ring
      _ ≤ (1 + j) * (bound * (k * (n - k))) := by omega
  exact le_of_mul_le_mul_left hsum (by omega)

omit [DecidableEq ι] in
theorem sum_weight_le (hweight : ∀ i ∈ present, 0 ≤ weight i) (hpart : part ⊆ present) :
    ∑ i ∈ part, weight i ≤ total present weight :=
  Finset.sum_le_sum_of_subset_of_nonneg hpart fun i hi _ => hweight i hi

-- A round keeps the credits within their bounds, whoever takes part in it.
theorem Within.roundOf (h : Within entries bound credit) (hpresent : present ⊆ entries)
    (hweight : ∀ i ∈ present, 0 ≤ weight i) (htotal : total present weight ≤ bound)
    (hbest : Greatest present weight credit best) :
    Within entries bound (roundOf present weight credit best) := by
  intro part hpart
  rw [sum_roundOf]
  by_cases hmem : best ∈ part
  · rw [if_pos hmem]
    have hgain := sum_weight_le hweight (Finset.inter_subset_right : part ∩ present ⊆ present)
    have hbefore := h part hpart
    omega
  · rw [if_neg hmem, sub_zero]
    have hnonneg : 0 ≤ bound := le_trans (Finset.sum_nonneg hweight) htotal
    have hnot : best ∉ part ∩ present := fun hboth => hmem (Finset.mem_inter.mp hboth).1
    have hjoinedCard : (0 : ℤ) ≤ (part ∩ present).card := Int.natCast_nonneg _
    have hfirst : ∑ i ∈ part, credit i + ∑ i ∈ part ∩ present, weight i ≤
        bound * ((part.card - (part ∩ present).card) *
          (entries.card - (part.card - (part ∩ present).card))) +
            (part ∩ present).card * (credit best + weight best) := by
      -- what takes part has at most the greatest credit each
      have hjoined : ∑ i ∈ part ∩ present, (credit i + weight i) ≤
          (part ∩ present).card • (credit best + weight best) :=
        Finset.sum_le_card_nsmul _ _ _ fun i hi => hbest.2 i (Finset.mem_inter.mp hi).2
      have hrest := h (part \ present) (Finset.sdiff_subset.trans hpart)
      have hcard : ((part \ present).card : ℤ) = part.card - (part ∩ present).card := by
        have := Finset.card_sdiff_add_card_inter part present
        omega
      have hsplit := Finset.sum_inter_add_sum_sdiff part present credit
      rw [hcard] at hrest
      rw [Finset.sum_add_distrib, nsmul_eq_mul] at hjoined
      omega
    have hsecond : ∑ i ∈ part, credit i + ∑ i ∈ part ∩ present, weight i ≤
        bound * ((part.card + 1) * (entries.card - (part.card + 1))) + bound -
          (credit best + weight best) := by
      -- with the best entry the part has less than one bound more to gain
      have hinsert := h (insert best part) (Finset.insert_subset (hpresent hbest.1) hpart)
      rw [Finset.sum_insert hmem, Finset.card_insert_of_notMem hmem] at hinsert
      have hgain := sum_weight_le hweight
        (Finset.insert_subset hbest.1 (Finset.inter_subset_right : part ∩ present ⊆ present))
      rw [Finset.sum_insert hnot] at hgain
      push_cast at hinsert
      omega
    exact le_of_two_bounds hnonneg hjoinedCard hfirst hsecond

omit [DecidableEq ι] in
theorem within_zero (hbound : 0 ≤ bound) : Within entries bound fun _ => 0 := by
  intro part hpart
  have hcard := Finset.card_le_card hpart
  rw [Finset.sum_const_zero]
  exact mul_nonneg hbound (mul_nonneg (Int.natCast_nonneg _) (by omega))

omit [DecidableEq ι] in
theorem Within.le {i : ι} (h : Within entries bound credit) (hi : i ∈ entries) :
    credit i ≤ bound * (entries.card - 1) := by
  have hone := h {i} (Finset.singleton_subset_iff.mpr hi)
  simpa using hone

-- The others together have at most what one entry may owe.
theorem Within.ge {i : ι} (h : Within entries bound credit) (hsum : ∑ i ∈ entries, credit i = 0)
    (hi : i ∈ entries) : -(bound * (entries.card - 1)) ≤ credit i := by
  have hothers := h (entries.erase i) (Finset.erase_subset _ _)
  have hsplit := Finset.add_sum_erase entries credit hi
  have hcard : ((entries.erase i).card : ℤ) = entries.card - 1 := by
    have := Finset.card_erase_add_one hi
    omega
  have hone : (entries.card : ℤ) - (entries.card - 1) = 1 := by ring
  rw [hcard, hone, mul_one] at hothers
  omega

theorem sum_roundOf_entries (hpresent : present ⊆ entries) (hbest : best ∈ present) :
    ∑ i ∈ entries, roundOf present weight credit best i = ∑ i ∈ entries, credit i := by
  rw [sum_roundOf, if_pos (hpresent hbest), Finset.inter_eq_right.mpr hpresent]
  unfold total
  ring

end SmoothRoundRobin
