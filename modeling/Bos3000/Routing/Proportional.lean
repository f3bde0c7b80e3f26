import Bos3000.Routing.RoundRobin

-- Consecutive picks among gateways that do not change return each of them in
-- proportion to its weight.
namespace Bos3000.Routing

open ExactInt64 (Fits)
open SmoothRoundRobin (Greatest Smooth play)

-- n consecutive calls of PickALeg.
def pickMany : Nat → List WeightedGateway → Except APIError (List PickALegResponse × List WeightedGateway)
  | 0, gateways => .ok ([], gateways)
  | n + 1, gateways => do
      let (responses, gateways) ← pickMany n gateways
      let (response, gateways) ← pickALeg gateways
      return (responses ++ [response], gateways)

-- The sum of the weights of the candidates.
def weightSum (gateways : List WeightedGateway) : Int :=
  ((gateways.filter WeightedGateway.isCandidate).map fun gw => gw.weight.toInt).sum

-- None of the additions of a pick wraps around.
def NoOverflow (gateways : List WeightedGateway) : Prop :=
  Fits (weightSum gateways) ∧
    ∀ gw ∈ gateways, gw.isCandidate = true → Fits (gw.currentWeight.toInt + gw.weight.toInt)

instance (gateways : List WeightedGateway) : Decidable (NoOverflow gateways) :=
  inferInstanceAs (Decidable (_ ∧ _))

theorem toInt_totalWeight {gateways : List WeightedGateway} (h : Fits (weightSum gateways)) :
    (totalWeight gateways).toInt = weightSum gateways := by
  have hmap : weightSum gateways =
      (((gateways.filter WeightedGateway.isCandidate).map WeightedGateway.weight).map Int64.toInt).sum := by
    rw [List.map_map]
    rfl
  rw [hmap] at h ⊢
  exact ExactInt64.toInt_sum h

-- The places of the candidates and the weights at all places.
def candidates (gateways : List WeightedGateway) : Finset ℕ :=
  (Finset.range gateways.length).filter fun i => gateways[i]?.any WeightedGateway.isCandidate

def weightAt (gateways : List WeightedGateway) (i : ℕ) : ℤ :=
  (gateways[i]?.map fun gw => gw.weight.toInt).getD 0

theorem mem_candidates {gateways : List WeightedGateway} {i : ℕ} :
    i ∈ candidates gateways ↔ ∃ gw, gateways[i]? = some gw ∧ gw.isCandidate = true := by
  simp only [candidates, Finset.mem_filter, Finset.mem_range, Option.any_eq_true]
  constructor
  · exact And.right
  · rintro ⟨gw, hgw, hcandidate⟩
    exact ⟨(List.getElem?_eq_some_iff.mp hgw).1, gw, hgw, hcandidate⟩

theorem weightAt_eq {gateways : List WeightedGateway} {i : ℕ} {gw : WeightedGateway}
    (h : gateways[i]? = some gw) : weightAt gateways i = gw.weight.toInt := by
  simp [weightAt, h]

theorem weightSum_eq_total (gateways : List WeightedGateway) :
    weightSum gateways = SmoothRoundRobin.total (candidates gateways) (weightAt gateways) := by
  unfold SmoothRoundRobin.total candidates weightSum
  rw [Finset.sum_filter]
  induction gateways with
  | nil => simp
  | cons gw rest ih =>
      rw [List.length_cons, Finset.sum_range_succ']
      simp only [List.getElem?_cons_succ, List.getElem?_cons_zero, Option.any_some]
      have hrest : ∀ i, weightAt (gw :: rest) (i + 1) = weightAt rest i := fun i => rfl
      simp only [hrest, ← ih, weightAt_eq (show (gw :: rest)[0]? = some gw from rfl)]
      by_cases hcandidate : gw.isCandidate = true <;> simp [hcandidate]
      ring

def WeightedGateway.withCredit (gw : WeightedGateway) (credit : Int64) : WeightedGateway :=
  { gw with currentWeight := credit }

section Credit

variable (gw : WeightedGateway) (credit total : Int64)

@[simp] theorem isCandidate_withCredit : (gw.withCredit credit).isCandidate = gw.isCandidate := rfl

@[simp] theorem weight_withCredit : (gw.withCredit credit).weight = gw.weight := rfl

@[simp] theorem currentWeight_withCredit : (gw.withCredit credit).currentWeight = credit := rfl

@[simp] theorem response_withCredit : (gw.withCredit credit).response = gw.response := rfl

@[simp] theorem payBack_withCredit :
    (gw.withCredit credit).payBack total = gw.withCredit (credit - total) := rfl

variable {gw}

theorem gain_candidate (h : gw.isCandidate = true) :
    (gw.withCredit credit).gain = gw.withCredit (credit + gw.weight) := by
  rw [WeightedGateway.gain, isCandidate_withCredit, if_pos h]
  rfl

theorem gain_other (h : gw.isCandidate = false) : (gw.withCredit credit).gain = gw.withCredit credit := by
  rw [WeightedGateway.gain, isCandidate_withCredit, if_neg (by simp [h])]

end Credit

section Picks

variable {start : List WeightedGateway}

-- The gateways after picks at these places, the last one first.
structure Tracks (start gateways : List WeightedGateway) (picks : List ℕ) : Prop where
  smooth : Smooth (candidates start) (weightAt start) picks
  length : gateways.length = start.length
  gateway : ∀ i gw, start[i]? = some gw → ∃ credit, gateways[i]? = some (gw.withCredit credit) ∧
    (gw.isCandidate = true → credit.toInt = play (candidates start) (weightAt start) picks i) ∧
    (gw.isCandidate = false → credit = gw.currentWeight)

variable {gateways : List WeightedGateway} {picks : List ℕ}

-- The gateways that a pick sees differ from the first ones in their credits.
theorem Tracks.start_of (h : Tracks start gateways picks) {i : ℕ} {gw : WeightedGateway}
    (hgw : gateways[i]? = some gw) :
    ∃ first credit, start[i]? = some first ∧ gw = first.withCredit credit ∧
      (first.isCandidate = true → credit.toInt = play (candidates start) (weightAt start) picks i) := by
  have hi : i < start.length := by
    rw [← h.length]
    exact (List.getElem?_eq_some_iff.mp hgw).1
  obtain ⟨credit, hcredit, hcandidate, _⟩ := h.gateway i start[i] (List.getElem?_eq_getElem hi)
  rw [hgw] at hcredit
  cases hcredit
  exact ⟨start[i], credit, List.getElem?_eq_getElem hi, rfl, hcandidate⟩

theorem Tracks.weightSum_eq (h : Tracks start gateways picks) : weightSum gateways = weightSum start := by
  have hcandidates : candidates gateways = candidates start := by
    ext i
    rw [mem_candidates, mem_candidates]
    constructor
    · rintro ⟨gw, hgw, hcandidate⟩
      obtain ⟨first, credit, hfirst, rfl, _⟩ := h.start_of hgw
      exact ⟨first, hfirst, hcandidate⟩
    · rintro ⟨gw, hgw, hcandidate⟩
      obtain ⟨credit, hcredit, _⟩ := h.gateway i gw hgw
      exact ⟨_, hcredit, hcandidate⟩
  have hweights : weightAt gateways = weightAt start := by
    funext i
    cases hgw : start[i]? with
    | none =>
        have hlength : gateways.length ≤ i := by
          rw [h.length]
          exact List.getElem?_eq_none_iff.mp hgw
        simp [weightAt, hgw, List.getElem?_eq_none hlength]
    | some gw =>
        obtain ⟨credit, hcredit, _⟩ := h.gateway i gw hgw
        rw [weightAt_eq hgw, weightAt_eq hcredit, weight_withCredit]
  rw [weightSum_eq_total, weightSum_eq_total, hcandidates, hweights]

-- What a candidate gains in a pick that does not overflow.
theorem Tracks.gained (h : Tracks start gateways picks) (hfits : NoOverflow gateways) {i : ℕ}
    {gw : WeightedGateway} (hgw : start[i]? = some gw) (hcandidate : gw.isCandidate = true) :
    ∃ credit, gateways[i]? = some (gw.withCredit credit) ∧
      (credit + gw.weight).toInt =
        play (candidates start) (weightAt start) picks i + weightAt start i ∧
      Fits (play (candidates start) (weightAt start) picks i + weightAt start i) := by
  obtain ⟨credit, hcredit, hplay, _⟩ := h.gateway i gw hgw
  have hsum := hfits.2 _ (List.mem_of_getElem? hcredit) hcandidate
  rw [currentWeight_withCredit, weight_withCredit] at hsum
  rw [weightAt_eq hgw, ← hplay hcandidate]
  exact ⟨credit, hcredit, ExactInt64.toInt_add hsum, hsum⟩

-- The candidate that PickALeg returns is one that smooth round robin may choose.
theorem Tracks.greatest (h : Tracks start gateways picks) (hfits : NoOverflow gateways) {place : ℕ}
    {gw : WeightedGateway} (hplace : gateways[place]? = some gw) (hcandidate : gw.isCandidate = true)
    (hgreatest : ∀ other ∈ gateways, other.isCandidate = true →
      other.gain.currentWeight ≤ gw.gain.currentWeight) :
    Greatest (candidates start) (weightAt start) (play (candidates start) (weightAt start) picks) place := by
  obtain ⟨first, _, hfirst, rfl, _⟩ := h.start_of hplace
  refine ⟨mem_candidates.mpr ⟨first, hfirst, hcandidate⟩, ?_⟩
  intro i hi
  obtain ⟨other, hother, hother'⟩ := mem_candidates.mp hi
  obtain ⟨credit, hsome, hgained, _⟩ := h.gained hfits hother hother'
  obtain ⟨paid, hpaid, hbest, _⟩ := h.gained hfits hfirst hcandidate
  rw [hplace] at hpaid
  cases hpaid
  have hfirst' : first.isCandidate = true := hcandidate
  have hle := hgreatest _ (List.mem_of_getElem? hsome) hother'
  rw [gain_candidate _ hother', gain_candidate _ hfirst', currentWeight_withCredit, currentWeight_withCredit,
    Int64.le_iff_toInt_le, hgained, hbest] at hle
  exact hle

-- What remains to the best candidate when it has paid back, which does not overflow
-- because its gain is positive.
theorem Tracks.paid (h : Tracks start gateways picks) (hfits : NoOverflow gateways)
    (htotal : 0 < weightSum start) {place : ℕ}
    (hbest : Greatest (candidates start) (weightAt start) (play (candidates start) (weightAt start) picks) place)
    {gain : Int64}
    (hgained : gain.toInt = play (candidates start) (weightAt start) picks place + weightAt start place)
    (hbound : Fits (play (candidates start) (weightAt start) picks place + weightAt start place)) :
    (gain - totalWeight gateways).toInt =
      play (candidates start) (weightAt start) (place :: picks) place := by
  have hpos := hbest.pos h.smooth.sum_play (by rw [← weightSum_eq_total]; exact htotal)
  have htotalWeight : (totalWeight gateways).toInt = weightSum start := by
    rw [toInt_totalWeight hfits.1, h.weightSum_eq]
  have htotalFits : Fits (weightSum start) := by
    rw [← h.weightSum_eq]
    exact hfits.1
  have hpaid : (gain - totalWeight gateways).toInt = gain.toInt - (totalWeight gateways).toInt := by
    apply ExactInt64.toInt_sub
    rw [hgained, htotalWeight]
    unfold Fits at hbound htotalFits ⊢
    omega
  rw [hpaid, hgained, htotalWeight, weightSum_eq_total]
  simp [play, SmoothRoundRobin.round]

theorem Tracks.pick (h : Tracks start gateways picks) (hfits : NoOverflow gateways)
    (htotal : 0 < weightSum start) :
    ∃ place gw after, start[place]? = some gw ∧ pickALeg gateways = .ok (gw.response, after) ∧
      Tracks start after (place :: picks) := by
  obtain ⟨_, hnone⟩ | ⟨place, gw, hplace, hcandidate, hgreatest, hpick⟩ := pickALeg_cases gateways
  · have hempty : gateways.filter WeightedGateway.isCandidate = [] := by
      apply List.filter_eq_nil_iff.mpr
      intro gw hgw
      simp [hnone gw hgw]
    have hzero : weightSum gateways = 0 := by simp [weightSum, hempty]
    rw [h.weightSum_eq] at hzero
    omega
  · have hbest := h.greatest hfits hplace hcandidate hgreatest
    obtain ⟨first, paid, hfirst, rfl, _⟩ := h.start_of hplace
    refine ⟨place, first, _, hfirst, hpick, ⟨⟨hbest, h.smooth⟩, by simp [h.length], ?_⟩⟩
    intro i other hother
    obtain ⟨credit, hsome, hplay, hsame⟩ := h.gateway i other hother
    have hafter : ((gateways.map WeightedGateway.gain).modify place (·.payBack (totalWeight gateways)))[i]? =
        some (if place = i then (other.withCredit credit).gain.payBack (totalWeight gateways)
          else (other.withCredit credit).gain) := by
      rw [List.getElem?_modify, List.getElem?_map, hsome]
      by_cases hi : place = i <;> simp [hi]
    rw [hafter]
    cases hother' : other.isCandidate with
    | false =>
        -- only a candidate pays back
        have hne : place ≠ i := by
          rintro rfl
          rw [hfirst] at hother
          cases hother
          rw [isCandidate_withCredit, hother'] at hcandidate
          cases hcandidate
        refine ⟨credit, by rw [if_neg hne, gain_other _ hother'], by simp, fun _ => hsame hother'⟩
    | true =>
        obtain ⟨credit', hsome', hgained, hbound⟩ := h.gained hfits hother hother'
        rw [hsome] at hsome'
        cases hsome'
        rw [gain_candidate _ hother', payBack_withCredit]
        by_cases hi : place = i
        · subst hi
          exact ⟨_, by rw [if_pos rfl], fun _ => h.paid hfits htotal hbest hgained hbound, by simp⟩
        · have hne : ¬i = place := fun heq => hi heq.symm
          refine ⟨_, by rw [if_neg hi], fun _ => ?_, by simp⟩
          rw [hgained]
          simp [play, SmoothRoundRobin.round, hne]

theorem tracks_start (hfresh : ∀ gw ∈ start, gw.currentWeight = 0) : Tracks start start [] where
  smooth := trivial
  length := rfl
  gateway := by
    intro i gw hgw
    refine ⟨gw.currentWeight, hgw, fun _ => ?_, fun _ => rfl⟩
    rw [hfresh gw (List.mem_of_getElem? hgw)]
    rfl

end Picks

theorem load_fresh (t : GatewayTable) : ∀ gw ∈ loadALegGateways t, gw.currentWeight = 0 := by
  intro gw hgw
  obtain ⟨row, _, rfl⟩ := List.mem_map.mp hgw
  rfl

theorem load_distinct (t : GatewayTable) : ((loadALegGateways t).map WeightedGateway.id).Nodup := by
  have hids : (loadALegGateways t).map WeightedGateway.id =
      ((t.rows.filter fun row => row.type = .a_leg).insertionSort fun row other => row.id ≤ other.id).map
        Gateway.id := by
    rw [loadALegGateways, List.map_map]
    rfl
  rw [hids, ((List.perm_insertionSort _ _).map Gateway.id).nodup_iff]
  exact t.distinct.sublist (List.filter_sublist.map Gateway.id)

theorem id_inj {gateways : List WeightedGateway} (h : (gateways.map WeightedGateway.id).Nodup) {i j : ℕ}
    {gw other : WeightedGateway} (hgw : gateways[i]? = some gw) (hother : gateways[j]? = some other) :
    gw.id = other.id ↔ i = j := by
  constructor
  · intro hid
    have hi : i < (gateways.map WeightedGateway.id).length := by
      simpa using (List.getElem?_eq_some_iff.mp hgw).1
    apply (List.getElem?_inj hi h).mp
    simp [hgw, hother, hid]
  · rintro rfl
    rw [hgw] at hother
    cases hother
    rfl

-- The responses name the gateways at the picked places.
def Counts (start : List WeightedGateway) (responses : List PickALegResponse) (picks : List ℕ) : Prop :=
  ∀ i gw, start[i]? = some gw → responses.countP (·.gatewayID = gw.id) = picks.count i

theorem Counts.concat {start : List WeightedGateway} {responses : List PickALegResponse} {picks : List ℕ}
    (h : Counts start responses picks) (hids : (start.map WeightedGateway.id).Nodup) {place : ℕ}
    {first : WeightedGateway} (hfirst : start[place]? = some first) :
    Counts start (responses ++ [first.response]) (place :: picks) := by
  intro i gw hgw
  rw [List.countP_append, h i gw hgw, List.count_cons]
  by_cases hi : place = i
  · have hid := (id_inj hids hfirst hgw).mpr hi
    simp [WeightedGateway.response, hid, hi]
  · have hid := mt (id_inj hids hfirst hgw).mp hi
    simp [WeightedGateway.response, hid, hi]

theorem pickMany_tracks {start : List WeightedGateway} (hfresh : ∀ gw ∈ start, gw.currentWeight = 0)
    (hids : (start.map WeightedGateway.id).Nodup) (htotal : 0 < weightSum start) {n : Nat}
    (hfits : ∀ j < n, ∀ responses gateways, pickMany j start = .ok (responses, gateways) →
      NoOverflow gateways) :
    ∃ responses gateways picks, pickMany n start = .ok (responses, gateways) ∧
      Tracks start gateways picks ∧ Counts start responses picks ∧ responses.length = n ∧
      picks.length = n := by
  induction n with
  | zero => exact ⟨[], start, [], rfl, tracks_start hfresh, fun _ _ _ => rfl, rfl, rfl⟩
  | succ n ih =>
      obtain ⟨responses, gateways, picks, hmany, htracks, hcounts, hresponses, hpicks⟩ :=
        ih fun j hj => hfits j (by omega)
      obtain ⟨place, first, after, hfirst, hpick, hafter⟩ :=
        htracks.pick (hfits n (by omega) responses gateways hmany) htotal
      refine ⟨responses ++ [first.response], after, place :: picks, ?_, hafter,
        hcounts.concat hids hfirst, by simp [hresponses], by simp [hpicks]⟩
      simp [pickMany, hmany, hpick, bind, Except.bind, pure, Except.pure]

section Weights

variable {start : List WeightedGateway}
    (hweight : ∀ gw ∈ start, gw.isCandidate = true → 1 ≤ gw.weight)
include hweight

theorem one_le_weightAt : ∀ i ∈ candidates start, 1 ≤ weightAt start i := by
  intro i hi
  obtain ⟨gw, hgw, hcandidate⟩ := mem_candidates.mp hi
  rw [weightAt_eq hgw]
  exact Int64.le_iff_toInt_le.mp (hweight gw (List.mem_of_getElem? hgw) hcandidate)

theorem weightSum_pos (hsome : ∃ gw ∈ start, gw.isCandidate = true) : 0 < weightSum start := by
  obtain ⟨gw, hgw, hcandidate⟩ := hsome
  obtain ⟨i, hi⟩ := List.getElem?_of_mem hgw
  have hmem := mem_candidates.mpr ⟨gw, hi, hcandidate⟩
  have hone := one_le_weightAt hweight
  rw [weightSum_eq_total]
  refine lt_of_lt_of_le (hone i hmem) (Finset.single_le_sum (fun j hj => ?_) hmem)
  have := hone j hj
  omega

-- Nothing wraps around while a total for each candidate fits into an int.
theorem noOverflow_pickMany (hfresh : ∀ gw ∈ start, gw.currentWeight = 0)
    (hids : (start.map WeightedGateway.id).Nodup) (htotal : 0 < weightSum start)
    (hsmall : (candidates start).card * weightSum start ≤ 9223372036854775807) (n : Nat)
    {responses : List PickALegResponse} {gateways : List WeightedGateway}
    (hmany : pickMany n start = .ok (responses, gateways)) : NoOverflow gateways := by
  induction n using Nat.strong_induction_on generalizing responses gateways with
  | _ n ih =>
      obtain ⟨_, _, picks, hmany', htracks, _⟩ :=
        pickMany_tracks hfresh hids htotal fun j hj _ _ h => ih j hj h
      rw [hmany] at hmany'
      cases hmany'
      have hnonneg : ∀ i ∈ candidates start, 0 ≤ weightAt start i := fun i hi => by
        have := one_le_weightAt hweight i hi
        omega
      have hcard : ∀ i ∈ candidates start, weightSum start ≤ (candidates start).card * weightSum start := by
        intro i hi
        have hpos : 1 ≤ (candidates start).card := Finset.card_pos.mpr ⟨i, hi⟩
        exact le_mul_of_one_le_left htotal.le (by exact_mod_cast hpos)
      have hcandidates : (candidates start).Nonempty := by
        rw [weightSum_eq_total] at htotal
        exact Finset.nonempty_of_sum_ne_zero htotal.ne'
      constructor
      · obtain ⟨i, hi⟩ := hcandidates
        have hle := hcard i hi
        rw [htracks.weightSum_eq]
        unfold Fits
        omega
      · intro gw hgw hcandidate
        obtain ⟨i, hi⟩ := List.getElem?_of_mem hgw
        obtain ⟨first, credit, hfirst, rfl, hplay⟩ := htracks.start_of hi
        have hmem := mem_candidates.mpr ⟨first, hfirst, hcandidate⟩
        rw [weightSum_eq_total] at htotal hsmall
        have hupper := htracks.smooth.play_add_le hnonneg htotal hmem
        have hlower := htracks.smooth.neg_total_lt hnonneg htotal hmem
        have hle := hcard i hmem
        have hone := hnonneg i hmem
        rw [weightSum_eq_total] at hle
        rw [currentWeight_withCredit, weight_withCredit, hplay hcandidate, ← weightAt_eq hfirst]
        unfold Fits
        omega

end Weights

-- From freshly loaded gateways whose candidates have positive weights, n picks
-- return each candidate less than once more than its share of n, and whole turns
-- return it exactly its weight's times per turn and leave all current weights 0.
theorem picks_proportional (t : GatewayTable) (n : Nat)
    (hsome : ∃ gw ∈ loadALegGateways t, gw.isCandidate = true)
    (hweight : ∀ gw ∈ loadALegGateways t, gw.isCandidate = true → 1 ≤ gw.weight)
    (hfits : ∀ j < n, ∀ responses gateways, pickMany j (loadALegGateways t) = .ok (responses, gateways) →
      NoOverflow gateways) :
    ∃ responses gateways, pickMany n (loadALegGateways t) = .ok (responses, gateways) ∧
      responses.length = n ∧
      (∀ gw ∈ loadALegGateways t, gw.isCandidate = true →
        weightSum (loadALegGateways t) * responses.countP (·.gatewayID = gw.id) <
          n * gw.weight.toInt + weightSum (loadALegGateways t)) ∧
      ∀ m : Nat, (n : Int) = m * weightSum (loadALegGateways t) →
        (∀ gw ∈ loadALegGateways t, gw.isCandidate = true →
          (responses.countP (·.gatewayID = gw.id) : Int) = m * gw.weight.toInt) ∧
        ∀ gw ∈ gateways, gw.currentWeight = 0 := by
  generalize hstart : loadALegGateways t = start at *
  have hfresh : ∀ gw ∈ start, gw.currentWeight = 0 := hstart ▸ load_fresh t
  have hids : (start.map WeightedGateway.id).Nodup := hstart ▸ load_distinct t
  have hnonneg : ∀ i ∈ candidates start, 0 ≤ weightAt start i := fun i hi => by
    have := one_le_weightAt hweight i hi
    omega
  have htotal := weightSum_pos hweight hsome
  obtain ⟨responses, gateways, picks, hmany, htracks, hcounts, hlength, hpicks⟩ :=
    pickMany_tracks hfresh hids htotal hfits
  rw [weightSum_eq_total] at htotal ⊢
  refine ⟨responses, gateways, hmany, hlength, ?_, ?_⟩
  · intro gw hgw hcandidate
    obtain ⟨i, hi⟩ := List.getElem?_of_mem hgw
    have hlt := htracks.smooth.count_lt hnonneg htotal (mem_candidates.mpr ⟨gw, hi, hcandidate⟩)
    rw [hcounts i gw hi, ← hpicks, ← weightAt_eq hi]
    exact hlt
  · intro m hm
    rw [← hpicks] at hm
    constructor
    · intro gw hgw hcandidate
      obtain ⟨i, hi⟩ := List.getElem?_of_mem hgw
      have heq := htracks.smooth.count_eq hnonneg htotal hm (mem_candidates.mpr ⟨gw, hi, hcandidate⟩)
      rw [hcounts i gw hi, ← weightAt_eq hi]
      exact heq
    · intro gw hgw
      obtain ⟨i, hi⟩ := List.getElem?_of_mem hgw
      obtain ⟨first, credit, hfirst, rfl, hplay⟩ := htracks.start_of hi
      cases hcandidate : first.isCandidate with
      | true =>
          have hzero := htracks.smooth.play_eq_zero hnonneg htotal hm
            (mem_candidates.mpr ⟨first, hfirst, hcandidate⟩)
          rw [← hplay hcandidate] at hzero
          exact Int64.toInt_inj.mp hzero
      | false =>
          obtain ⟨same, hsame, _, hkept⟩ := htracks.gateway i first hfirst
          rw [hi] at hsame
          cases hsame
          rw [currentWeight_withCredit, hkept hcandidate, hfresh first (List.mem_of_getElem? hfirst)]

-- The gateways of a plan with weights 5, 3 and 2.
def threeGateways : GatewayTable where
  rows :=
    [⟨1, "GW-A", .a_leg, "sip:a@example.com", 5, true, true, none, 0, 3⟩,
     ⟨2, "GW-B", .a_leg, "sip:b@example.com", 3, true, true, none, 0, 3⟩,
     ⟨3, "GW-C", .a_leg, "sip:c@example.com", 2, true, true, none, 0, 3⟩]
  distinct := by decide

theorem picks_proportional_threeGateways :
    ∃ responses gateways, pickMany 10 (loadALegGateways threeGateways) = .ok (responses, gateways) ∧
      (responses.countP (·.gatewayID = 1) : Int) = 5 ∧ ∀ gw ∈ gateways, gw.currentWeight = 0 := by
  have hweight : ∀ gw ∈ loadALegGateways threeGateways, gw.isCandidate = true → 1 ≤ gw.weight := by decide
  obtain ⟨responses, gateways, hmany, _, _, hturns⟩ :=
    picks_proportional threeGateways 10 (by decide) hweight fun j _ _ _ hmany =>
      noOverflow_pickMany hweight (load_fresh _) (load_distinct _) (by decide) (by decide) j hmany
  obtain ⟨hcount, hzero⟩ := hturns 1 (by decide)
  exact ⟨responses, gateways, hmany, hcount ⟨1, "GW-A", "sip:a@example.com", 5, 0, true, true⟩ (by decide) rfl,
    hzero⟩

end Bos3000.Routing
