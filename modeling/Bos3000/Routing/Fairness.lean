import Bos3000.Lib.ChangingRounds
import Bos3000.Routing.Proportional

-- Gateways in memory with positive weights get their turn, while the health flags
-- of the others change from pick to pick.
namespace Bos3000.Routing

open ExactInt64 (Fits)
open SmoothRoundRobin (Greatest Within roundOf)

def places (gateways : List WeightedGateway) : Finset ℕ := Finset.range gateways.length

def creditAt (gateways : List WeightedGateway) (i : ℕ) : ℤ :=
  (gateways[i]?.map fun gw => gw.currentWeight.toInt).getD 0

-- The weights of all gateways, candidates or not.
def fullWeight (gateways : List WeightedGateway) : ℤ := SmoothRoundRobin.total (places gateways) (weightAt gateways)

-- The credits of gateways that take turns: they sum to zero, and no group of
-- gateways has or owes more than what it can come to by sitting rounds out.
structure Fair (gateways : List WeightedGateway) : Prop where
  within : Within (places gateways) (fullWeight gateways) (creditAt gateways)
  sum : ∑ i ∈ places gateways, creditAt gateways i = 0

-- An int holds the weights of all gateways once for each of them.
def Roomy (gateways : List WeightedGateway) : Prop :=
  gateways.length * fullWeight gateways ≤ 9223372036854775807

instance (gateways : List WeightedGateway) : Decidable (Roomy gateways) := inferInstanceAs (Decidable (_ ≤ _))

theorem creditAt_eq {gateways : List WeightedGateway} {i : ℕ} {gw : WeightedGateway}
    (h : gateways[i]? = some gw) : creditAt gateways i = gw.currentWeight.toInt := by
  simp [creditAt, h]

theorem mem_places {gateways : List WeightedGateway} {i : ℕ} :
    i ∈ places gateways ↔ ∃ gw, gateways[i]? = some gw := by
  rw [places, Finset.mem_range, ← Option.isSome_iff_exists, isSome_getElem?]

theorem candidates_subset (gateways : List WeightedGateway) : candidates gateways ⊆ places gateways := by
  exact Finset.filter_subset _ _

section Pick

variable {gateways after : List WeightedGateway} (hweight : ∀ gw ∈ gateways, 1 ≤ gw.weight)
include hweight

theorem one_le_weightAt_places : ∀ i ∈ places gateways, 1 ≤ weightAt gateways i := by
  intro i hi
  obtain ⟨gw, hgw⟩ := mem_places.mp hi
  rw [weightAt_eq hgw]
  exact Int64.le_iff_toInt_le.mp (hweight gw (List.mem_of_getElem? hgw))

theorem weightAt_nonneg : ∀ i ∈ places gateways, 0 ≤ weightAt gateways i := by
  intro i hi
  have hone := one_le_weightAt_places hweight i hi
  omega

theorem fullWeight_nonneg : 0 ≤ fullWeight gateways := Finset.sum_nonneg (weightAt_nonneg hweight)

theorem weightAt_le {i : ℕ} (hi : i ∈ places gateways) : weightAt gateways i ≤ fullWeight gateways :=
  Finset.single_le_sum (weightAt_nonneg hweight) hi

theorem weightSum_le : weightSum gateways ≤ fullWeight gateways := by
  rw [weightSum_eq_total]
  exact SmoothRoundRobin.sum_weight_le (weightAt_nonneg hweight) (candidates_subset gateways)

variable (hroomy : Roomy gateways)
include hroomy

-- Credits within their bounds fit into an int, also with one more gain.
theorem fits_of_within {credit : ℕ → ℤ} (hwithin : Within (places gateways) (fullWeight gateways) credit)
    (hsum : ∑ i ∈ places gateways, credit i = 0) {i : ℕ} (hi : i ∈ places gateways) :
    Fits (credit i) ∧ Fits (credit i + weightAt gateways i) := by
  have hupper := hwithin.le hi
  have hlower := hwithin.ge hsum hi
  have hgain := weightAt_le hweight hi
  have hnonneg := weightAt_nonneg hweight i hi
  have hcard : ((places gateways).card : ℤ) = gateways.length := by
    simp [places]
  have hfull : fullWeight gateways * (((places gateways).card : ℤ) - 1) + fullWeight gateways =
      gateways.length * fullWeight gateways := by
    rw [hcard]
    ring
  unfold Roomy at hroomy
  unfold Fits
  omega

theorem fits_weightSum : Fits (weightSum gateways) := by
  have hnonneg : 0 ≤ weightSum gateways := by
    rw [weightSum_eq_total]
    exact Finset.sum_nonneg fun i hi => weightAt_nonneg hweight i (candidates_subset gateways hi)
  have hle := weightSum_le hweight
  have hroom : fullWeight gateways ≤ 9223372036854775807 := by
    cases hlist : gateways with
    | nil => decide
    | cons gw rest =>
        have hlength : (1 : ℤ) ≤ gateways.length := by simp [hlist]
        rw [← hlist]
        exact (le_mul_of_one_le_left (fullWeight_nonneg hweight) hlength).trans hroomy
  exact ⟨by omega, by omega⟩

variable (hfair : Fair gateways)
include hfair

theorem toInt_gain {i : ℕ} {gw : WeightedGateway} (hgw : gateways[i]? = some gw) :
    (gw.currentWeight + gw.weight).toInt = creditAt gateways i + weightAt gateways i := by
  have hfits := (fits_of_within hweight hroomy hfair.within hfair.sum (mem_places.mpr ⟨gw, hgw⟩)).2
  rw [creditAt_eq hgw, weightAt_eq hgw] at hfits ⊢
  exact ExactInt64.toInt_add hfits

theorem credit_gain {i : ℕ} {gw : WeightedGateway} (hgw : gateways[i]? = some gw) :
    gw.gain.currentWeight.toInt =
      creditAt gateways i + if i ∈ candidates gateways then weightAt gateways i else 0 := by
  unfold WeightedGateway.gain
  by_cases hcandidate : gw.isCandidate = true
  · rw [if_pos hcandidate, if_pos (mem_candidates.mpr ⟨gw, hgw, hcandidate⟩)]
    exact toInt_gain hweight hroomy hfair hgw
  · have hnot : i ∉ candidates gateways := by
      intro hmem
      obtain ⟨other, hother, hcandidate'⟩ := mem_candidates.mp hmem
      rw [hgw] at hother
      cases hother
      exact hcandidate hcandidate'
    rw [if_neg hcandidate, if_neg hnot, add_zero, creditAt_eq hgw]

-- A pick is a round among the candidates.
theorem pickALeg_round {response : PickALegResponse} (h : pickALeg gateways = .ok (response, after)) :
    ∃ place gw, gateways[place]? = some gw ∧ gw.isCandidate = true ∧ response = gw.response ∧
      Greatest (candidates gateways) (weightAt gateways) (creditAt gateways) place ∧
      ∀ i ∈ places gateways, creditAt after i =
        roundOf (candidates gateways) (weightAt gateways) (creditAt gateways) place i := by
  obtain ⟨herror, _⟩ | ⟨place, gw, hplace, hcandidate, hgreatest, hok⟩ := pickALeg_cases gateways
  · rw [herror] at h
    cases h
  · rw [hok] at h
    cases h
    have hmem := mem_candidates.mpr ⟨gw, hplace, hcandidate⟩
    have hbest : Greatest (candidates gateways) (weightAt gateways) (creditAt gateways) place := by
      refine ⟨hmem, fun i hi => ?_⟩
      obtain ⟨other, hother, hother'⟩ := mem_candidates.mp hi
      have hle := Int64.le_iff_toInt_le.mp (hgreatest other (List.mem_of_getElem? hother) hother')
      rw [credit_gain hweight hroomy hfair hother, credit_gain hweight hroomy hfair hplace, if_pos hi,
        if_pos hmem] at hle
      exact hle
    refine ⟨place, gw, hplace, hcandidate, rfl, hbest, fun i hi => ?_⟩
    obtain ⟨other, hother⟩ := mem_places.mp hi
    have hafter : ((gateways.map WeightedGateway.gain).modify place (·.payBack (totalWeight gateways)))[i]? =
        some (if place = i then other.gain.payBack (totalWeight gateways) else other.gain) := by
      rw [List.getElem?_modify, List.getElem?_map, hother]
      by_cases hi : place = i <;> simp [hi]
    rw [creditAt_eq hafter]
    have hgain := credit_gain hweight hroomy hfair hother
    by_cases hsame : place = i
    · subst hsame
      have hwithin := hfair.within.roundOf (candidates_subset gateways)
        (fun j hj => weightAt_nonneg hweight j (candidates_subset gateways hj))
        (by rw [← weightSum_eq_total]; exact weightSum_le hweight) hbest
      have hsum : ∑ j ∈ places gateways,
          roundOf (candidates gateways) (weightAt gateways) (creditAt gateways) place j = 0 :=
        (SmoothRoundRobin.sum_roundOf_entries (candidates_subset gateways) hmem).trans hfair.sum
      have hfits := (fits_of_within hweight hroomy hwithin hsum hi).1
      have htotal := fits_weightSum hweight hroomy
      have hpaid : roundOf (candidates gateways) (weightAt gateways) (creditAt gateways) place place =
          other.gain.currentWeight.toInt - (totalWeight gateways).toInt := by
        rw [hgain, toInt_totalWeight htotal, weightSum_eq_total, roundOf, if_pos rfl]
      rw [if_pos rfl, hpaid]
      rw [hpaid] at hfits
      exact ExactInt64.toInt_sub hfits
    · rw [if_neg hsame, hgain, roundOf, if_neg (Ne.symm hsame), sub_zero]

end Pick

-- Gateways that differ in their credits and health flags only.
def SameWeights (gateways after : List WeightedGateway) : Prop :=
  after.map (fun gw => (gw.id, gw.weight)) = gateways.map fun gw => (gw.id, gw.weight)

namespace SameWeights

variable {gateways after : List WeightedGateway} (h : SameWeights gateways after)
include h

theorem length_eq : after.length = gateways.length := by
  have hlength := congrArg List.length h
  simpa using hlength

theorem getElem {i : ℕ} {gw : WeightedGateway} (hgw : gateways[i]? = some gw) :
    ∃ next, after[i]? = some next ∧ next.id = gw.id ∧ next.weight = gw.weight := by
  have hi : i < after.length := by
    rw [h.length_eq]
    exact (List.getElem?_eq_some_iff.mp hgw).1
  have hsame : (after.map fun gw => (gw.id, gw.weight))[i]? = (gateways.map fun gw => (gw.id, gw.weight))[i]? := by
    rw [h]
  rw [List.getElem?_map, List.getElem?_map, hgw, List.getElem?_eq_getElem hi] at hsame
  simp only [Option.map_some, Option.some.injEq, Prod.mk.injEq] at hsame
  exact ⟨after[i], List.getElem?_eq_getElem hi, hsame.1, hsame.2⟩

theorem weightAt_eq : weightAt after = weightAt gateways := by
  funext i
  cases hgw : gateways[i]? with
  | none =>
      have hlength : after.length ≤ i := by
        rw [h.length_eq]
        exact List.getElem?_eq_none_iff.mp hgw
      simp [weightAt, hgw, List.getElem?_eq_none hlength]
  | some gw =>
      obtain ⟨next, hnext, _, hweight⟩ := h.getElem hgw
      rw [Routing.weightAt_eq hgw, Routing.weightAt_eq hnext, hweight]

theorem places_eq : places after = places gateways := by
  rw [places, h.length_eq, places]

theorem fullWeight_eq : fullWeight after = fullWeight gateways := by
  rw [fullWeight, h.weightAt_eq, h.places_eq, fullWeight]

theorem roomy_iff : Roomy after ↔ Roomy gateways := by
  rw [Roomy, Roomy, h.length_eq, h.fullWeight_eq]

theorem weight_iff : (∀ gw ∈ after, 1 ≤ gw.weight) ↔ ∀ gw ∈ gateways, 1 ≤ gw.weight := by
  have hweights : after.map WeightedGateway.weight = gateways.map WeightedGateway.weight := by
    have hmap := congrArg (List.map Prod.snd) h
    rw [List.map_map, List.map_map] at hmap
    exact hmap
  have hforall : ∀ all : List WeightedGateway, (∀ gw ∈ all, 1 ≤ gw.weight) ↔
      ∀ weight ∈ all.map WeightedGateway.weight, 1 ≤ weight := by
    simp
  rw [hforall, hforall, hweights]

theorem ids_eq : after.map WeightedGateway.id = gateways.map WeightedGateway.id := by
  have hmap := congrArg (List.map Prod.fst) h
  rw [List.map_map, List.map_map] at hmap
  exact hmap

end SameWeights

theorem sameWeights_pickALeg {gateways after : List WeightedGateway} {response : PickALegResponse}
    (h : pickALeg gateways = .ok (response, after)) : SameWeights gateways after := by
  have hreweighs := (pickALeg_reweighs h).2
  unfold SameWeights
  clear h
  induction hreweighs with
  | nil => rfl
  | cons hfirst _ ih =>
      rw [List.map_cons, List.map_cons, ih, hfirst.fields]

theorem sameWeights_setHealthy (id : Int64) (healthy : Bool) (gateways : List WeightedGateway) :
    SameWeights gateways (setHealthy id healthy gateways) := by
  unfold SameWeights
  induction gateways with
  | nil => rfl
  | cons gw rest ih =>
      rw [setHealthy]
      split
      · rfl
      · rw [List.map_cons, List.map_cons, ih]

theorem creditAt_setHealthy (id : Int64) (healthy : Bool) (gateways : List WeightedGateway) :
    creditAt (setHealthy id healthy gateways) = creditAt gateways := by
  have hcredit : ∀ (all : List WeightedGateway) (i : ℕ), creditAt all i =
      (((credits all)[i]?).map Int64.toInt).getD 0 := by
    intro all i
    rw [creditAt, credits, List.getElem?_map, Option.map_map]
    rfl
  funext i
  rw [hcredit, hcredit, credits_setHealthy]

theorem fair_pickALeg {gateways after : List WeightedGateway} {response : PickALegResponse} (h : Fair gateways)
    (hweight : ∀ gw ∈ gateways, 1 ≤ gw.weight) (hroomy : Roomy gateways)
    (hpick : pickALeg gateways = .ok (response, after)) : Fair after := by
  have hsame := sameWeights_pickALeg hpick
  obtain ⟨place, gw, hplace, hcandidate, _, hbest, hround⟩ := pickALeg_round hweight hroomy h hpick
  constructor
  · intro part hpart
    rw [hsame.places_eq] at hpart
    have hwithin := h.within.roundOf (candidates_subset gateways)
      (fun j hj => weightAt_nonneg hweight j (candidates_subset gateways hj))
      (by rw [← weightSum_eq_total]; exact weightSum_le hweight) hbest part hpart
    rw [hsame.places_eq, hsame.fullWeight_eq, Finset.sum_congr rfl fun i hi => hround i (hpart hi)]
    exact hwithin
  · rw [hsame.places_eq, Finset.sum_congr rfl hround,
      SmoothRoundRobin.sum_roundOf_entries (candidates_subset gateways) hbest.1]
    exact h.sum

theorem fair_setHealthy {gateways : List WeightedGateway} (h : Fair gateways) (id : Int64) (healthy : Bool) :
    Fair (setHealthy id healthy gateways) := by
  have hsame := sameWeights_setHealthy id healthy gateways
  constructor
  · rw [hsame.places_eq, hsame.fullWeight_eq, creditAt_setHealthy]
    exact h.within
  · rw [hsame.places_eq, creditAt_setHealthy]
    exact h.sum

theorem fair_load (t : GatewayTable) (hweight : ∀ gw ∈ loadALegGateways t, 1 ≤ gw.weight) :
    Fair (loadALegGateways t) := by
  have hzero : creditAt (loadALegGateways t) = fun _ => 0 := by
    funext i
    cases hgw : (loadALegGateways t)[i]? with
    | none => simp [creditAt, hgw]
    | some gw =>
        rw [creditAt_eq hgw, load_fresh t gw (List.mem_of_getElem? hgw)]
        rfl
  constructor
  · rw [hzero]
    exact SmoothRoundRobin.within_zero (fullWeight_nonneg hweight)
  · rw [hzero, Finset.sum_const_zero]

-- Whatever happens to the gateways in memory, they take turns while their weights
-- are positive and fit.
theorem memory_fair (t : GatewayTable) {labels : List MemoryLabel} {gateways : List WeightedGateway}
    (hrun : Machine.run memoryStep (loadALegGateways t) labels = some gateways) :
    (∀ gw ∈ gateways, 1 ≤ gw.weight) → Roomy gateways → Fair gateways := by
  refine Machine.invariant
    (P := fun gateways => (∀ gw ∈ gateways, 1 ≤ gw.weight) → Roomy gateways → Fair gateways) ?_
    (fun hweight _ => fair_load t hweight) hrun
  intro gateways l after h hstep hweight hroomy
  cases l with
  | pickALeg =>
      cases hstep
      cases hpick : pickALeg gateways with
      | error e =>
          simp only [hpick] at hweight hroomy
          simpa only [hpick] using h hweight hroomy
      | ok result =>
          obtain ⟨response, after⟩ := result
          have hsame := sameWeights_pickALeg hpick
          simp only [hpick] at hweight hroomy ⊢
          have hweight' := hsame.weight_iff.mp hweight
          have hroomy' := hsame.roomy_iff.mp hroomy
          exact fair_pickALeg (h hweight' hroomy') hweight' hroomy' hpick
  | setHealthy id healthy =>
      cases hstep
      have hsame := sameWeights_setHealthy id healthy gateways
      exact fair_setHealthy (h (hsame.weight_iff.mp hweight) (hsame.roomy_iff.mp hroomy)) id healthy
  | install t =>
      cases hstep
      exact fair_load t hweight

-- A candidate that is not picked gains its weight.
theorem creditAt_passed {gateways after : List WeightedGateway} {response : PickALegResponse} {i : ℕ}
    {gw : WeightedGateway} (h : Fair gateways) (hweight : ∀ gw ∈ gateways, 1 ≤ gw.weight)
    (hroomy : Roomy gateways) (hpick : pickALeg gateways = .ok (response, after)) (hgw : gateways[i]? = some gw)
    (hcandidate : gw.isCandidate = true) (hother : response.gatewayID ≠ gw.id) :
    creditAt gateways i + 1 ≤ creditAt after i := by
  obtain ⟨place, best, hplace, _, rfl, _, hround⟩ := pickALeg_round hweight hroomy h hpick
  have hne : i ≠ place := by
    rintro rfl
    rw [hgw] at hplace
    cases hplace
    exact hother rfl
  have hi := mem_places.mpr ⟨gw, hgw⟩
  have hone := one_le_weightAt_places hweight i hi
  rw [hround i hi, roundOf, if_pos (mem_candidates.mpr ⟨gw, hgw, hcandidate⟩), if_neg hne]
  omega

end Bos3000.Routing
