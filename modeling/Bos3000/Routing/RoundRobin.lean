import Bos3000.Lib.Machine
import Bos3000.Lib.ExactInt64
import Bos3000.Lib.SmoothRoundRobin
import Bos3000.Routing.Gateways

-- PickALeg distributes calls by weight, whatever happens to the gateways between
-- two picks.
namespace Bos3000.Routing

-- What the service does to its gateways in memory, one section under the mutex
-- at a time. loadALegGateways installs what it read from some state of the table.
inductive MemoryLabel
  | pickALeg
  | setHealthy (id : Int64) (healthy : Bool)
  | install (t : GatewayTable)

def memoryStep (gateways : List WeightedGateway) : MemoryLabel → Option (List WeightedGateway)
  | .pickALeg => some (match pickALeg gateways with
      | .ok (_, after) => after
      | .error _ => gateways)
  | .setHealthy id healthy => some (Routing.setHealthy id healthy gateways)
  | .install t => some (loadALegGateways t)

def credits (gateways : List WeightedGateway) : List Int64 := gateways.map WeightedGateway.currentWeight

-- What a pick may change: the current weights of candidates.
structure Reweighs (gw after : WeightedGateway) : Prop where
  fields : after = { gw with currentWeight := after.currentWeight }
  other : gw.isCandidate = false → after = gw

section Sum

variable (gateways : List WeightedGateway)

theorem sum_gain :
    (credits (gateways.map WeightedGateway.gain)).sum = (credits gateways).sum + totalWeight gateways := by
  induction gateways with
  | nil => simp [credits, totalWeight]
  | cons gw rest ih =>
      simp only [credits, totalWeight, List.map_cons, List.sum_cons, List.filter_cons] at ih ⊢
      unfold WeightedGateway.gain at *
      split <;> simp_all <;> grind

theorem sum_payBack {place : Nat} {gw : WeightedGateway} (total : Int64)
    (hplace : gateways[place]? = some gw) :
    (credits (gateways.modify place (·.payBack total))).sum = (credits gateways).sum - total := by
  induction gateways generalizing place with
  | nil => cases hplace
  | cons first rest ih =>
      cases place with
      | zero =>
          simp [credits, WeightedGateway.payBack]
          grind
      | succ place =>
          have hrest := ih hplace
          simp only [credits] at hrest ⊢
          simp [hrest]
          grind

end Sum

theorem sum_load (t : GatewayTable) : (credits (loadALegGateways t)).sum = 0 := by
  have hzero : ∀ credit ∈ credits (loadALegGateways t), credit = 0 := by
    intro credit hcredit
    simp only [credits, loadALegGateways, List.map_map, List.mem_map] at hcredit
    obtain ⟨row, _, rfl⟩ := hcredit
    rfl
  generalize credits (loadALegGateways t) = all at hzero
  induction all with
  | nil => rfl
  | cons credit rest ih =>
      rw [List.sum_cons, hzero credit (List.mem_cons_self ..),
        ih fun other hother => hzero other (List.mem_cons_of_mem _ hother)]
      rfl

theorem credits_setHealthy (id : Int64) (healthy : Bool) (gateways : List WeightedGateway) :
    credits (setHealthy id healthy gateways) = credits gateways := by
  induction gateways with
  | nil => rfl
  | cons gw rest ih =>
      simp only [credits] at ih ⊢
      unfold setHealthy
      split <;> simp [ih]

-- A pick moves current weight between candidates.
theorem sum_pickALeg {gateways after : List WeightedGateway} {response : PickALegResponse}
    (h : pickALeg gateways = .ok (response, after)) : (credits after).sum = (credits gateways).sum := by
  obtain ⟨herror, _⟩ | ⟨place, gw, hplace, _, _, hok⟩ := pickALeg_cases gateways
  · rw [herror] at h
    cases h
  · rw [hok] at h
    cases h
    have hgain : (gateways.map WeightedGateway.gain)[place]? = some gw.gain := by simp [hplace]
    rw [sum_payBack _ _ hgain, sum_gain]
    grind

theorem sum_memoryStep {gateways after : List WeightedGateway} {l : MemoryLabel}
    (hsum : (credits gateways).sum = 0) (hstep : memoryStep gateways l = some after) :
    (credits after).sum = 0 := by
  cases l with
  | pickALeg =>
      cases hstep
      split
      · rename_i hpick
        rw [sum_pickALeg hpick]
        exact hsum
      · exact hsum
  | setHealthy id healthy =>
      cases hstep
      rw [credits_setHealthy]
      exact hsum
  | install t =>
      cases hstep
      exact sum_load t

theorem pickALeg_reweighs {gateways after : List WeightedGateway} {response : PickALegResponse}
    (h : pickALeg gateways = .ok (response, after)) :
    (∃ gw ∈ gateways, gw.isCandidate = true ∧ response = gw.response) ∧
      List.Forall₂ Reweighs gateways after := by
  obtain ⟨herror, _⟩ | ⟨place, gw, hplace, hcandidate, _, hok⟩ := pickALeg_cases gateways
  · rw [herror] at h
    cases h
  · rw [hok] at h
    cases h
    refine ⟨⟨gw, List.mem_of_getElem? hplace, hcandidate, rfl⟩, ?_⟩
    refine List.forall₂_iff_get.mpr ⟨by simp, ?_⟩
    intro i hi hi'
    have hgain : Reweighs gateways[i] gateways[i].gain := by
      unfold WeightedGateway.gain
      constructor <;> split <;> simp_all
    simp only [List.get_eq_getElem, List.getElem_modify, List.getElem_map]
    split
    · rename_i heq
      have hgw : gateways[i] = gw := by
        subst heq
        exact (List.getElem?_eq_some_iff.mp hplace).2
      rw [hgw] at hgain ⊢
      constructor
      · rw [hgain.fields]
        rfl
      · intro hnot
        rw [hcandidate] at hnot
        cases hnot
    · exact hgain

-- Whatever picks, health flags and reloads come between, the current weights sum
-- to zero, in the wrapping arithmetic of int. A pick fails without a candidate
-- only, returns a candidate, and changes the weights of candidates only.
theorem currentWeights_balanced (t : GatewayTable) {labels : List MemoryLabel}
    {gateways : List WeightedGateway}
    (hrun : Machine.run memoryStep (loadALegGateways t) labels = some gateways) :
    (credits gateways).sum = 0 ∧
    ((∃ e, pickALeg gateways = .error e) ↔ ∀ gw ∈ gateways, ¬(gw.healthy ∧ gw.enabled)) ∧
    ∀ response after, pickALeg gateways = .ok (response, after) →
      (∃ gw ∈ gateways, gw.healthy ∧ gw.enabled ∧ response = gw.response) ∧
        List.Forall₂ Reweighs gateways after := by
  refine ⟨?_, ?_, ?_⟩
  · exact Machine.invariant (P := fun gateways => (credits gateways).sum = 0)
      (fun _ _ _ h hstep => sum_memoryStep h hstep) (sum_load t) hrun
  · obtain ⟨herror, hnone⟩ | ⟨place, gw, hplace, hcandidate, _, hok⟩ := pickALeg_cases gateways
    · refine iff_of_true ⟨_, herror⟩ ?_
      intro gw hgw
      simpa [WeightedGateway.isCandidate] using hnone gw hgw
    · refine iff_of_false (by simp [hok]) ?_
      intro hnone
      apply hnone gw (List.mem_of_getElem? hplace)
      simpa [WeightedGateway.isCandidate] using hcandidate
  · intro response after hpick
    obtain ⟨⟨gw, hgw, hcandidate, hresponse⟩, hreweighs⟩ := pickALeg_reweighs hpick
    simp only [WeightedGateway.isCandidate, Bool.and_eq_true] at hcandidate
    exact ⟨⟨gw, hgw, hcandidate.1, hcandidate.2, hresponse⟩, hreweighs⟩

-- The heavier of two gateways leaves the candidates with the weight it owes.
def twoGateways : GatewayTable where
  rows :=
    [⟨1, "GW-A", .a_leg, "sip:a@example.com", 3, true, true, none, 0, 3⟩,
     ⟨2, "GW-B", .a_leg, "sip:b@example.com", 1, true, true, none, 0, 3⟩]
  distinct := by decide

def gatewayLeaves : List MemoryLabel := [.pickALeg, .setHealthy 1 false, .pickALeg]

theorem currentWeights_balanced_gatewayLeaves :
    ∃ gateways, Machine.run memoryStep (loadALegGateways twoGateways) gatewayLeaves = some gateways ∧
      (credits gateways).sum = 0 ∧ credits gateways = [-1, 1] := by
  have hrun : ∃ gateways,
      Machine.run memoryStep (loadALegGateways twoGateways) gatewayLeaves = some gateways ∧
        credits gateways = [-1, 1] := ⟨_, rfl, by decide⟩
  obtain ⟨gateways, hgateways, hcredits⟩ := hrun
  exact ⟨gateways, hgateways, (currentWeights_balanced twoGateways hgateways).1, hcredits⟩

end Bos3000.Routing
