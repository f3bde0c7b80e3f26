import Mathlib.Data.List.Sort
import Bos3000.Lib.Table
import Bos3000.Types

-- The gateways of the routing service: the rows of its table, and the A-leg
-- gateways it keeps in memory for PickALeg.
namespace Bos3000.Routing

inductive GatewayType
  | a_leg | b_leg
  deriving DecidableEq, Repr

-- A row of gateways.
structure Gateway where
  id : Int64
  name : String
  type : GatewayType
  sipAddress : String
  weight : Int64
  healthy : Bool
  enabled : Bool
  failoverGatewayID : Option Int64
  healthCheckFailures : Int64
  maxHealthFailures : Int64
  deriving DecidableEq, Repr

abbrev GatewayTable := Table Gateway.id

-- WeightedGateway holds in-memory state for smooth weighted round-robin.
structure WeightedGateway where
  id : Int64
  name : String
  sipAddress : String
  weight : Int64
  currentWeight : Int64
  healthy : Bool
  enabled : Bool
  deriving DecidableEq, Repr

def Gateway.load (row : Gateway) : WeightedGateway :=
  ⟨row.id, row.name, row.sipAddress, row.weight, 0, row.healthy, row.enabled⟩

-- The rows that loadALegGateways reads, as the gateways it installs.
def loadALegGateways (t : GatewayTable) : List WeightedGateway :=
  ((t.rows.filter fun row => row.type = .a_leg).insertionSort fun row other => row.id ≤ other.id).map
    Gateway.load

def WeightedGateway.isCandidate (gw : WeightedGateway) : Bool := gw.healthy && gw.enabled

def totalWeight (gateways : List WeightedGateway) : Int64 :=
  ((gateways.filter WeightedGateway.isCandidate).map WeightedGateway.weight).sum

structure PickALegResponse where
  gatewayID : Int64
  name : String
  sipAddress : String
  deriving DecidableEq, Repr

def noHealthyGateway : APIError := ⟨.Unavailable, "no healthy A-leg gateways available"⟩

-- The best gateway so far with its place in the list, after `gw` gained its weight.
def better (best : Option (Nat × WeightedGateway)) (place : Nat) (gw : WeightedGateway) :
    Option (Nat × WeightedGateway) :=
  match best with
  | none => some (place, gw)
  | some (other, bestGw) =>
      if bestGw.currentWeight < gw.currentWeight then some (place, gw) else some (other, bestGw)

-- The loop of PickALeg over the candidates: each gains its weight.
def gainWeights (place : Nat) (best : Option (Nat × WeightedGateway)) :
    List WeightedGateway → List WeightedGateway × Option (Nat × WeightedGateway)
  | [] => ([], best)
  | gw :: rest =>
      if gw.isCandidate then
        let gw := { gw with currentWeight := gw.currentWeight + gw.weight }
        let after := gainWeights (place + 1) (better best place gw) rest
        (gw :: after.1, after.2)
      else
        let after := gainWeights (place + 1) best rest
        (gw :: after.1, after.2)

-- PickALeg, with the gateways it leaves. No gateway is best when there is no
-- candidate, which the source checks before the loop.
def pickALeg (gateways : List WeightedGateway) :
    Except APIError (PickALegResponse × List WeightedGateway) :=
  match gainWeights 0 none gateways with
  | (_, none) => .error noHealthyGateway
  | (raised, some (place, best)) =>
      .ok (⟨best.id, best.name, best.sipAddress⟩, raised.modify place fun gw =>
        { gw with currentWeight := gw.currentWeight - totalWeight gateways })

-- The in-memory update of the health checks: the flag of the first gateway with the id.
def setHealthy (id : Int64) (healthy : Bool) : List WeightedGateway → List WeightedGateway
  | [] => []
  | gw :: rest => if gw.id = id then { gw with healthy } :: rest else gw :: setHealthy id healthy rest

def WeightedGateway.gain (gw : WeightedGateway) : WeightedGateway :=
  if gw.isCandidate then { gw with currentWeight := gw.currentWeight + gw.weight } else gw

def WeightedGateway.payBack (total : Int64) (gw : WeightedGateway) : WeightedGateway :=
  { gw with currentWeight := gw.currentWeight - total }

def WeightedGateway.response (gw : WeightedGateway) : PickALegResponse :=
  ⟨gw.id, gw.name, gw.sipAddress⟩

theorem gainWeights_fst (place : Nat) (best : Option (Nat × WeightedGateway))
    (gateways : List WeightedGateway) :
    (gainWeights place best gateways).1 = gateways.map WeightedGateway.gain := by
  induction gateways generalizing place best with
  | nil => rfl
  | cons gw rest ih =>
      by_cases hcandidate : gw.isCandidate = true <;>
        simp [gainWeights, WeightedGateway.gain, hcandidate, ih]

-- The best of `before` and the candidates among `gateways`, whose first place is `place`.
structure IsBest (place : Nat) (before after : Option (Nat × WeightedGateway))
    (gateways : List WeightedGateway) : Prop where
  source : after = before ∨ ∃ j gw, gateways[j]? = some gw ∧ gw.isCandidate = true ∧
    after = some (place + j, gw.gain)
  none_iff : after = none ↔ before = none ∧ ∀ gw ∈ gateways, gw.isCandidate = false
  before_le : ∀ best ∈ after, ∀ earlier ∈ before, earlier.2.currentWeight ≤ best.2.currentWeight
  le : ∀ best ∈ after, ∀ gw ∈ gateways, gw.isCandidate = true →
    gw.gain.currentWeight ≤ best.2.currentWeight

theorem IsBest.cons {place : Nat} {before middle after : Option (Nat × WeightedGateway)}
    {gw : WeightedGateway} {rest : List WeightedGateway} (hfirst : IsBest place before middle [gw])
    (hrest : IsBest (place + 1) middle after rest) : IsBest place before after (gw :: rest) where
  source := by
    obtain rfl | ⟨j, other, hother, hcandidate, rfl⟩ := hrest.source
    · obtain hsame | ⟨j, other, hother, hcandidate, hafter⟩ := hfirst.source
      · exact .inl hsame
      · obtain ⟨rfl, rfl⟩ : j = 0 ∧ other = gw := by
          cases j <;> simp_all
        exact .inr ⟨0, other, rfl, hcandidate, hafter⟩
    · exact .inr ⟨j + 1, other, hother, hcandidate, by rw [Nat.add_right_comm, Nat.add_assoc]⟩
  none_iff := by
    rw [hrest.none_iff, hfirst.none_iff]
    simp [and_assoc]
  before_le := by
    intro best hbest earlier hearlier
    have hsome : middle ≠ none := by
      intro hnone
      rw [(hfirst.none_iff.mp hnone).1] at hearlier
      cases hearlier
    obtain ⟨m, rfl⟩ := Option.ne_none_iff_exists'.mp hsome
    exact Int64.le_trans (hfirst.before_le m rfl earlier hearlier) (hrest.before_le best hbest m rfl)
  le := by
    intro best hbest other hother hcandidate
    rcases List.mem_cons.mp hother with rfl | hother
    · have hsome : middle ≠ none := by
        intro hnone
        have hnot := (hfirst.none_iff.mp hnone).2 other (List.mem_singleton_self _)
        rw [hnot] at hcandidate
        cases hcandidate
      obtain ⟨m, rfl⟩ := Option.ne_none_iff_exists'.mp hsome
      exact Int64.le_trans (hfirst.le m rfl other (List.mem_singleton_self _) hcandidate)
        (hrest.before_le best hbest m rfl)
    · exact hrest.le best hbest other hother hcandidate

theorem isBest_self (place : Nat) (best : Option (Nat × WeightedGateway))
    {gateways : List WeightedGateway} (hnone : ∀ gw ∈ gateways, gw.isCandidate = false) :
    IsBest place best best gateways := by
  refine ⟨.inl rfl, by simpa using fun _ => hnone, ?_, ?_⟩
  · rintro best hbest earlier hearlier
    cases hbest.symm.trans hearlier
    exact Int64.le_refl _
  · intro _ _ gw hgw hcandidate
    rw [hnone gw hgw] at hcandidate
    cases hcandidate

theorem isBest_better (best : Option (Nat × WeightedGateway)) (place : Nat) {gw : WeightedGateway}
    (hcandidate : gw.isCandidate = true) : IsBest place best (better best place gw.gain) [gw] := by
  rcases best with _ | ⟨other, best⟩
  · refine ⟨.inr ⟨0, gw, rfl, hcandidate, rfl⟩, ?_, ?_, ?_⟩ <;> simp [better, hcandidate]
  · simp only [better]
    split
    · rename_i hlt
      refine ⟨.inr ⟨0, gw, rfl, hcandidate, rfl⟩, by simp, ?_, by simp⟩
      simpa using Int64.le_of_lt hlt
    · rename_i hle
      refine ⟨.inl rfl, by simp, by simp, ?_⟩
      simpa [hcandidate] using Int64.not_lt.mp hle

theorem isBest_gainWeights (place : Nat) (best : Option (Nat × WeightedGateway))
    (gateways : List WeightedGateway) :
    IsBest place best (gainWeights place best gateways).2 gateways := by
  induction gateways generalizing place best with
  | nil => exact isBest_self place best (by simp)
  | cons gw rest ih =>
      by_cases hcandidate : gw.isCandidate = true
      · have heq : (gainWeights place best (gw :: rest)).2 =
            (gainWeights (place + 1) (better best place gw.gain) rest).2 := by
          simp [gainWeights, WeightedGateway.gain, hcandidate]
        rw [heq]
        exact (isBest_better best place hcandidate).cons (ih _ _)
      · have heq : (gainWeights place best (gw :: rest)).2 = (gainWeights (place + 1) best rest).2 := by
          simp [gainWeights, hcandidate]
        rw [heq]
        exact (isBest_self place best (by simpa using hcandidate)).cons (ih _ _)

-- PickALeg fails without a candidate, and else picks one whose weight is then
-- the greatest.
theorem pickALeg_cases (gateways : List WeightedGateway) :
    (pickALeg gateways = .error noHealthyGateway ∧ ∀ gw ∈ gateways, gw.isCandidate = false) ∨
    ∃ place gw, gateways[place]? = some gw ∧ gw.isCandidate = true ∧
      (∀ other ∈ gateways, other.isCandidate = true →
        other.gain.currentWeight ≤ gw.gain.currentWeight) ∧
      pickALeg gateways = .ok (gw.response,
        (gateways.map WeightedGateway.gain).modify place (·.payBack (totalWeight gateways))) := by
  have hbest := isBest_gainWeights 0 none gateways
  have hraised := gainWeights_fst 0 none gateways
  cases hgain : gainWeights 0 none gateways with
  | mk raised best =>
      rw [hgain] at hbest hraised
      simp only at hbest hraised
      cases best with
      | none => exact .inl ⟨by simp [pickALeg, hgain], (hbest.none_iff.mp rfl).2⟩
      | some best =>
          obtain hnone | ⟨place, gw, hplace, hcandidate, hgw⟩ := hbest.source
          · cases hnone
          · simp only [Nat.zero_add, Option.some.injEq] at hgw
            subst hgw hraised
            have hgreatest := hbest.le (0 + place, gw.gain) (by simp)
            refine .inr ⟨place, gw, hplace, hcandidate, hgreatest, ?_⟩
            simp only [pickALeg, hgain]
            have hresponse : gw.gain.response = gw.response := by
              unfold WeightedGateway.gain
              split <;> rfl
            rw [← hresponse]
            rfl

end Bos3000.Routing
