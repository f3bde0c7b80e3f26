import Bos3000.Routing.Fairness
import Bos3000.Routing.Moves

-- The weights of gateways stay positive over the runs of the requests, and a
-- gateway that stays healthy and enabled is picked in its turn.
namespace Bos3000.Routing

-- UpdateGateway writes no weight below 1, as CreateGateway does not.
def keepsWeights (s : State) : Label → Bool
  | .spawn _ => true
  | .move i x =>
      match s.tasks[i]? with
      | some (.writing (.update _ p)) => x.isFault || p.weight.all fun weight => 1 ≤ weight
      | _ => true

def Write.weighs : Write → Prop
  | .insert row => 1 ≤ row.weight
  | .update _ _ | .toggle _ _ => True

-- What a request is about to store weighs at least 1.
def Stage.weighs : Stage → Prop
  | .writing statement => statement.weighs
  | .install gateways _ => ∀ gw ∈ gateways, 1 ≤ gw.weight
  | _ => True

structure Weighted (s : State) : Prop where
  row : ∀ row ∈ s.shared.table.rows, 1 ≤ row.weight
  memory : ∀ gw ∈ s.shared.aLegGateways, 1 ≤ gw.weight
  task : ∀ stage ∈ s.tasks, stage.weighs

theorem weighs_start (request : Request) : request.start.weighs := by
  have hadmin : ∀ (auth : Option AuthData) (stage : Stage), stage.weighs → (stage.asAdmin auth).weighs := by
    intro auth stage hstage
    unfold Stage.asAdmin
    split
    · exact hstage
    · trivial
  cases request with
  | createGateway auth p =>
      refine hadmin auth _ ?_
      unfold createGateway
      split
      · trivial
      · simp only [Stage.weighs, Write.weighs]
        split
        · exact Int64.le_refl 1
        · rename_i hnot
          exact Int64.not_lt.mp hnot
  | updateGateway auth id p => exact hadmin auth _ trivial
  | toggleGateway auth id enabled => exact hadmin auth _ trivial
  | pickALeg | runHealthCheck => trivial
  | manualHealthCheck auth id =>
      simp only [Request.start]
      split <;> trivial

theorem weighs_turn (manual : Bool) (results : List HealthCheckResult) (pending : List GatewayInfo) :
    (Stage.turn manual results pending).weighs := by
  cases pending <;> trivial

theorem weight_update {t : GatewayTable} {id : Int64} {assign : Gateway → Gateway}
    {hassign : ∀ row, (assign row).id = row.id} (h : ∀ row ∈ t.rows, 1 ≤ row.weight)
    (hweight : ∀ row ∈ t.rows, 1 ≤ (assign row).weight) :
    ∀ row ∈ (t.update id assign hassign).rows, 1 ≤ row.weight := by
  intro row hrow
  obtain ⟨old, hold, rfl⟩ := Table.mem_update.mp hrow
  split
  · exact hweight old hold
  · exact h old hold

theorem exec_weight {t u : GatewayTable} {statement : Write} {x : Answer} {out : Gateway}
    (h : ∀ row ∈ t.rows, 1 ≤ row.weight) (hweighs : statement.weighs)
    (hassign : ∀ id p, statement = .update id p → ∀ weight ∈ p.weight, 1 ≤ weight)
    (hexec : statement.exec t x = some (u, out)) : ∀ row ∈ u.rows, 1 ≤ row.weight := by
  obtain ⟨new, id, rfl, rfl, rfl, _, hinsert⟩ | ⟨id, p, old, rfl, rfl, hfind, rfl, _, rfl⟩ |
    ⟨id, enabled, old, rfl, rfl, hfind, rfl, rfl⟩ := Write.exec_cases hexec
  · intro row hrow
    rw [(Table.insert_eq_some hinsert).1] at hrow
    rcases List.mem_append.mp hrow with hold | hnew
    · exact h row hold
    · rw [List.mem_singleton] at hnew
      subst hnew
      exact hweighs
  · refine weight_update h fun row hrow => ?_
    cases hp : p.weight with
    | none =>
        have hsame : (p.assign row).weight = row.weight := by simp [UpdateGatewayParams.assign, hp]
        rw [hsame]
        exact h row hrow
    | some weight =>
        have hnew : (p.assign row).weight = weight := by simp [UpdateGatewayParams.assign, hp]
        rw [hnew]
        exact hassign id p rfl weight hp
  · exact weight_update h fun row hrow => h row hrow

theorem weight_load {t : GatewayTable} (h : ∀ row ∈ t.rows, 1 ≤ row.weight) :
    ∀ gw ∈ loadALegGateways t, 1 ≤ gw.weight := by
  intro gw hgw
  obtain ⟨row, hrow, rfl⟩ := List.mem_map.mp hgw
  rw [List.mem_insertionSort] at hrow
  exact h row (List.mem_filter.mp hrow).1

-- One move, where an update writes no weight below 1.
theorem Moves.weighted {s t : Service} {x : Answer} {stage next : Stage} (h : Moves s x stage next t)
    (hrow : ∀ row ∈ s.table.rows, 1 ≤ row.weight) (hmemory : ∀ gw ∈ s.aLegGateways, 1 ≤ gw.weight)
    (hstage : stage.weighs)
    (hassign : ∀ id p, stage = .writing (.update id p) → x.isFault = false → ∀ weight ∈ p.weight,
      1 ≤ weight) :
    (∀ row ∈ t.table.rows, 1 ≤ row.weight) ∧ (∀ gw ∈ t.aLegGateways, 1 ≤ gw.weight) ∧ next.weighs := by
  cases h with
  | pick hpick => exact ⟨hrow, (sameWeights_pickALeg hpick).weight_iff.mpr hmemory, trivial⟩
  | write hexec =>
      refine ⟨exec_weight hrow hstage (fun id p heq => hassign id p (by rw [heq]) (exec_not_fault hexec)) hexec,
        hmemory, ?_⟩
      split <;> trivial
  | load response => exact ⟨hrow, hmemory, weight_load hrow⟩
  | install gateways response => exact ⟨hrow, hstage, trivial⟩
  | query | skip => exact ⟨hrow, hmemory, weighs_turn ..⟩
  | check manual gw pending results reachable =>
      have hrecorded : ∀ row ∈ (s.table.update gw.id (gw.record reachable) (record_id gw reachable)).rows,
          1 ≤ row.weight := weight_update hrow fun row hmem => hrow row hmem
      refine ⟨hrecorded, hmemory, ?_⟩
      split
      · trivial
      · exact weighs_turn ..
  | flag manual id healthy pending results =>
      exact ⟨hrow, (sameWeights_setHealthy id healthy _).weight_iff.mpr hmemory, weighs_turn ..⟩
  | fail => exact ⟨hrow, hmemory, trivial⟩

theorem weighted_step {s t : State} {l : Label} (h : Weighted s) (hkeeps : keepsWeights s l = true)
    (hstep : step s l = some t) : Weighted t := by
  cases l with
  | spawn request =>
      cases hstep
      refine ⟨h.row, h.memory, fun stage hstage => ?_⟩
      rcases List.mem_append.mp hstage with hold | hnew
      · exact h.task stage hold
      · rw [List.mem_singleton] at hnew
        subst hnew
        exact weighs_start request
  | move i x =>
      obtain ⟨stage, next, shared, hstage, hresume, rfl⟩ := Pool.step_move.mp hstep
      have hassign : ∀ id p, stage = .writing (.update id p) → x.isFault = false →
          ∀ weight ∈ p.weight, 1 ≤ weight := by
        rintro id p rfl hfault weight hweight
        rw [Option.mem_def] at hweight
        simpa [keepsWeights, hstage, hfault, hweight] using hkeeps
      obtain ⟨hrow, hmemory, hnext⟩ := (resume_moves hresume).weighted h.row h.memory
        (h.task stage (List.mem_of_getElem? hstage)) hassign
      refine ⟨hrow, hmemory, fun other hother => ?_⟩
      obtain rfl | ⟨j, _, hj⟩ := Pool.mem_set hother
      · exact hnext
      · exact h.task other (List.mem_of_getElem? hj)

-- What PickALeg returns in a step.
def pickedBy (s : State) : Label → Option PickALegResponse
  | .spawn _ => none
  | .move i x =>
      match s.tasks[i]?, x with
      | some .picking, .done =>
          match pickALeg s.shared.aLegGateways with
          | .ok (response, _) => some response
          | .error _ => none
      | _, _ => none

-- What the calls of PickALeg return along a run.
def picksAlong (s : State) : List Label → List PickALegResponse
  | [] => []
  | l :: rest => (pickedBy s l).toList ++
      match step s l with
      | some next => picksAlong next rest
      | none => []

-- A step before which the gateway is healthy and enabled in memory, and which is
-- not the end of a reload.
def serves (id : Int64) (s : State) (l : Label) : Bool :=
  (s.shared.aLegGateways.any fun gw => gw.id = id && gw.isCandidate) &&
    match l with
    | .spawn _ => true
    | .move i _ => !(s.tasks[i]? matches some (.install _ _))

-- A step other than the end of a reload picks, flags, or leaves the memory alone.
theorem step_picks {s t : State} {l : Label} {id : Int64} (hserves : serves id s l = true)
    (hstep : step s l = some t) :
    (∃ response, pickedBy s l = some response ∧
      pickALeg s.shared.aLegGateways = .ok (response, t.shared.aLegGateways)) ∨
    pickedBy s l = none ∧ ((∃ other healthy,
      t.shared.aLegGateways = setHealthy other healthy s.shared.aLegGateways) ∨
      t.shared.aLegGateways = s.shared.aLegGateways) := by
  cases l with
  | spawn request =>
      cases hstep
      exact .inr ⟨rfl, .inr rfl⟩
  | move i x =>
      obtain ⟨stage, next, shared, hstage, hresume, rfl⟩ := Pool.step_move.mp hstep
      have hother : stage ≠ .picking → pickedBy s (.move i x) = none := by
        intro hne
        cases stage <;> simp_all [pickedBy]
      cases resume_moves hresume with
      | pick hpick =>
          cases x with
          | done => exact .inl ⟨_, by simp [pickedBy, hstage, hpick], hpick⟩
          | fault | inserted | checked => cases hresume
      | install gateways response => simp [serves, hstage] at hserves
      | flag manual other healthy => exact .inr ⟨hother (by simp), .inl ⟨other, healthy, rfl⟩⟩
      | write | load | query | check | skip => exact .inr ⟨hother (by simp), .inr rfl⟩
      | fail _ e =>
          by_cases hpicking : stage = .picking
          · subst hpicking
            cases hpick : pickALeg s.shared.aLegGateways with
            | ok result => cases x <;> simp [program, Stage.resume, hpick] at hresume
            | error e => exact .inr ⟨by cases x <;> simp [pickedBy, hstage, hpick], .inr rfl⟩
          · exact .inr ⟨hother hpicking, .inr rfl⟩

-- A candidate that is passed over gains from pick to pick, up to its bound.
theorem creditAt_passed_along {s u : State} {labels : List Label} {i : ℕ} {id : Int64}
    (hrun : Machine.run (Machine.restrict (serves id) step) s labels = some u)
    (hfair : Fair s.shared.aLegGateways) (hweight : ∀ gw ∈ s.shared.aLegGateways, 1 ≤ gw.weight)
    (hroomy : Roomy s.shared.aLegGateways) (hids : (s.shared.aLegGateways.map WeightedGateway.id).Nodup)
    (hplace : ∃ gw, s.shared.aLegGateways[i]? = some gw ∧ gw.id = id)
    (hpassed : ∀ response ∈ picksAlong s labels, response.gatewayID ≠ id) :
    creditAt s.shared.aLegGateways i + (picksAlong s labels).length ≤
      fullWeight s.shared.aLegGateways * (s.shared.aLegGateways.length - 1) := by
  induction labels generalizing s with
  | nil =>
      obtain ⟨gw, hgw, _⟩ := hplace
      have hle := hfair.within.le (mem_places.mpr ⟨gw, hgw⟩)
      simpa [picksAlong, places] using hle
  | cons l rest ih =>
      obtain ⟨next, hnext, hrest⟩ := Option.bind_eq_some_iff.mp hrun
      obtain ⟨hserves, hstep⟩ := Machine.restrict_eq_some.mp hnext
      have hkeep : ∀ after, SameWeights s.shared.aLegGateways after → next.shared.aLegGateways = after →
          Fair after → (∀ response ∈ picksAlong next rest, response.gatewayID ≠ id) →
          creditAt after i + (picksAlong next rest).length ≤
            fullWeight s.shared.aLegGateways * (s.shared.aLegGateways.length - 1) := by
        rintro after hsame rfl hafter hlater
        obtain ⟨gw, hgw, hid⟩ := hplace
        obtain ⟨kept, hkept, hkeptID, _⟩ := hsame.getElem hgw
        have hbound := ih hrest hafter (hsame.weight_iff.mpr hweight) (hsame.roomy_iff.mpr hroomy)
          (by rw [hsame.ids_eq]; exact hids) ⟨kept, hkept, hkeptID.trans hid⟩ hlater
        rw [hsame.fullWeight_eq, hsame.length_eq] at hbound
        exact hbound
      simp only [picksAlong, hstep] at hpassed ⊢
      obtain ⟨response, hpicked, hpick⟩ | ⟨hnone, hmemory⟩ := step_picks hserves hstep
      · rw [hpicked, Option.toList_some, List.singleton_append] at hpassed ⊢
        have hlater := hkeep _ (sameWeights_pickALeg hpick) rfl (fair_pickALeg hfair hweight hroomy hpick)
          fun other hother => hpassed other (List.mem_cons_of_mem _ hother)
        obtain ⟨gw, hgw, hid⟩ := hplace
        -- the entry that serves is the one at this place
        have hcandidate : gw.isCandidate = true := by
          simp only [serves, Bool.and_eq_true, List.any_eq_true, decide_eq_true_eq] at hserves
          obtain ⟨⟨other, hother, hotherID, hotherCandidate⟩, _⟩ := hserves
          have hsame : other = gw :=
            List.inj_on_of_nodup_map hids hother (List.mem_of_getElem? hgw) (hotherID.trans hid.symm)
          rw [← hsame]
          exact hotherCandidate
        have hgain := creditAt_passed hfair hweight hroomy hpick hgw hcandidate
          (by rw [hid]; exact hpassed response List.mem_cons_self)
        rw [List.length_cons]
        push_cast
        omega
      · rw [hnone, Option.toList_none, List.nil_append] at hpassed ⊢
        obtain ⟨other, healthy, hflag⟩ | hsame := hmemory
        · have hlater := hkeep _ (sameWeights_setHealthy other healthy _) hflag (fair_setHealthy hfair other healthy)
            hpassed
          rw [creditAt_setHealthy] at hlater
          exact hlater
        · exact hkeep _ rfl hsame hfair hpassed

theorem memory_ids (t : GatewayTable) {labels : List MemoryLabel} {gateways : List WeightedGateway}
    (hrun : Machine.run memoryStep (loadALegGateways t) labels = some gateways) :
    (gateways.map WeightedGateway.id).Nodup := by
  refine Machine.invariant (P := fun gateways => (gateways.map WeightedGateway.id).Nodup) ?_
    (load_distinct t) hrun
  intro gateways l after h hstep
  cases l with
  | pickALeg =>
      cases hstep
      cases hpick : pickALeg gateways with
      | error e => exact h
      | ok result =>
          simp only
          rw [(sameWeights_pickALeg hpick).ids_eq]
          exact h
  | setHealthy id healthy =>
      cases hstep
      rw [(sameWeights_setHealthy id healthy gateways).ids_eq]
      exact h
  | install t =>
      cases hstep
      exact load_distinct t

-- While no update writes a weight below 1, all weights are at least 1, and a gateway
-- in memory that stays healthy and enabled is among the picks before they are more
-- than twice what it can come to by being passed over.
theorem weights_positive {labels : List Label} {s : State}
    (hrun : Machine.run (Machine.restrict keepsWeights step) (initService .empty) labels = some s) :
    (∀ row ∈ s.shared.table.rows, 1 ≤ row.weight) ∧ (∀ gw ∈ s.shared.aLegGateways, 1 ≤ gw.weight) ∧
    ∀ gw ∈ s.shared.aLegGateways, Roomy s.shared.aLegGateways → ∀ more u,
      Machine.run (Machine.restrict (serves gw.id) step) s more = some u →
      2 * (fullWeight s.shared.aLegGateways * (s.shared.aLegGateways.length - 1)) < (picksAlong s more).length →
      ∃ response ∈ picksAlong s more, response.gatewayID = gw.id := by
  have hweighted : Weighted s := by
    refine Machine.restrict_invariant (fun s l t h hkeeps hstep => weighted_step h hkeeps hstep) ?_ hrun
    exact ⟨by simp [initService, Table.empty], by simp [initService, loadALegGateways, Table.empty],
      by simp [initService]⟩
  obtain ⟨above, habove⟩ := service_memory .empty (Machine.run_of_restrict hrun)
  refine ⟨hweighted.row, hweighted.memory, fun gw hgw hroomy more u hmore hmany => ?_⟩
  have hfair := memory_fair .empty habove hweighted.memory hroomy
  obtain ⟨i, hi⟩ := List.getElem?_of_mem hgw
  by_contra hnone
  have hpassed : ∀ response ∈ picksAlong s more, response.gatewayID ≠ gw.id :=
    fun response hresponse hid => hnone ⟨response, hresponse, hid⟩
  have hbound := creditAt_passed_along hmore hfair hweighted.memory hroomy (memory_ids .empty habove)
    ⟨gw, hi, rfl⟩ hpassed
  have hlower := hfair.within.ge hfair.sum (mem_places.mpr ⟨gw, hi⟩)
  have hcard : ((places s.shared.aLegGateways).card : ℤ) = s.shared.aLegGateways.length := by
    simp [places]
  rw [hcard] at hlower
  omega

-- A gateway is created with the weight it was given.
def createWeighing (weight : Int64) : List Label :=
  [.spawn (.createGateway operator ⟨"trunk", "a_leg", "10.0.0.1:5060", weight, none, none⟩),
    .move 0 (.inserted 1), .move 0 .done, .move 0 .done]

theorem weights_positive_created :
    ∃ s, Machine.run step (initService .empty) (createWeighing 0) = some s ∧
      (∀ gw ∈ s.shared.aLegGateways, 1 ≤ gw.weight) ∧
      ∃ response ∈ picksAlong s [.spawn .pickALeg, .move 1 .done], response.gatewayID = 1 := by
  have hrun : ∃ s, Machine.run (Machine.restrict keepsWeights step) (initService .empty) (createWeighing 0) =
      some s ∧
      s.shared.aLegGateways = [⟨1, "trunk", "10.0.0.1:5060", 1, 0, true, true⟩] ∧
      (∃ u, Machine.run (Machine.restrict (serves 1) step) s [.spawn .pickALeg, .move 1 .done] = some u) ∧
      (picksAlong s [.spawn .pickALeg, .move 1 .done]).length = 1 := by
    refine ⟨_, rfl, rfl, ⟨_, rfl⟩, rfl⟩
  obtain ⟨s, hs, hmemory, ⟨u, hu⟩, hlength⟩ := hrun
  obtain ⟨_, hweight, hpicked⟩ := weights_positive hs
  refine ⟨s, Machine.run_of_restrict hs, hweight, ?_⟩
  refine hpicked ⟨1, "trunk", "10.0.0.1:5060", 1, 0, true, true⟩ (by simp [hmemory])
    (by rw [hmemory]; decide) _ u hu ?_
  rw [hlength, hmemory]
  decide

-- UpdateGateway takes the weight as it is.
def starve : List Label :=
  createWeighing 1 ++ [.spawn (.updateGateway operator 1 ⟨none, none, some 0, none, none⟩), .move 1 .done,
    .move 1 .done, .move 1 .done]

theorem weight_zero : ∃ s row gw, Machine.run step (initService .empty) starve = some s ∧
    s.shared.table.rows = [row] ∧ s.shared.aLegGateways = [gw] ∧ row.weight = 0 ∧ gw.weight = 0 := by
  exact ⟨_, _, _, rfl, rfl, rfl, rfl, rfl⟩

end Bos3000.Routing
