import Bos3000.Routing.Moves

-- Health checks that interleave, against the same probes recorded one after another.
namespace Bos3000.Routing

-- What a probe makes of the failures and the flag of a gateway.
def serialCheck (maxFailures : Int64) (health : Int64 × Bool) (reachable : Bool) : Int64 × Bool :=
  if reachable then (0, true) else (health.1 + 1, health.1 + 1 < maxFailures)

def Gateway.health (row : Gateway) : Int64 × Bool := (row.healthCheckFailures, row.healthy)

-- Only health checks run.
def onlyChecks (_ : State) : Label → Bool
  | .spawn .runHealthCheck | .spawn (.manualHealthCheck _ _) | .move _ _ => true
  | .spawn _ => false

def checkStep : State → Label → Option State := Machine.restrict onlyChecks step

-- A check that counts a failure has read the failures that the row still has.
def countsFresh (s : State) : Label → Bool
  | .move i (.checked false false) =>
      match s.tasks[i]? with
      | some (.checking _ gw _ _) =>
          (s.shared.table.find gw.id).all fun row => row.healthCheckFailures = gw.failures
      | _ => true
  | _ => true

-- The probe of the gateway that a step records in the table.
def recorded (id : Int64) (s : State) : Label → Option Bool
  | .move i (.checked reachable false) =>
      match s.tasks[i]? with
      | some (.checking _ gw _ _) => if gw.id = id then some reachable else none
      | _ => none
  | _ => none

-- The probes of the gateway along a run, in the order in which they were recorded.
def probesAlong (id : Int64) (s : State) : List Label → List Bool
  | [] => []
  | l :: rest => (recorded id s l).toList ++
      match step s l with
      | some next => probesAlong id next rest
      | none => []

-- The gateways that a check still has to probe.
def Stage.toProbe : Stage → List GatewayInfo
  | .checking _ gw pending _ => gw :: pending
  | .flagging _ _ _ pending _ => pending
  | _ => []

-- What a check has read of a gateway, other than its failures, is what the row has.
def ReadOf (t : GatewayTable) (gw : GatewayInfo) : Prop :=
  ∃ row, t.find gw.id = some row ∧ row.maxHealthFailures = gw.maxFailures

-- A health check somewhere in its round.
structure Stage.ChecksOf (t : GatewayTable) (stage : Stage) : Prop where
  reads : ∀ gw ∈ stage.toProbe, ReadOf t gw
  other : ∀ statement, stage ≠ .writing statement

theorem checksOf_turn {t : GatewayTable} (manual : Bool) (results : List HealthCheckResult)
    {pending : List GatewayInfo} (h : ∀ gw ∈ pending, ReadOf t gw) :
    (Stage.turn manual results pending).ChecksOf t := by
  cases pending with
  | nil => exact ⟨by simp [Stage.turn, Stage.toProbe], by simp [Stage.turn]⟩
  | cons gw rest => exact ⟨h, by simp [Stage.turn]⟩

theorem readOf_info {t : GatewayTable} {row : Gateway} (h : row ∈ t.rows) : ReadOf t row.info :=
  ⟨row, Table.find_eq_some.mpr ⟨h, rfl⟩, rfl⟩

theorem ReadOf.record {t : GatewayTable} {gw : GatewayInfo} (h : ReadOf t gw) (other : GatewayInfo)
    (reachable : Bool) : ReadOf (t.update other.id (other.record reachable) (record_id other reachable)) gw := by
  obtain ⟨row, hfind, hmax⟩ := h
  refine ⟨_, by rw [Table.find_update, hfind, Option.map_some], ?_⟩
  split <;> exact hmax

theorem checksOf_start {request : Request} {s : State} (h : onlyChecks s (.spawn request) = true)
    (t : GatewayTable) : request.start.ChecksOf t := by
  cases request with
  | runHealthCheck => exact ⟨by simp [Request.start, Stage.toProbe], by simp [Request.start]⟩
  | manualHealthCheck auth id =>
      simp only [Request.start]
      split <;> exact ⟨by simp [Stage.toProbe], by simp⟩
  | pickALeg | createGateway | updateGateway | toggleGateway => cases h

theorem query_resume {s t : Service} {only : Option Int64} {next : Stage} {x : Answer}
    (h : (Stage.query only).resume s x = some (next, t)) :
    t = s ∧ next.ChecksOf s.table := by
  have hreturned : ∀ e : APIError, (Stage.returned (.error e)).ChecksOf s.table :=
    fun e => ⟨by simp [Stage.toProbe], by simp⟩
  cases x with
  | done =>
      cases only with
      | none =>
          cases h
          refine ⟨rfl, checksOf_turn _ _ fun gw hgw => ?_⟩
          obtain ⟨row, hrow, rfl⟩ := List.mem_map.mp hgw
          rw [List.mem_insertionSort] at hrow
          exact readOf_info (List.mem_filter.mp hrow).1
      | some id =>
          simp only [Stage.resume] at h
          cases hfind : s.table.find id with
          | none =>
              rw [hfind] at h
              cases h
              exact ⟨rfl, hreturned _⟩
          | some row =>
              rw [hfind] at h
              cases h
              refine ⟨rfl, checksOf_turn _ _ fun gw hgw => ?_⟩
              rw [List.mem_singleton] at hgw
              subst hgw
              exact readOf_info (Table.find_eq_some.mp hfind).1
  | fault e => cases only <;> cases h <;> exact ⟨rfl, hreturned _⟩
  | inserted | checked => cases only <;> cases h

-- A check either records its probe, or its UPDATE fails and changes nothing.
theorem checking_resume {s t : Service} {manual : Bool} {gw : GatewayInfo} {pending : List GatewayInfo}
    {results : List HealthCheckResult} {next : Stage} {x : Answer}
    (h : (Stage.checking manual gw pending results).resume s x = some (next, t)) :
    ∃ reachable fault, x = .checked reachable fault ∧
      t = (if fault then s else
        { s with table := s.table.update gw.id (gw.record reachable) (record_id gw reachable) }) ∧
      (∀ other ∈ next.toProbe, other ∈ pending) ∧ ∀ statement, next ≠ .writing statement := by
  have hturn : ∀ manual results, (∀ other ∈ (Stage.turn manual results pending).toProbe, other ∈ pending) ∧
      ∀ statement, Stage.turn manual results pending ≠ .writing statement := by
    intro manual results
    cases pending <;> simp [Stage.turn, Stage.toProbe]
  cases x with
  | checked reachable fault =>
      refine ⟨reachable, fault, rfl, ?_⟩
      cases fault with
      | true =>
          cases manual with
          | true =>
              cases h
              exact ⟨rfl, by simp [Stage.toProbe], by simp⟩
          | false =>
              cases h
              exact ⟨rfl, hturn _ _⟩
      | false =>
          simp only [Stage.resume, Bool.false_eq_true, if_false] at h ⊢
          split at h <;> cases h
          · exact ⟨rfl, by simp [Stage.toProbe], by simp⟩
          · exact ⟨rfl, hturn _ _⟩
  | done | fault | inserted => cases h

theorem Stage.ChecksOf.resume {s t : Service} {stage next : Stage} {x : Answer} (h : stage.ChecksOf s.table)
    (hresume : stage.resume s x = some (next, t)) :
    (t.table = s.table ∧ next.ChecksOf s.table ∧
      ((∀ manual gw pending results, stage ≠ .checking manual gw pending results) ∨
        ∃ reachable, x = .checked reachable true)) ∨
    ∃ manual gw pending results reachable, stage = .checking manual gw pending results ∧
      x = .checked reachable false ∧
      t.table = s.table.update gw.id (gw.record reachable) (record_id gw reachable) ∧ next.ChecksOf t.table := by
  cases stage with
  | writing statement => exact absurd rfl (h.other statement)
  | query only =>
      obtain ⟨rfl, hnext⟩ := query_resume hresume
      exact .inl ⟨rfl, hnext, .inl (by simp)⟩
  | checking manual gw pending results =>
      obtain ⟨reachable, fault, rfl, ht, hprobes, hother⟩ := checking_resume hresume
      have hpending : ∀ other ∈ next.toProbe, ReadOf s.table other := fun other hmem =>
        h.reads other (List.mem_cons_of_mem _ (hprobes other hmem))
      cases fault with
      | true =>
          rw [if_pos rfl] at ht
          subst ht
          exact .inl ⟨rfl, ⟨hpending, hother⟩, .inr ⟨reachable, rfl⟩⟩
      | false =>
          rw [if_neg (by simp)] at ht
          subst ht
          refine .inr ⟨manual, gw, pending, results, reachable, rfl, rfl, rfl, ?_, hother⟩
          exact fun other hmem => (hpending other hmem).record gw reachable
  | flagging manual id healthy pending results =>
      cases x with
      | done =>
          cases hresume
          exact .inl ⟨rfl, checksOf_turn _ _ h.reads, .inl (by simp)⟩
      | fault | inserted | checked => cases hresume
  | picking | reload | install | returned =>
      refine .inl ?_
      cases resume_moves hresume <;> exact ⟨rfl, ⟨by simp [Stage.toProbe], by simp⟩, .inl (by simp)⟩

theorem recorded_eq_none {s : State} {i : Nat} {stage : Stage} (hstage : s.tasks[i]? = some stage)
    (hnot : ∀ manual gw pending results, stage ≠ .checking manual gw pending results) (id : Int64) (x : Answer) :
    recorded id s (.move i x) = none := by
  cases x with
  | checked reachable fault =>
      cases stage with
      | checking manual gw pending results => exact absurd rfl (hnot manual gw pending results)
      | _ => cases fault <;> simp [recorded, hstage]
  | done | fault | inserted => rfl

-- One step: the invariant of the checks, and what becomes of the gateway.
theorem checkStep_health {s t : State} {l : Label}
    (hchecks : ∀ stage ∈ s.tasks, stage.ChecksOf s.shared.table) (hfresh : countsFresh s l = true)
    (hstep : checkStep s l = some t) :
    (∀ stage ∈ t.tasks, stage.ChecksOf t.shared.table) ∧
    ∀ id row, s.shared.table.find id = some row → ∃ after, t.shared.table.find id = some after ∧
      after.maxHealthFailures = row.maxHealthFailures ∧
      after.health = (recorded id s l).toList.foldl (serialCheck row.maxHealthFailures) row.health := by
  obtain ⟨hallowed, hstep⟩ := Machine.restrict_eq_some.mp hstep
  cases l with
  | spawn request =>
      cases hstep
      refine ⟨fun stage hstage => ?_, fun id row hfind => ⟨row, hfind, rfl, rfl⟩⟩
      rcases List.mem_append.mp hstage with hold | hnew
      · exact hchecks stage hold
      · rw [List.mem_singleton] at hnew
        subst hnew
        exact checksOf_start hallowed _
  | move i x =>
      obtain ⟨stage, next, shared, hstage, hresume, rfl⟩ := Pool.step_move.mp hstep
      obtain ⟨htable, hnext, hother⟩ | ⟨manual, gw, pending, results, reachable, rfl, rfl, htable, hnext⟩ :=
        (hchecks stage (List.mem_of_getElem? hstage)).resume hresume
      · simp only [htable]
        refine ⟨fun other hmem => ?_, fun id row hfind => ⟨row, hfind, rfl, ?_⟩⟩
        · obtain rfl | ⟨j, _, hj⟩ := Pool.mem_set hmem
          · exact hnext
          · exact hchecks other (List.mem_of_getElem? hj)
        · have hnone : recorded id s (.move i x) = none := by
            obtain hnot | ⟨reachable, rfl⟩ := hother
            · exact recorded_eq_none hstage hnot id x
            · rfl
          rw [hnone]
          rfl
      · refine ⟨fun other hmem => ?_, fun id row hfind => ?_⟩
        · obtain rfl | ⟨j, _, hj⟩ := Pool.mem_set hmem
          · exact hnext
          · have hold := hchecks other (List.mem_of_getElem? hj)
            simp only [htable]
            exact ⟨fun gw' hgw' => (hold.reads gw' hgw').record gw reachable, hold.other⟩
        · simp only [htable, Table.find_update, hfind, Option.map_some]
          obtain ⟨read, hread, hmax⟩ :=
            (hchecks _ (List.mem_of_getElem? hstage)).reads gw List.mem_cons_self
          by_cases hid : id = gw.id
          · subst hid
            cases hfind.symm.trans hread
            refine ⟨gw.record reachable row, by rw [if_pos rfl], rfl, ?_⟩
            have hrecorded : recorded gw.id s (.move i (.checked reachable false)) = some reachable := by
              simp [recorded, hstage]
            rw [hrecorded]
            cases reachable with
            | true => simp [Gateway.health, GatewayInfo.record, GatewayInfo.check, serialCheck]
            | false =>
                have hcurrent : row.healthCheckFailures = gw.failures := by
                  simpa [countsFresh, hstage, hfind] using hfresh
                simp [Gateway.health, GatewayInfo.record, GatewayInfo.check, serialCheck, hcurrent, hmax]
          · have hnone : recorded id s (.move i (.checked reachable false)) = none := by
              simp [recorded, hstage, Ne.symm hid]
            refine ⟨row, by rw [if_neg hid], rfl, ?_⟩
            rw [hnone]
            rfl

-- Failures that no success interrupts add up.
theorem serialCheck_failures (maxFailures : Int64) (health : Int64 × Bool) (k : Nat) :
    ((List.replicate k false).foldl (serialCheck maxFailures) health).1 = health.1 + Int64.ofNat k := by
  induction k generalizing health with
  | zero => simp
  | succ k ih =>
      rw [List.replicate_succ, List.foldl_cons, ih, Int64.ofNat_add]
      simp only [serialCheck, Bool.false_eq_true, if_false]
      rw [Int64.add_assoc, Int64.add_comm 1]
      rfl

theorem checks_from {s t : State} {labels : List Label}
    (hrun : Machine.run (Machine.restrict countsFresh checkStep) s labels = some t)
    (hchecks : ∀ stage ∈ s.tasks, stage.ChecksOf s.shared.table) {id : Int64} {row : Gateway}
    (hrow : s.shared.table.find id = some row) :
    ∃ after, t.shared.table.find id = some after ∧
      after.health = (probesAlong id s labels).foldl (serialCheck row.maxHealthFailures) row.health := by
  induction labels generalizing s row with
  | nil =>
      cases hrun
      exact ⟨row, hrow, rfl⟩
  | cons l rest ih =>
      obtain ⟨next, hnext, hrest⟩ := Option.bind_eq_some_iff.mp hrun
      obtain ⟨hfresh, hstep⟩ := Machine.restrict_eq_some.mp hnext
      obtain ⟨hchecks', hhealth⟩ := checkStep_health hchecks hfresh hstep
      obtain ⟨middle, hmiddle, hmax, hmiddleHealth⟩ := hhealth id row hrow
      obtain ⟨after, hafter, hafterHealth⟩ := ih hrest hchecks' hmiddle
      refine ⟨after, hafter, ?_⟩
      rw [hafterHealth, hmiddleHealth, hmax, probesAlong, (Machine.restrict_eq_some.mp hstep).2, List.foldl_append]

-- Where no check counts a failure on top of failures that are not there any more,
-- the gateway ends as if its probes had been made one after another, in the order
-- in which they were recorded.
theorem checks_serial {t : GatewayTable} {labels : List Label} {s : State}
    (hrun : Machine.run (Machine.restrict countsFresh checkStep) (initService t) labels = some s)
    {id : Int64} {row : Gateway} (hrow : t.find id = some row) :
    ∃ after, s.shared.table.find id = some after ∧
      after.health = (probesAlong id (initService t) labels).foldl (serialCheck row.maxHealthFailures) row.health ∧
      (∀ k, probesAlong id (initService t) labels = List.replicate k false →
        after.healthCheckFailures = row.healthCheckFailures + Int64.ofNat k) ∧
      ∀ before k, probesAlong id (initService t) labels = before ++ true :: List.replicate k false →
        after.healthCheckFailures = Int64.ofNat k := by
  obtain ⟨after, hafter, hhealth⟩ := checks_from hrun (by simp [initService]) hrow
  have hfailures : after.healthCheckFailures = after.health.1 := rfl
  refine ⟨after, hafter, hhealth, fun k hk => ?_, fun before k hk => ?_⟩
  · rw [hfailures, hhealth, hk, serialCheck_failures]
    rfl
  · rw [hfailures, hhealth, hk, List.foldl_append, List.foldl_cons, serialCheck_failures]
    simp [serialCheck]

def oneGateway : GatewayTable where
  rows := [⟨1, "trunk", .b_leg, "10.0.0.1:5060", 1, true, true, none, 0, 2⟩]
  distinct := List.nodup_singleton _

-- The periodic check fails, then the one on demand.
def checksInTurn : List Label :=
  [.spawn .runHealthCheck, .move 0 .done, .move 0 (.checked false false),
    .spawn (.manualHealthCheck operator 1), .move 1 .done, .move 1 (.checked false false)]

theorem checks_serial_inTurn :
    ∃ s after, Machine.run checkStep (initService oneGateway) checksInTurn = some s ∧
      s.shared.table.find 1 = some after ∧ after.healthCheckFailures = 0 + Int64.ofNat 2 := by
  have hrun : ∃ s, Machine.run (Machine.restrict countsFresh checkStep) (initService oneGateway) checksInTurn =
      some s := ⟨_, rfl⟩
  obtain ⟨s, hs⟩ := hrun
  obtain ⟨after, hafter, _, hadds, _⟩ := @checks_serial _ _ _ hs 1 _ rfl
  exact ⟨s, after, Machine.run_of_restrict hs, hafter, hadds 2 rfl⟩

-- Both checks read the failures before either counts its own.
def checksOverlap : List Label :=
  [.spawn .runHealthCheck, .move 0 .done, .spawn (.manualHealthCheck operator 1), .move 1 .done,
    .move 0 (.checked false false), .move 1 (.checked false false)]

theorem failure_lost : ∃ s after, Machine.run checkStep (initService oneGateway) checksOverlap = some s ∧
    s.shared.table.find 1 = some after ∧ probesAlong 1 (initService oneGateway) checksOverlap = [false, false] ∧
    after.health = (1, true) ∧
    ∀ probes : List Bool, probes.Perm [false, false] → after.health ≠ probes.foldl (serialCheck 2) (0, true) := by
  refine ⟨_, _, rfl, rfl, rfl, rfl, fun probes hperm => ?_⟩
  have hboth : probes = List.replicate 2 false := List.perm_replicate.mp hperm
  subst hboth
  decide

end Bos3000.Routing
