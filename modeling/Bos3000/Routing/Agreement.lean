import Bos3000.Routing.Moves

-- Whether the gateways in memory are those of the table once every request has
-- returned.
namespace Bos3000.Routing

-- aLegGateways holds one entry for each a_leg row, with the values of the row.
structure Mirrors (s : Service) : Prop where
  ids : (s.aLegGateways.map WeightedGateway.id).Perm ((aLegRows s.table).map Gateway.id)
  entry : ∀ gw ∈ s.aLegGateways, ∃ row ∈ aLegRows s.table, row.id = gw.id ∧ row.weight = gw.weight ∧
    row.sipAddress = gw.sipAddress ∧ row.enabled = gw.enabled ∧ row.healthy = gw.healthy

-- The same, where the health of these gateways may differ.
structure MirrorsBut (stale : Int64 → Prop) (s : Service) : Prop where
  ids : (s.aLegGateways.map WeightedGateway.id).Perm ((aLegRows s.table).map Gateway.id)
  entry : ∀ gw ∈ s.aLegGateways, ∃ row ∈ aLegRows s.table, row.id = gw.id ∧ row.weight = gw.weight ∧
    row.sipAddress = gw.sipAddress ∧ row.enabled = gw.enabled ∧ (row.healthy = gw.healthy ∨ stale gw.id)

theorem MirrorsBut.mono {stale more : Int64 → Prop} {s : Service} (h : MirrorsBut stale s)
    (himp : ∀ id, stale id → more id) : MirrorsBut more s where
  ids := h.ids
  entry := by
    intro gw hgw
    obtain ⟨row, hrow, hid, hweight, hsip, henabled, hhealthy⟩ := h.entry gw hgw
    exact ⟨row, hrow, hid, hweight, hsip, henabled, hhealthy.imp_right (himp gw.id)⟩

theorem MirrorsBut.mirrors {stale : Int64 → Prop} {s : Service} (h : MirrorsBut stale s)
    (hnone : ∀ id, ¬ stale id) : Mirrors s where
  ids := h.ids
  entry := by
    intro gw hgw
    obtain ⟨row, hrow, hid, hweight, hsip, henabled, hhealthy⟩ := h.entry gw hgw
    exact ⟨row, hrow, hid, hweight, hsip, henabled, hhealthy.resolve_right (hnone gw.id)⟩

theorem mirrorsBut_load (stale : Int64 → Prop) (t : GatewayTable) :
    MirrorsBut stale ⟨t, loadALegGateways t⟩ where
  ids := by
    simp only [loadALegGateways, List.map_map]
    exact (List.perm_insertionSort _ _).map Gateway.id
  entry := by
    intro gw hgw
    obtain ⟨row, hrow, rfl⟩ := List.mem_map.mp hgw
    rw [List.mem_insertionSort] at hrow
    exact ⟨row, hrow, rfl, rfl, rfl, rfl, .inl rfl⟩

theorem MirrorsBut.ids_nodup {stale : Int64 → Prop} {s : Service} (h : MirrorsBut stale s) :
    (s.aLegGateways.map WeightedGateway.id).Nodup := by
  rw [h.ids.nodup_iff]
  exact s.table.distinct.sublist (List.filter_sublist.map Gateway.id)

-- Statements that leave the A-leg rows alone, and picks, keep the agreement.
theorem MirrorsBut.of_aLegRows {stale : Int64 → Prop} {s : Service} {table : GatewayTable}
    (h : MirrorsBut stale s) (hrows : aLegRows table = aLegRows s.table) :
    MirrorsBut stale { s with table } where
  ids := by
    rw [hrows]
    exact h.ids
  entry := by
    rw [hrows]
    exact h.entry

theorem reweighs_ids {gateways after : List WeightedGateway} (h : List.Forall₂ Reweighs gateways after) :
    after.map WeightedGateway.id = gateways.map WeightedGateway.id := by
  induction h with
  | nil => rfl
  | cons hfirst _ ih => rw [List.map_cons, List.map_cons, ih, hfirst.fields]

theorem reweighs_mem {gateways after : List WeightedGateway} (h : List.Forall₂ Reweighs gateways after)
    {gw : WeightedGateway} (hgw : gw ∈ after) :
    ∃ old ∈ gateways, gw = { old with currentWeight := gw.currentWeight } := by
  induction h with
  | nil => cases hgw
  | cons hfirst _ ih =>
      rcases List.mem_cons.mp hgw with rfl | hrest
      · exact ⟨_, List.mem_cons_self .., hfirst.fields⟩
      · obtain ⟨old, hold, heq⟩ := ih hrest
        exact ⟨old, List.mem_cons_of_mem _ hold, heq⟩

theorem MirrorsBut.pick {stale : Int64 → Prop} {s : Service} {after : List WeightedGateway}
    (h : MirrorsBut stale s) (hweights : List.Forall₂ Reweighs s.aLegGateways after) :
    MirrorsBut stale { s with aLegGateways := after } where
  ids := by
    rw [reweighs_ids hweights]
    exact h.ids
  entry := by
    intro gw hgw
    obtain ⟨old, hold, heq⟩ := reweighs_mem hweights hgw
    rw [heq]
    exact h.entry old hold

-- The check of a gateway leaves its flag in memory behind.
theorem MirrorsBut.check {stale : Int64 → Prop} {s : Service} (h : MirrorsBut stale s) (id : Int64)
    {assign : Gateway → Gateway} (hassign : ∀ row, (assign row).id = row.id)
    (hfields : ∀ row, (assign row).type = row.type ∧ (assign row).weight = row.weight ∧
      (assign row).sipAddress = row.sipAddress ∧ (assign row).enabled = row.enabled) :
    MirrorsBut (fun other => stale other ∨ other = id) { s with table := s.table.update id assign hassign } where
  ids := by
    have hids : (aLegRows (s.table.update id assign hassign)).map Gateway.id =
        (aLegRows s.table).map Gateway.id := by
      rw [aLegRows_update fun row => (hfields row).1, List.map_map]
      apply List.map_congr_left
      intro row _
      by_cases hid : row.id = id <;> simp [hid, hassign]
    rw [hids]
    exact h.ids
  entry := by
    intro gw hgw
    obtain ⟨row, hrow, hid, hweight, hsip, henabled, hhealthy⟩ := h.entry gw hgw
    rw [aLegRows_update fun row => (hfields row).1]
    refine ⟨_, List.mem_map_of_mem hrow, ?_⟩
    by_cases hrowID : row.id = id
    · obtain ⟨_, hweight', hsip', henabled'⟩ := hfields row
      rw [if_pos hrowID, hassign, hweight', hsip', henabled']
      exact ⟨hid, hweight, hsip, henabled, .inr (.inr (hid ▸ hrowID))⟩
    · rw [if_neg hrowID]
      exact ⟨hid, hweight, hsip, henabled, hhealthy.imp_right .inl⟩

theorem map_id_setHealthy (id : Int64) (healthy : Bool) (gateways : List WeightedGateway) :
    (setHealthy id healthy gateways).map WeightedGateway.id = gateways.map WeightedGateway.id := by
  induction gateways with
  | nil => rfl
  | cons gw rest ih =>
      unfold setHealthy
      split <;> simp [ih]

theorem mem_setHealthy {id : Int64} {healthy : Bool} {gateways : List WeightedGateway}
    (hids : (gateways.map WeightedGateway.id).Nodup) {gw : WeightedGateway}
    (h : gw ∈ setHealthy id healthy gateways) :
    gw ∈ gateways ∧ gw.id ≠ id ∨ ∃ old ∈ gateways, old.id = id ∧ gw = { old with healthy } := by
  induction gateways with
  | nil => cases h
  | cons first rest ih =>
      simp only [List.map_cons, List.nodup_cons, List.mem_map, not_exists, not_and] at hids
      unfold setHealthy at h
      by_cases hid : first.id = id
      · rw [if_pos hid] at h
        rcases List.mem_cons.mp h with rfl | hrest
        · exact .inr ⟨first, List.mem_cons_self .., hid, rfl⟩
        · refine .inl ⟨List.mem_cons_of_mem _ hrest, fun hsame => ?_⟩
          exact hids.1 gw hrest (hsame.trans hid.symm)
      · rw [if_neg hid] at h
        rcases List.mem_cons.mp h with rfl | hrest
        · exact .inl ⟨List.mem_cons_self .., hid⟩
        · obtain ⟨hmem, hne⟩ | ⟨old, hold, hsame, heq⟩ := ih hids.2 hrest
          · exact .inl ⟨List.mem_cons_of_mem _ hmem, hne⟩
          · exact .inr ⟨old, List.mem_cons_of_mem _ hold, hsame, heq⟩

-- The flag write of a check makes up for it, if it writes what the row says.
theorem MirrorsBut.flag {stale after : Int64 → Prop} {s : Service} {id : Int64} {healthy : Bool}
    (h : MirrorsBut stale s) (hother : ∀ other, stale other → other ≠ id → after other)
    (hid : after id ∨ ∃ row ∈ s.table.rows, row.id = id ∧ row.healthy = healthy) :
    MirrorsBut after { s with aLegGateways := setHealthy id healthy s.aLegGateways } where
  ids := by
    rw [map_id_setHealthy]
    exact h.ids
  entry := by
    intro gw hgw
    obtain ⟨hmem, hne⟩ | ⟨old, hold, hsame, rfl⟩ := mem_setHealthy h.ids_nodup hgw
    · obtain ⟨row, hrow, hrowID, hweight, hsip, henabled, hhealthy⟩ := h.entry gw hmem
      exact ⟨row, hrow, hrowID, hweight, hsip, henabled, hhealthy.imp_right fun hstale => hother gw.id hstale hne⟩
    · obtain ⟨row, hmem, hrowID, hweight, hsip, henabled, _⟩ := h.entry old hold
      refine ⟨row, hmem, hrowID, hweight, hsip, henabled, ?_⟩
      obtain hstale | ⟨checked, hchecked, hcheckedID, hhealthy⟩ := hid
      · exact .inr (hsame ▸ hstale)
      · have heq := s.table.row_unique (mem_aLegRows.mp hmem).1 hchecked ((hrowID.trans hsame).trans hcheckedID.symm)
        exact .inl (heq ▸ hhealthy)

-- A gateway with its health left out where a flag is to be set.
def WeightedGateway.blank (flagged : Int64 → Bool) (gw : WeightedGateway) : WeightedGateway :=
  if flagged gw.id then { gw with healthy := true } else gw

theorem blank_eq {flagged : Int64 → Bool} {gw other : WeightedGateway} (h : gw.blank flagged = other.blank flagged) :
    gw.id = other.id ∧ gw.weight = other.weight ∧ gw.sipAddress = other.sipAddress ∧
      gw.enabled = other.enabled ∧
      (gw.healthy = other.healthy ∨ flagged gw.id = true) := by
  have hid : ∀ gw : WeightedGateway, (gw.blank flagged).id = gw.id := by
    intro gw
    unfold WeightedGateway.blank
    split <;> rfl
  have hsame : gw.id = other.id := by rw [← hid gw, ← hid other, h]
  unfold WeightedGateway.blank at h
  rw [← hsame] at h
  by_cases hflagged : flagged gw.id = true
  · rw [if_pos hflagged, if_pos hflagged] at h
    simp only [WeightedGateway.mk.injEq] at h
    obtain ⟨_, _, hsip, hweight, _, _, henabled⟩ := h
    exact ⟨hsame, hweight, hsip, henabled, .inr hflagged⟩
  · rw [if_neg hflagged, if_neg hflagged] at h
    cases h
    exact ⟨rfl, rfl, rfl, rfl, .inl rfl⟩

-- A snapshot that the table bears out is as good as one of now.
theorem mirrorsBut_of_blank {flagged : Int64 → Bool} {t : GatewayTable} {gateways : List WeightedGateway}
    (h : gateways.map (WeightedGateway.blank flagged) =
      (loadALegGateways t).map (WeightedGateway.blank flagged)) :
    MirrorsBut (fun id => flagged id = true) ⟨t, gateways⟩ where
  ids := by
    have hid : (WeightedGateway.id ∘ WeightedGateway.blank flagged) = WeightedGateway.id := by
      funext gw
      simp only [Function.comp_def, WeightedGateway.blank]
      split <;> rfl
    have hids := congrArg (List.map WeightedGateway.id) h
    rw [List.map_map, List.map_map, hid] at hids
    rw [hids]
    exact (mirrorsBut_load (fun _ => False) t).ids
  entry := by
    intro gw hgw
    have hmem : gw.blank flagged ∈ (loadALegGateways t).map (WeightedGateway.blank flagged) :=
      h ▸ List.mem_map_of_mem hgw
    obtain ⟨loaded, hloaded, heq⟩ := List.mem_map.mp hmem
    obtain ⟨hid, hweight, hsip, henabled, hhealthy⟩ := blank_eq heq.symm
    obtain ⟨row, hrow, hrowID, hrowWeight, hrowSip, hrowEnabled, hrowHealthy⟩ :=
      (mirrorsBut_load (fun _ => False) t).entry loaded hloaded
    refine ⟨row, hrow, hrowID.trans hid.symm, hrowWeight.trans hweight.symm, hrowSip.trans hsip.symm,
      hrowEnabled.trans henabled.symm, ?_⟩
    exact hhealthy.imp_left fun hsame => (hrowHealthy.resolve_right id).trans hsame.symm

-- The gateways that a check has listed are rows of the table.
def Stage.Knows (t : GatewayTable) : Stage → Prop
  | .checking _ gw pending _ => ∀ listed ∈ gw :: pending, Lists t listed
  | .flagging _ _ _ pending _ => ∀ listed ∈ pending, Lists t listed
  | _ => True

def Stage.isReturned : Stage → Bool
  | .returned _ => true
  | _ => false

-- A step in memory that goes by an older state of the table than the present one is
-- not the last of its kind: another request is still to install what it loads, or to
-- set the flag of the gateway.
def inOrder (s : State) : Label → Bool
  | .spawn _ => true
  | .move i _ => (s.tasks[i]?).all fun stage =>
      let others := s.tasks.eraseIdx i
      match stage with
      | .install gateways _ =>
          let blank := WeightedGateway.blank fun id => others.any fun other => other.flags id
          others.any Stage.reloads || gateways.map blank = (loadALegGateways s.shared.table).map blank
      | .flagging _ id healthy _ _ =>
          (others.any fun other => other.flags id) ||
            (s.shared.table.find id).any fun row => row.healthy = healthy
      | _ => true

def succeeds : Label → Bool
  | .spawn _ => true
  | .move _ x => !x.isFault

def idle (s : State) : Bool := s.tasks.all Stage.isReturned

theorem Lists.keeps {t u : GatewayTable} {gw : GatewayInfo} (h : Lists t gw) (hkeeps : Keeps t u) : Lists u gw := by
  obtain ⟨row, hrow, hid, htype⟩ := h
  obtain ⟨next, hnext, hid', htype'⟩ := hkeeps.row row hrow
  exact ⟨next, hnext, hid'.trans hid, htype'.trans htype⟩

theorem Stage.Knows.keeps {t u : GatewayTable} {stage : Stage} (h : stage.Knows t) (hkeeps : Keeps t u) :
    stage.Knows u := by
  cases stage with
  | checking => exact fun listed hlisted => (h listed hlisted).keeps hkeeps
  | flagging => exact fun listed hlisted => (h listed hlisted).keeps hkeeps
  | picking | writing | reload | install | query | returned => trivial

theorem knows_turn {t : GatewayTable} {pending : List GatewayInfo} (manual : Bool)
    (results : List HealthCheckResult) (h : ∀ gw ∈ pending, Lists t gw) :
    (Stage.turn manual results pending).Knows t := by
  cases pending with
  | nil => trivial
  | cons gw pending => exact h

theorem keeps_record (t : GatewayTable) (gw : GatewayInfo) (reachable : Bool) :
    Keeps t (t.update gw.id (gw.record reachable) (record_id gw reachable)) := keeps_update fun _ => rfl

theorem aLegRows_record {t : GatewayTable} {gw : GatewayInfo} (reachable : Bool) (h : Lists t gw)
    (hleg : gw.type ≠ .a_leg) :
    aLegRows (t.update gw.id (gw.record reachable) (record_id gw reachable)) = aLegRows t := by
  obtain ⟨row, hrow, hid, htype⟩ := h
  rw [← htype] at hleg
  exact aLegRows_update_other (fun _ => rfl) hrow hid hleg

section Step

variable {s t : Service} {x : Answer} {stage next : Stage}

theorem Moves.knows_next (h : Moves s x stage next t) (hknows : stage.Knows s.table) :
    next.Knows t.table := by
  cases h with
  | pick | fail | install | load => trivial
  | write => split <;> trivial
  | query only manual hlists => exact knows_turn _ _ hlists
  | check manual gw pending results reachable =>
      have hkeeps := keeps_record s.table gw reachable
      have hpending : ∀ listed ∈ pending,
          Lists (s.table.update gw.id (gw.record reachable) (record_id gw reachable)) listed :=
        fun listed hlisted => (hknows listed (List.mem_cons_of_mem _ hlisted)).keeps hkeeps
      split
      · exact hpending
      · exact knows_turn _ _ hpending
  | skip manual gw pending results =>
      exact knows_turn _ _ fun listed hlisted => hknows listed (List.mem_cons_of_mem _ hlisted)
  | flag manual id healthy pending results => exact knows_turn _ _ hknows

-- Rows stay, so what another request has listed stays listed.
theorem Moves.knows_other (h : Moves s x stage next t) {other : Stage} (hother : other.Knows s.table) :
    other.Knows t.table := by
  cases h with
  | pick | load | install | query | skip | flag | fail => exact hother
  | write hexec => exact hother.keeps (Write.exec_keeps hexec).1
  | check manual gw pending results reachable => exact hother.keeps (keeps_record s.table gw reachable)

-- Whether a step in memory goes by the table as it is, but for the stale flags.
def Stage.UpToDate (stale : Int64 → Prop) (t : GatewayTable) : Stage → Prop
  | .install gateways _ => MirrorsBut stale ⟨t, gateways⟩
  | .flagging _ id healthy _ _ => stale id ∨ ∃ row ∈ t.rows, row.id = id ∧ row.healthy = healthy
  | _ => True

-- The agreement after a move, as far as the stale flags of the other requests go.
theorem Moves.mirrors (h : Moves s x stage next t) (hknows : stage.Knows s.table)
    (hfault : x.isFault = false) (hnext : next.reloads = false) {stale : Int64 → Prop}
    (hcurrent : stage.UpToDate stale s.table)
    (hmirrors : stage.reloads = false → MirrorsBut (fun id => stale id ∨ stage.flags id = true) s) :
    MirrorsBut (fun id => stale id ∨ next.flags id = true) t := by
  have hmono : stage.reloads = false → (∀ id, stage.flags id = false) →
      MirrorsBut (fun id => stale id ∨ next.flags id = true) s := by
    intro hreloads hflags
    refine (hmirrors hreloads).mono fun id hstale => ?_
    rw [hflags id] at hstale
    exact .inl (hstale.resolve_right (by simp))
  cases h with
  | pick hpick => exact (hmono rfl fun _ => rfl).pick (pickALeg_reweighs hpick).2
  | @write statement table row hexec =>
      refine (hmono rfl fun _ => rfl).of_aLegRows ((Write.exec_keeps hexec).2 ?_)
      intro hleg
      rw [if_pos hleg] at hnext
      cases hnext
  | load => cases hnext
  | install gateways response => exact MirrorsBut.mono hcurrent fun _ => .inl
  | query => exact hmono rfl fun _ => rfl
  | check manual gw pending results reachable =>
      by_cases hleg : gw.type = .a_leg
      · have hcheck := (hmirrors rfl).check gw.id (record_id gw reachable) fun _ => ⟨rfl, rfl, rfl, rfl⟩
        refine hcheck.mono fun id hstale => ?_
        rw [if_pos hleg]
        rcases hstale with (hstale | hflags) | rfl
        · exact .inl hstale
        · cases hflags
        · exact .inr (by simp [Stage.flags])
      · exact (hmono rfl fun _ => rfl).of_aLegRows
          (aLegRows_record reachable (hknows gw (List.mem_cons_self ..)) hleg)
  | skip => exact hmono rfl fun _ => rfl
  | flag manual id healthy pending results =>
      refine (hmirrors rfl).flag (fun other hstale hne => ?_) (hcurrent.imp_left .inl)
      obtain hstale | hflags := hstale
      · exact .inl hstale
      · exact absurd (by simpa [Stage.flags, eq_comm] using hflags) hne
  | fail stage e hreloads hflags =>
      refine hmono ?_ hflags
      cases hstage : stage.reloads with
      | false => rfl
      | true =>
          rw [hreloads hstage] at hfault
          cases hfault

end Step

-- Without a request that is still to install, the gateways in memory are those of
-- the table, but for flags that are still to be set.
structure Inv (s : State) : Prop where
  knows : ∀ stage ∈ s.tasks, stage.Knows s.shared.table
  mirrors : (∀ stage ∈ s.tasks, stage.reloads = false) →
    MirrorsBut (fun id => ∃ stage ∈ s.tasks, stage.flags id = true) s.shared

theorem inv_initService (t : GatewayTable) : Inv (initService t) :=
  ⟨by simp [initService], fun _ => mirrorsBut_load _ t⟩

theorem mem_eraseIdx {s : State} {i : Nat} {other : Stage} :
    other ∈ s.tasks.eraseIdx i ↔ ∃ j, j ≠ i ∧ s.tasks[j]? = some other :=
  List.mem_eraseIdx_iff_getElem?

-- In order, the last one to install or to set a flag goes by the present table.
theorem upToDate_of_inOrder {s : State} {i : Nat} {x : Answer} {stage : Stage} (hstage : s.tasks[i]? = some stage)
    (horder : inOrder s (.move i x) = true)
    (hnone : ∀ j other, j ≠ i → s.tasks[j]? = some other → other.reloads = false) :
    stage.UpToDate (fun id => ∃ j other, j ≠ i ∧ s.tasks[j]? = some other ∧ other.flags id = true)
      s.shared.table := by
  have hflags : ∀ id, ((s.tasks.eraseIdx i).any fun other => other.flags id) = true →
      ∃ j other, j ≠ i ∧ s.tasks[j]? = some other ∧ other.flags id = true := by
    intro id hany
    obtain ⟨other, hother, hid⟩ := List.any_eq_true.mp hany
    obtain ⟨j, hj, hsome⟩ := mem_eraseIdx.mp hother
    exact ⟨j, other, hj, hsome, hid⟩
  simp only [inOrder, hstage, Option.all_some] at horder
  cases stage with
  | install gateways response =>
      rcases (Bool.or_eq_true ..).mp horder with hlater | hsame
      · obtain ⟨other, hother, hreloads⟩ := List.any_eq_true.mp hlater
        obtain ⟨j, hj, hsome⟩ := mem_eraseIdx.mp hother
        rw [hnone j other hj hsome] at hreloads
        cases hreloads
      · exact (mirrorsBut_of_blank (of_decide_eq_true hsame)).mono hflags
  | flagging manual id healthy pending results =>
      rcases (Bool.or_eq_true ..).mp horder with hlater | hsame
      · exact .inl (hflags id hlater)
      · obtain ⟨row, hfind, hhealthy⟩ := (Option.any_eq_true ..).mp hsame
        obtain ⟨hrow, hid⟩ := Table.find_eq_some.mp hfind
        exact .inr ⟨row, hrow, hid, of_decide_eq_true hhealthy⟩
  | picking | writing | reload | query | checking | returned => trivial

theorem inv_step {s t : State} {l : Label} (h : Inv s) (hsucceeds : succeeds l = true)
    (horder : inOrder s l = true) (hstep : step s l = some t) : Inv t := by
  constructor
  · refine Pool.forall_step (A := fun service stage => stage.Knows service.table) h.knows ?_ ?_ hstep
    · rintro request rfl
      change request.start.Knows s.shared.table
      obtain hstart | ⟨_, hstart⟩ | ⟨_, hstart⟩ | ⟨_, hstart⟩ := start_cases request <;>
        rw [hstart] <;> trivial
    · rintro i x stage next shared rfl hstage hresume hknows
      have hmoves := resume_moves hresume
      exact ⟨hmoves.knows_next hknows, fun j other _ _ hother => hmoves.knows_other hother⟩
  · intro hnone
    cases l with
    | spawn request =>
        cases hstep
        have hold : ∀ stage ∈ s.tasks, stage.reloads = false :=
          fun stage hstage => hnone stage (List.mem_append_left _ hstage)
        refine (h.mirrors hold).mono ?_
        rintro id ⟨stage, hstage, hflags⟩
        exact ⟨stage, List.mem_append_left _ hstage, hflags⟩
    | move i x =>
        obtain ⟨stage, next, shared, hstage, hresume, rfl⟩ := Pool.step_move.mp hstep
        have hothers : ∀ j other, j ≠ i → s.tasks[j]? = some other → other.reloads = false :=
          fun j other hj hsome => hnone other (Pool.mem_set_other hsome hj next)
        have hold : stage.reloads = false → MirrorsBut (fun id =>
            (∃ j other, j ≠ i ∧ s.tasks[j]? = some other ∧ other.flags id = true) ∨ stage.flags id = true)
            s.shared := by
          intro hreloads
          refine (h.mirrors fun other hother => ?_).mono ?_
          · obtain rfl | ⟨j, hj, hsome⟩ := (Pool.mem_iff_move hstage).mp hother
            · exact hreloads
            · exact hothers j other hj hsome
          · rintro id ⟨other, hother, hflags⟩
            obtain rfl | ⟨j, hj, hsome⟩ := (Pool.mem_iff_move hstage).mp hother
            · exact .inr hflags
            · exact .inl ⟨j, other, hj, hsome, hflags⟩
        have hmirrors := (resume_moves hresume).mirrors (h.knows stage (List.mem_of_getElem? hstage))
          (by simpa [succeeds] using hsucceeds) (hnone next (Pool.mem_set_self hstage next))
          (upToDate_of_inOrder hstage horder hothers) hold
        refine hmirrors.mono ?_
        rintro id (⟨j, other, hj, hother, hflags⟩ | hflags)
        · exact ⟨other, Pool.mem_set_other hother hj next, hflags⟩
        · exact ⟨next, Pool.mem_set_self hstage next, hflags⟩

-- When every statement succeeds and no step in memory puts an outdated state there
-- for good, the gateways in memory are those of the table whenever no request is
-- under way, and PickALeg routes to a gateway that the table says is enabled and
-- healthy.
theorem mirrors_inOrder (t : GatewayTable) {labels : List Label} {s : State}
    (hrun : Machine.run (Machine.restrict (fun s l => succeeds l && inOrder s l) step) (initService t) labels =
      some s) (hidle : idle s = true) :
    Mirrors s.shared ∧ ∀ response after, pickALeg s.shared.aLegGateways = .ok (response, after) →
      ∃ row ∈ s.shared.table.rows, row.id = response.gatewayID ∧ row.type = .a_leg ∧
        row.sipAddress = response.sipAddress ∧ row.enabled = true ∧ row.healthy = true := by
  have hinv : Inv s := by
    refine Machine.restrict_invariant ?_ (inv_initService t) hrun
    intro s l t h hallowed hstep
    rw [Bool.and_eq_true] at hallowed
    exact inv_step h hallowed.1 hallowed.2 hstep
  simp only [idle, List.all_eq_true] at hidle
  have hreturned : ∀ stage ∈ s.tasks, stage.reloads = false ∧ ∀ id, stage.flags id = false := by
    intro stage hstage
    have hreturned := hidle stage hstage
    cases stage with
    | returned => exact ⟨rfl, fun _ => rfl⟩
    | picking | writing | reload | install | query | checking | flagging => cases hreturned
  have hmirrors : Mirrors s.shared := by
    refine (hinv.mirrors fun stage hstage => (hreturned stage hstage).1).mirrors ?_
    rintro id ⟨stage, hstage, hflags⟩
    rw [(hreturned stage hstage).2 id] at hflags
    cases hflags
  refine ⟨hmirrors, fun response after hpick => ?_⟩
  obtain ⟨⟨gw, hgw, hcandidate, rfl⟩, _⟩ := pickALeg_reweighs hpick
  simp only [WeightedGateway.isCandidate, Bool.and_eq_true] at hcandidate
  obtain ⟨row, hrow, hid, _, hsip, henabled, hhealthy⟩ := hmirrors.entry gw hgw
  obtain ⟨hmem, hleg⟩ := mem_aLegRows.mp hrow
  exact ⟨row, hmem, hid, hleg, hsip, henabled.trans hcandidate.2, hhealthy.trans hcandidate.1⟩

-- One of two gateways is disabled, and the other found unreachable meanwhile.
def disableAndCheck : List Label :=
  [.spawn (.toggleGateway operator 1 false), .spawn .runHealthCheck, .move 1 .done, .move 0 .done, .move 0 .done,
   .move 0 .done, .move 1 (.checked true false), .move 1 .done, .move 1 (.checked false false), .move 1 .done]

theorem mirrors_disableAndCheck :
    ∃ s, Machine.run (Machine.restrict (fun s l => succeeds l && inOrder s l) step) (initService twoGateways)
      disableAndCheck = some s ∧ Mirrors s.shared := by
  have hrun : Machine.run (Machine.restrict (fun s l => succeeds l && inOrder s l) step)
      (initService twoGateways) disableAndCheck = some _ := rfl
  exact ⟨_, hrun, (mirrors_inOrder twoGateways hrun rfl).1⟩

-- A toggle that disables a gateway overtakes one that enables it, between the
-- query of the latter and its installation.
def overtakingToggles : List Label :=
  [.spawn (.toggleGateway operator 1 true), .spawn (.toggleGateway operator 1 false), .move 0 .done, .move 0 .done,
   .move 1 .done, .move 1 .done, .move 1 .done, .move 0 .done]

theorem overtakingToggles_disagree :
    ∃ s, Machine.run step (initService twoGateways) overtakingToggles = some s ∧
      overtakingToggles.all succeeds = true ∧ idle s = true ∧ ¬ Mirrors s.shared ∧
      ∃ response after, pickALeg s.shared.aLegGateways = .ok (response, after) ∧
        ∃ row ∈ s.shared.table.rows, row.id = response.gatewayID ∧ row.enabled = false := by
  refine ⟨_, rfl, rfl, rfl, ?_, _, _, rfl, ?_⟩
  · rintro ⟨_, hentry⟩
    obtain ⟨row, hrow, hid, _, _, henabled, _⟩ := hentry _ (List.mem_cons_self ..)
    revert row
    decide
  · decide

end Bos3000.Routing
