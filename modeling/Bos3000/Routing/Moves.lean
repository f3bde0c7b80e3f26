import Bos3000.Routing.RoundRobin
import Bos3000.Routing.Operations

-- What one move of a request does to the table and to the gateways in memory.
namespace Bos3000.Routing

-- The rows that the routing of A legs is about.
def aLegRows (t : GatewayTable) : List Gateway := t.rows.filter fun row => row.type = .a_leg

theorem mem_aLegRows {t : GatewayTable} {row : Gateway} :
    row ∈ aLegRows t ↔ row ∈ t.rows ∧ row.type = .a_leg := by
  simp [aLegRows]

-- What a statement on the table leaves of each row.
structure Keeps (t u : GatewayTable) : Prop where
  row : ∀ row ∈ t.rows, ∃ next ∈ u.rows, next.id = row.id ∧ next.type = row.type

theorem keeps_update {t : GatewayTable} {id : Int64} {assign : Gateway → Gateway}
    {hassign : ∀ row, (assign row).id = row.id} (htype : ∀ row, (assign row).type = row.type) :
    Keeps t (t.update id assign hassign) := by
  constructor
  intro row hrow
  refine ⟨_, Table.mem_update.mpr ⟨row, hrow, rfl⟩, ?_⟩
  by_cases hid : row.id = id
  · rw [if_pos hid]
    exact ⟨hassign row, htype row⟩
  · rw [if_neg hid]
    exact ⟨rfl, rfl⟩

theorem aLegRows_update {t : GatewayTable} {id : Int64} {assign : Gateway → Gateway}
    {hassign : ∀ row, (assign row).id = row.id} (htype : ∀ row, (assign row).type = row.type) :
    aLegRows (t.update id assign hassign) =
      (aLegRows t).map fun row => if row.id = id then assign row else row := by
  unfold aLegRows Table.update
  rw [List.filter_map]
  congr 1
  apply List.filter_congr
  intro row _
  by_cases hid : row.id = id <;> simp [hid, htype]

theorem aLegRows_update_other {t : GatewayTable} {id : Int64} {assign : Gateway → Gateway}
    {hassign : ∀ row, (assign row).id = row.id} (htype : ∀ row, (assign row).type = row.type)
    {row : Gateway} (hrow : row ∈ t.rows) (hid : row.id = id) (hother : row.type ≠ .a_leg) :
    aLegRows (t.update id assign hassign) = aLegRows t := by
  rw [aLegRows_update htype]
  refine (List.map_congr_left fun other hmem => ?_).trans (List.map_id _)
  obtain ⟨hmem, hleg⟩ := mem_aLegRows.mp hmem
  rw [if_neg]
  · rfl
  · intro heq
    have hsame := t.row_unique hrow hmem (hid.trans heq.symm)
    rw [hsame] at hother
    exact hother hleg

-- What the statement of an admin request does: the rows keep their ids and types,
-- and a row that is no A-leg gateway leaves the A-leg gateways alone.
theorem Write.exec_keeps {t u : GatewayTable} {statement : Write} {x : Answer} {row : Gateway}
    (h : statement.exec t x = some (u, row)) :
    Keeps t u ∧ (row.type ≠ .a_leg → aLegRows u = aLegRows t) := by
  cases statement with
  | insert new =>
      cases x with
      | inserted id =>
          simp only [Write.exec] at h
          split at h
          · obtain ⟨table, hinsert, heq⟩ := Option.map_eq_some_iff.mp h
            cases heq
            have hrows := (Table.insert_eq_some hinsert).1
            constructor
            · constructor
              intro old hold
              refine ⟨old, ?_, rfl, rfl⟩
              rw [hrows]
              exact List.mem_append_left _ hold
            · intro hother
              simp [aLegRows, hrows, List.filter_append, hother]
          · cases h
      | done | fault | checked => cases h
  | update id p =>
      cases x with
      | done =>
          simp only [Write.exec] at h
          split at h
          · cases h
          · rename_i old hfind
            obtain ⟨hold, hid⟩ := Table.find_eq_some.mp hfind
            split at h
            · cases h
              refine ⟨keeps_update fun _ => rfl, fun hother => ?_⟩
              exact aLegRows_update_other (fun _ => rfl) hold hid hother
            · cases h
      | inserted | fault | checked => cases h
  | toggle id enabled =>
      cases x with
      | done =>
          obtain ⟨old, hfind, heq⟩ := Option.map_eq_some_iff.mp h
          obtain ⟨hold, hid⟩ := Table.find_eq_some.mp hfind
          cases heq
          refine ⟨keeps_update fun _ => rfl, fun hother => ?_⟩
          exact aLegRows_update_other (fun _ => rfl) hold hid hother
      | inserted | fault | checked => cases h

-- A statement that goes through, with the table and the row it leaves.
theorem Write.exec_cases {t u : GatewayTable} {statement : Write} {x : Answer} {out : Gateway}
    (h : statement.exec t x = some (u, out)) :
    (∃ row id, statement = .insert row ∧ x = .inserted id ∧ out = { row with id } ∧ refers t out = true ∧
      t.insert out = some u) ∨
    (∃ id p row, statement = .update id p ∧ x = .done ∧ t.find id = some row ∧ out = p.assign row ∧
      refers t out = true ∧ u = t.update id p.assign fun _ => rfl) ∨
    ∃ id enabled row, statement = .toggle id enabled ∧ x = .done ∧ t.find id = some row ∧
      out = { row with enabled } ∧ u = t.update id (fun row => { row with enabled }) fun _ => rfl := by
  cases statement with
  | insert row =>
      cases x with
      | inserted id =>
          simp only [Write.exec] at h
          split at h
          · rename_i hrefers
            obtain ⟨table, hinsert, heq⟩ := Option.map_eq_some_iff.mp h
            cases heq
            exact .inl ⟨row, id, rfl, rfl, rfl, hrefers, hinsert⟩
          · cases h
      | done | fault | checked => cases h
  | update id p =>
      cases x with
      | done =>
          simp only [Write.exec] at h
          split at h
          · cases h
          · rename_i row hfind
            split at h
            · rename_i hrefers
              cases h
              exact .inr (.inl ⟨id, p, row, rfl, rfl, hfind, rfl, hrefers, rfl⟩)
            · cases h
      | inserted | fault | checked => cases h
  | toggle id enabled =>
      cases x with
      | done =>
          obtain ⟨row, hfind, heq⟩ := Option.map_eq_some_iff.mp h
          cases heq
          exact .inr (.inr ⟨id, enabled, row, rfl, rfl, hfind, rfl, rfl⟩)
      | inserted | fault | checked => cases h

-- The row that a health check is about is in the table, with its type.
def Lists (t : GatewayTable) (gw : GatewayInfo) : Prop :=
  ∃ row ∈ t.rows, row.id = gw.id ∧ row.type = gw.type

-- A request that is still going to replace the gateways in memory.
def Stage.reloads : Stage → Bool
  | .reload _ | .install _ _ => true
  | _ => false

-- A request that is still going to set the flag of a gateway in memory.
def Stage.flags (id : Int64) : Stage → Bool
  | .flagging _ other _ _ _ => other = id
  | _ => false

def Answer.isFault : Answer → Bool
  | .fault _ => true
  | .checked _ failed => failed
  | _ => false

theorem exec_not_fault {t : GatewayTable} {statement : Write} {x : Answer} {result : GatewayTable × Gateway}
    (h : statement.exec t x = some result) : x.isFault = false := by
  obtain ⟨table, row⟩ := result
  obtain ⟨_, _, rfl, rfl, _⟩ | ⟨_, _, _, rfl, rfl, _⟩ | ⟨_, _, _, rfl, rfl, _⟩ := Write.exec_cases h <;> rfl

-- What one move of a request does.
inductive Moves (s : Service) (x : Answer) : Stage → Stage → Service → Prop
  | pick {response : PickALegResponse} {after : List WeightedGateway}
      (hpick : pickALeg s.aLegGateways = .ok (response, after)) :
      Moves s x .picking (.returned (.ok (.picked response))) { s with aLegGateways := after }
  | write {statement : Write} {table : GatewayTable} {row : Gateway}
      (hexec : statement.exec s.table x = some (table, row)) :
      Moves s x (.writing statement) (if row.type = .a_leg then .reload (statement.response row)
        else .returned (.ok (statement.response row))) { s with table }
  | load (response : Response) :
      Moves s x (.reload response) (.install (loadALegGateways s.table) response) s
  | install (gateways : List WeightedGateway) (response : Response) :
      Moves s x (.install gateways response) (.returned (.ok response)) { s with aLegGateways := gateways }
  | query (only : Option Int64) (manual : Bool) {pending : List GatewayInfo}
      (hlists : ∀ gw ∈ pending, Lists s.table gw) : Moves s x (.query only) (.turn manual [] pending) s
  | check (manual : Bool) (gw : GatewayInfo) (pending : List GatewayInfo)
      (results : List HealthCheckResult) (reachable : Bool) :
      Moves s x (.checking manual gw pending results)
        (if gw.type = .a_leg then
            .flagging manual gw.id (gw.check reachable).2 pending (results ++ [gw.result reachable])
          else .turn manual (results ++ [gw.result reachable]) pending)
        { s with table := s.table.update gw.id (gw.record reachable) (record_id gw reachable) }
  | skip (manual : Bool) (gw : GatewayInfo) (pending : List GatewayInfo)
      (results : List HealthCheckResult) :
      Moves s x (.checking manual gw pending results) (.turn manual results pending) s
  | flag (manual : Bool) (id : Int64) (healthy : Bool) (pending : List GatewayInfo)
      (results : List HealthCheckResult) :
      Moves s x (.flagging manual id healthy pending results) (.turn manual results pending)
        { s with aLegGateways := setHealthy id healthy s.aLegGateways }
  | fail (stage : Stage) (e : APIError) (hreloads : stage.reloads = true → x.isFault = true)
      (hflags : ∀ id, stage.flags id = false) : Moves s x stage (.returned (.error e)) s

theorem lists_checks (t : GatewayTable) : ∀ gw ∈ checks t, Lists t gw := by
  intro gw hgw
  obtain ⟨row, hrow, rfl⟩ := List.mem_map.mp hgw
  rw [List.mem_insertionSort] at hrow
  exact ⟨row, (List.mem_filter.mp hrow).1, rfl, rfl⟩

theorem checking_moves {s t : Service} {manual : Bool} {gw : GatewayInfo} {pending : List GatewayInfo}
    {results : List HealthCheckResult} {next : Stage} {x : Answer}
    (h : (Stage.checking manual gw pending results).resume s x = some (next, t)) :
    Moves s x (.checking manual gw pending results) next t := by
  cases x with
  | checked reachable failed =>
      cases failed with
      | true =>
          simp only [Stage.resume, if_true] at h
          cases manual with
          | true =>
              cases h
              exact .fail _ _ (fun _ => rfl) fun _ => rfl
          | false =>
              cases h
              exact .skip ..
      | false =>
          have hcheck := @Moves.check s (.checked reachable false) manual gw pending results reachable
          simp only [Stage.resume, Bool.false_eq_true, if_false] at h
          by_cases hleg : gw.type = .a_leg
          · rw [if_pos hleg] at h hcheck
            cases h
            exact hcheck
          · rw [if_neg hleg] at h hcheck
            cases h
            exact hcheck
  | done | fault | inserted => cases h

theorem query_moves {s t : Service} {only : Option Int64} {next : Stage} {x : Answer}
    (h : (Stage.query only).resume s x = some (next, t)) : Moves s x (.query only) next t := by
  cases x with
  | done =>
      cases only with
      | none =>
          cases h
          exact .query none false (lists_checks _)
      | some id =>
          simp only [Stage.resume] at h
          cases hfind : s.table.find id with
          | none =>
              rw [hfind] at h
              cases h
              exact .fail _ _ (fun h => by cases h) fun _ => rfl
          | some row =>
              rw [hfind] at h
              cases h
              refine .query (some id) true ?_
              intro gw hgw
              rw [List.mem_singleton] at hgw
              subst hgw
              exact ⟨row, (Table.find_eq_some.mp hfind).1, rfl, rfl⟩
  | fault e =>
      cases only <;> cases h <;> exact .fail _ _ (fun _ => rfl) fun _ => rfl
  | inserted | checked =>
      cases only <;> cases h

theorem writing_moves {s t : Service} {statement : Write} {next : Stage} {x : Answer}
    (h : (Stage.writing statement).resume s x = some (next, t)) : Moves s x (.writing statement) next t := by
  cases x with
  | fault e =>
      cases h
      exact .fail _ _ (fun _ => rfl) fun _ => rfl
  | done | inserted | checked =>
      obtain ⟨⟨table, row⟩, hexec, heq⟩ := Option.map_eq_some_iff.mp h
      cases heq
      exact .write hexec

theorem resume_moves {s t : Service} {stage next : Stage} {x : Answer}
    (h : stage.resume s x = some (next, t)) : Moves s x stage next t := by
  cases stage with
  | picking =>
      cases x with
      | done =>
          simp only [Stage.resume] at h
          cases hpick : pickALeg s.aLegGateways with
          | ok result =>
              rw [hpick] at h
              cases h
              exact .pick hpick
          | error e =>
              rw [hpick] at h
              cases h
              exact .fail _ _ (fun h => by cases h) fun _ => rfl
      | fault | inserted | checked => cases h
  | writing statement => exact writing_moves h
  | reload response =>
      cases x with
      | done =>
          cases h
          exact .load _
      | fault e =>
          cases h
          exact .fail _ _ (fun _ => rfl) fun _ => rfl
      | inserted | checked => cases h
  | install gateways response =>
      cases x with
      | done =>
          cases h
          exact .install _ _
      | fault | inserted | checked => cases h
  | query only => exact query_moves h
  | checking manual gw pending results => exact checking_moves h
  | flagging manual id healthy pending results =>
      cases x with
      | done =>
          cases h
          exact .flag ..
      | fault | inserted | checked => cases h
  | returned outcome => cases x <;> cases h

theorem start_cases (request : Request) :
    request.start = .picking ∨ (∃ statement, request.start = .writing statement) ∨
      (∃ only, request.start = .query only) ∨ ∃ e, request.start = .returned (.error e) := by
  have hadmin : ∀ (auth : Option AuthData) (stage : Stage),
      stage.asAdmin auth = stage ∨ ∃ e, stage.asAdmin auth = .returned (.error e) := by
    intro auth stage
    unfold Stage.asAdmin
    split
    · exact .inl rfl
    · exact .inr ⟨_, rfl⟩
  cases request with
  | pickALeg => exact .inl rfl
  | createGateway auth p =>
      obtain hsame | ⟨e, herror⟩ := hadmin auth (createGateway p)
      · simp only [Request.start, hsame]
        unfold createGateway
        split <;> simp
      · exact .inr (.inr (.inr ⟨e, herror⟩))
  | updateGateway auth id p =>
      obtain hsame | ⟨e, herror⟩ := hadmin auth (.writing (.update id p))
      · exact .inr (.inl ⟨_, hsame⟩)
      · exact .inr (.inr (.inr ⟨e, herror⟩))
  | toggleGateway auth id enabled =>
      obtain hsame | ⟨e, herror⟩ := hadmin auth (.writing (.toggle id enabled))
      · exact .inr (.inl ⟨_, hsame⟩)
      · exact .inr (.inr (.inr ⟨e, herror⟩))
  | runHealthCheck => exact .inr (.inr (.inl ⟨none, rfl⟩))
  | manualHealthCheck auth id =>
      simp only [Request.start]
      split <;> simp

-- The gateways that a request is about to install were read from the table.
def Stage.Loaded : Stage → Prop
  | .install gateways _ => ∃ t : GatewayTable, gateways = loadALegGateways t
  | _ => True

theorem loaded_turn (manual : Bool) (results : List HealthCheckResult) (pending : List GatewayInfo) :
    (Stage.turn manual results pending).Loaded := by
  cases pending <;> trivial

theorem loaded_start (request : Request) : request.start.Loaded := by
  obtain hstart | ⟨_, hstart⟩ | ⟨_, hstart⟩ | ⟨_, hstart⟩ := start_cases request <;>
    rw [hstart] <;> trivial

theorem Moves.memory {s t : Service} {x : Answer} {stage next : Stage} (h : Moves s x stage next t)
    (hloaded : stage.Loaded) :
    next.Loaded ∧ ∃ labels, Machine.run memoryStep s.aLegGateways labels = some t.aLegGateways := by
  cases h with
  | pick hpick => exact ⟨trivial, [.pickALeg], by simp [Machine.run, memoryStep, hpick]⟩
  | write => exact ⟨by split <;> trivial, [], rfl⟩
  | load => exact ⟨⟨s.table, rfl⟩, [], rfl⟩
  | install gateways response =>
      obtain ⟨table, rfl⟩ := hloaded
      exact ⟨trivial, [.install table], rfl⟩
  | query | skip => exact ⟨loaded_turn .., [], rfl⟩
  | check => exact ⟨by split <;> first | trivial | exact loaded_turn .., [], rfl⟩
  | flag manual id healthy pending results => exact ⟨loaded_turn .., [.setHealthy id healthy], rfl⟩
  | fail => exact ⟨trivial, [], rfl⟩

-- What requests do to the gateways in memory is a run of picks, flags and reloads.
theorem service_memory (t : GatewayTable) {labels : List Label} {s : State}
    (hrun : Machine.run step (initService t) labels = some s) :
    ∃ above, Machine.run memoryStep (loadALegGateways t) above = some s.shared.aLegGateways := by
  refine Machine.simulate (P := fun s : State => ∀ stage ∈ s.tasks, stage.Loaded)
    (fun s => s.shared.aLegGateways) ?_ (by simp [initService]) hrun
  intro s l u hloaded hstep
  have hloaded' : ∀ stage ∈ u.tasks, stage.Loaded := by
    refine Pool.forall_step (A := fun _ stage => stage.Loaded) hloaded (fun request _ => loaded_start request)
      ?_ hstep
    intro i x stage next shared _ _ hresume hstage
    exact ⟨((resume_moves hresume).memory hstage).1, fun _ _ _ _ hother => hother⟩
  refine ⟨hloaded', ?_⟩
  cases l with
  | spawn request =>
      cases hstep
      exact ⟨[], rfl⟩
  | move i x =>
      obtain ⟨stage, next, shared, hstage, hresume, rfl⟩ := Pool.step_move.mp hstep
      exact ((resume_moves hresume).memory (hloaded stage (List.mem_of_getElem? hstage))).2

-- What a step does to the table: an admin's statement, what a check records, or nothing.
theorem step_table {s t : State} {l : Label} (h : step s l = some t) :
    t.shared.table = s.shared.table ∨
    (∃ i x statement row, l = .move i x ∧ s.tasks[i]? = some (.writing statement) ∧
      statement.exec s.shared.table x = some (t.shared.table, row)) ∨
    ∃ i x manual gw pending results reachable, l = .move i x ∧
      s.tasks[i]? = some (.checking manual gw pending results) ∧
        t.shared.table = s.shared.table.update gw.id (gw.record reachable) (record_id gw reachable) := by
  cases l with
  | spawn request =>
      cases h
      exact .inl rfl
  | move i x =>
      obtain ⟨stage, next, shared, hstage, hresume, rfl⟩ := Pool.step_move.mp h
      cases resume_moves hresume with
      | write hexec => exact .inr (.inl ⟨i, x, _, _, rfl, hstage, hexec⟩)
      | check manual gw pending results reachable =>
          exact .inr (.inr ⟨i, x, manual, gw, pending, results, reachable, rfl, hstage, rfl⟩)
      | pick | load | install | query | skip | flag | fail => exact .inl rfl

end Bos3000.Routing
