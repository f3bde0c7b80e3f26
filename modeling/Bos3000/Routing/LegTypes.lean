import Bos3000.Routing.Failover
import Bos3000.Routing.Moves

-- Which legs the gateways that PickBLeg returns are for, over the runs of the
-- requests that configure gateways and prefixes.
namespace Bos3000.Routing

open Webhook (utf8)

structure Config where
  routing : State
  prefixes : PrefixTable

def Config.gateways (c : Config) : GatewayTable := c.routing.shared.table

inductive ConfigLabel
  | gateways (l : Label)
  | addPrefix (auth : Option AuthData) (id : Int64) (p : AddPrefixParams) (fault : Option APIError)
      (e : APIError)
  | removePrefix (auth : Option AuthData) (id : Int64) (calledPrefix : String) (fault : Option APIError)

def configStep (c : Config) : ConfigLabel → Option Config
  | .gateways l => (step c.routing l).map fun routing => { c with routing }
  | .addPrefix auth id p fault e =>
      some { c with prefixes := (addPrefix auth id p fault e c.gateways c.prefixes).2 }
  | .removePrefix auth id calledPrefix fault =>
      some { c with prefixes := (removePrefix auth id calledPrefix fault c.prefixes).2 }

-- Nothing configured, and no request under way.
def Config.empty : Config := ⟨initService .empty, .empty⟩

def isBLeg (t : GatewayTable) (id : Int64) : Bool := (t.find id).all fun gw => gw.type = .b_leg

-- No B-leg gateway gets a failover link to an A-leg gateway.
def Write.linksLegs (t : GatewayTable) : Write → Bool
  | .insert row => row.type = .a_leg || row.failoverGatewayID.all (isBLeg t)
  | .update id p => !(isBLeg t id) || p.failoverGatewayID.all (isBLeg t)
  | .toggle _ _ => true

-- A statement that fails links nothing, and a prefix that no number's first three
-- bytes can equal routes nothing.
def keepsLegs (c : Config) : ConfigLabel → Bool
  | .gateways (.move i x) =>
      match c.routing.tasks[i]? with
      | some (.writing statement) => x.isFault || statement.linksLegs c.gateways
      | _ => true
  | .gateways (.spawn _) => true
  | .addPrefix auth id p fault _ =>
      !(requireAdmin auth matches .ok _) || fault.isSome || (utf8 p.calledPrefix).length ≠ 3 ||
        isBLeg c.gateways id
  | .removePrefix .. => true

-- Links and prefixes lead to gateways that exist, and from B legs to B legs.
structure Legs (t : GatewayTable) (prefixes : PrefixTable) : Prop where
  link : ∀ gw ∈ t.rows, ∀ target, gw.failoverGatewayID = some target →
    ∃ next, t.find target = some next ∧ (gw.type = .b_leg → next.type = .b_leg)
  row : ∀ row ∈ prefixes.rows, ∃ gw, t.find row.gatewayID = some gw ∧
    ((utf8 row.calledPrefix).length = 3 → gw.type = .b_leg)

-- Gateways are not deleted and keep their type.
def KeepsTypes (t u : GatewayTable) : Prop :=
  ∀ id gw, t.find id = some gw → ∃ next, u.find id = some next ∧ next.type = gw.type

theorem KeepsTypes.trans {t u v : GatewayTable} (htu : KeepsTypes t u) (huv : KeepsTypes u v) :
    KeepsTypes t v := by
  intro id gw hfind
  obtain ⟨next, hnext, htype⟩ := htu id gw hfind
  obtain ⟨last, hlast, hsame⟩ := huv id next hnext
  exact ⟨last, hlast, hsame.trans htype⟩

theorem keepsTypes_of_keeps {t u : GatewayTable} (h : Keeps t u) : KeepsTypes t u := by
  intro id gw hfind
  obtain ⟨hgw, rfl⟩ := Table.find_eq_some.mp hfind
  obtain ⟨next, hnext, hid, htype⟩ := h.row gw hgw
  exact ⟨next, Table.find_eq_some.mpr ⟨hnext, hid⟩, htype⟩

theorem update_keepsTypes {t : GatewayTable} {id : Int64} {assign : Gateway → Gateway}
    {hassign : ∀ row, (assign row).id = row.id} (htype : ∀ row, (assign row).type = row.type) :
    KeepsTypes t (t.update id assign hassign) :=
  keepsTypes_of_keeps (keeps_update htype)

theorem step_keepsTypes {s t : State} {l : Label} (h : step s l = some t) :
    KeepsTypes s.shared.table t.shared.table := by
  obtain hsame | ⟨_, _, _, _, _, _, hexec⟩ | ⟨_, _, _, gw, _, _, reachable, _, _, htable⟩ := step_table h
  · rw [hsame]
    exact fun _ gw hfind => ⟨gw, hfind, rfl⟩
  · exact keepsTypes_of_keeps (Write.exec_keeps hexec).1
  · rw [htable]
    exact update_keepsTypes fun _ => rfl

theorem configStep_keepsTypes {c d : Config} {l : ConfigLabel} (h : configStep c l = some d) :
    KeepsTypes c.gateways d.gateways := by
  cases l with
  | gateways l =>
      obtain ⟨routing, hstep, rfl⟩ := Option.map_eq_some_iff.mp h
      exact step_keepsTypes hstep
  | addPrefix | removePrefix =>
      cases h
      exact fun _ gw hfind => ⟨gw, hfind, rfl⟩

-- Rows that keep their types and the links they had keep the legs, where every
-- new link goes to an existing gateway and not from a B leg to an A leg.
theorem Legs.of_keepsTypes {t u : GatewayTable} {prefixes : PrefixTable} (h : Legs t prefixes)
    (hkeeps : KeepsTypes t u)
    (hlink : ∀ gw ∈ u.rows, (∃ old ∈ t.rows, old.type = gw.type ∧
        old.failoverGatewayID = gw.failoverGatewayID) ∨
      ∀ target, gw.failoverGatewayID = some target →
        ∃ next, u.find target = some next ∧ (gw.type = .b_leg → next.type = .b_leg)) :
    Legs u prefixes where
  link := by
    intro gw hgw target htarget
    obtain ⟨old, hold, htype, hsame⟩ | hnew := hlink gw hgw
    · obtain ⟨next, hnext, hleg⟩ := h.link old hold target (hsame.trans htarget)
      obtain ⟨last, hlast, hlastType⟩ := hkeeps target next hnext
      refine ⟨last, hlast, fun hgwType => ?_⟩
      rw [hlastType]
      exact hleg (htype.trans hgwType)
    · exact hnew target htarget
  row := by
    intro row hrow
    obtain ⟨gw, hfind, hleg⟩ := h.row row hrow
    obtain ⟨next, hnext, htype⟩ := hkeeps _ gw hfind
    exact ⟨next, hnext, fun hlength => htype.trans (hleg hlength)⟩

-- The links of a row that an update writes, where its foreign key holds.
theorem update_link {t : GatewayTable} {prefixes : PrefixTable} {id : Int64} {assign : Gateway → Gateway}
    {hassign : ∀ row, (assign row).id = row.id} (h : Legs t prefixes)
    (htype : ∀ row, (assign row).type = row.type)
    (hlink : ∀ row, t.find id = some row → (assign row).failoverGatewayID = row.failoverGatewayID ∨
      ∀ target, (assign row).failoverGatewayID = some target →
        ∃ next, t.find target = some next ∧ (row.type = .b_leg → next.type = .b_leg)) :
    Legs (t.update id assign hassign) prefixes := by
  have hkeeps : KeepsTypes t (t.update id assign hassign) := update_keepsTypes htype
  refine h.of_keepsTypes hkeeps fun gw hgw => ?_
  obtain ⟨old, hold, rfl⟩ := Table.mem_update.mp hgw
  by_cases hid : old.id = id
  · rw [if_pos hid]
    obtain hsame | hnew := hlink old (Table.find_eq_some.mpr ⟨hold, hid⟩)
    · exact .inl ⟨old, hold, (htype old).symm, hsame.symm⟩
    · refine .inr fun target htarget => ?_
      obtain ⟨next, hnext, hleg⟩ := hnew target htarget
      obtain ⟨last, hlast, hlastType⟩ := hkeeps target next hnext
      refine ⟨last, hlast, fun hgwType => ?_⟩
      rw [htype] at hgwType
      rw [hlastType]
      exact hleg hgwType
  · rw [if_neg hid]
    exact .inl ⟨old, hold, rfl, rfl⟩

-- What the foreign key says of a row's own link.
theorem refers_link {t : GatewayTable} {row : Gateway} (h : refers t row = true) {target : Int64}
    (htarget : row.failoverGatewayID = some target) : target = row.id ∨ ∃ next, t.find target = some next := by
  simp only [refers, htarget, Option.all_some, Bool.or_eq_true, decide_eq_true_eq,
    Option.isSome_iff_exists] at h
  exact h

theorem isBLeg_of_find {t : GatewayTable} {id : Int64} {gw : Gateway} (hfind : t.find id = some gw) :
    isBLeg t id = true ↔ gw.type = .b_leg := by
  simp [isBLeg, hfind]

theorem insert_legs {t u : GatewayTable} {prefixes : PrefixTable} {row : Gateway} (h : Legs t prefixes)
    (hrefers : refers t row = true) (hinsert : t.insert row = some u)
    (hlinks : (Write.insert row).linksLegs t = true) : Legs u prefixes := by
  have hrows := (Table.insert_eq_some hinsert).1
  have hfind := Table.find_insert hinsert
  have hnone := (Table.insert_eq_some hinsert).2
  have hkeeps : KeepsTypes t u := by
    intro id gw hold
    refine ⟨gw, ?_, rfl⟩
    rw [hfind, if_neg, hold]
    rintro rfl
    rw [hnone] at hold
    cases hold
  refine h.of_keepsTypes hkeeps fun gw hgw => ?_
  rw [hrows] at hgw
  rcases List.mem_append.mp hgw with hold | hnew
  · exact .inl ⟨gw, hold, rfl, rfl⟩
  · rw [List.mem_singleton] at hnew
    subst hnew
    refine .inr fun target htarget => ?_
    by_cases hself : target = gw.id
    · exact ⟨gw, by rw [hfind, if_pos hself], id⟩
    · obtain ⟨next, hnext⟩ := (refers_link hrefers htarget).resolve_left hself
      refine ⟨next, by rw [hfind, if_neg hself, hnext], fun hleg => ?_⟩
      simp only [Write.linksLegs, htarget, Option.all_some, Bool.or_eq_true, decide_eq_true_eq] at hlinks
      rw [hleg] at hlinks
      exact (isBLeg_of_find hnext).mp (hlinks.resolve_left (by simp))

theorem assign_legs {t : GatewayTable} {prefixes : PrefixTable} {id : Int64} {p : UpdateGatewayParams}
    {row : Gateway} (h : Legs t prefixes) (hfind : t.find id = some row) (hrefers : refers t (p.assign row) = true)
    (hlinks : (Write.update id p).linksLegs t = true) :
    Legs (t.update id p.assign fun _ => rfl) prefixes := by
  refine update_link h (fun _ => rfl) fun other hother => ?_
  cases hfind.symm.trans hother
  cases hnew : p.failoverGatewayID with
  | none => exact .inl (by simp [UpdateGatewayParams.assign, hnew])
  | some failoverID =>
      have hassigned : (p.assign row).failoverGatewayID = some failoverID := by
        simp [UpdateGatewayParams.assign, hnew]
      refine .inr fun target htarget => ?_
      cases hassigned.symm.trans htarget
      simp only [Write.linksLegs, hnew, Option.all_some, Bool.or_eq_true, Bool.not_eq_true'] at hlinks
      have hexists : ∃ next, t.find failoverID = some next := by
        obtain hself | hexists := refers_link hrefers hassigned
        · exact ⟨row, by rw [hself]; exact (Table.find_eq_some.mp hfind).2 ▸ hfind⟩
        · exact hexists
      obtain ⟨next, hnext⟩ := hexists
      refine ⟨next, hnext, fun hleg => ?_⟩
      have hbleg := (isBLeg_of_find hfind).mpr hleg
      rw [hbleg] at hlinks
      exact (isBLeg_of_find hnext).mp (hlinks.resolve_left (by simp))

theorem exec_legs {t u : GatewayTable} {prefixes : PrefixTable} {statement : Write} {x : Answer} {row : Gateway}
    (h : Legs t prefixes) (hlinks : statement.linksLegs t = true) (hexec : statement.exec t x = some (u, row)) :
    Legs u prefixes := by
  obtain ⟨new, id, rfl, rfl, rfl, hrefers, hinsert⟩ | ⟨id, p, old, rfl, rfl, hfind, rfl, hrefers, rfl⟩ |
    ⟨id, enabled, old, rfl, rfl, hfind, rfl, rfl⟩ := Write.exec_cases hexec
  · exact insert_legs h hrefers hinsert hlinks
  · exact assign_legs h hfind hrefers hlinks
  · exact update_link h (fun _ => rfl) fun _ _ => .inl rfl

theorem addPrefix_legs {auth : Option AuthData} {id : Int64} {p : AddPrefixParams} {fault : Option APIError}
    {e : APIError} {c : Config} (h : Legs c.gateways c.prefixes)
    (hkeeps : keepsLegs c (.addPrefix auth id p fault e) = true) :
    Legs c.gateways (addPrefix auth id p fault e c.gateways c.prefixes).2 := by
  cases hresult : addPrefix auth id p fault e c.gateways c.prefixes with
  | mk outcome after =>
      obtain ⟨_, rfl⟩ | ⟨gw, calledPrefix, hadmin, hfault, _, hfind, hvarchar, hinsert, _⟩ :=
        addPrefix_cases hresult
      · exact h
      · refine ⟨h.link, fun row hrow => ?_⟩
        rw [(Table.insert_eq_some hinsert).1] at hrow
        rcases List.mem_append.mp hrow with hold | hnew
        · exact h.row row hold
        · rw [List.mem_singleton] at hnew
          subst hnew
          refine ⟨gw, hfind, fun hlength => ?_⟩
          have hstored : calledPrefix = p.calledPrefix := by
            obtain hsame | ⟨_, hten⟩ := varchar_cases hvarchar
            · exact hsame
            · have hle := length_le_utf8 calledPrefix
              simp only at hlength
              omega
          simp only [hstored] at hlength
          simp only [keepsLegs, hadmin, hfault, hlength, Bool.not_true, Option.isSome_none, ne_eq,
            not_true_eq_false, decide_false, Bool.false_or] at hkeeps
          exact (isBLeg_of_find hfind).mp hkeeps

theorem removePrefix_subset (auth : Option AuthData) (id : Int64) (calledPrefix : String)
    (fault : Option APIError) (prefixes : PrefixTable) :
    ∀ row ∈ (removePrefix auth id calledPrefix fault prefixes).2.rows, row ∈ prefixes.rows := by
  intro row hrow
  unfold removePrefix at hrow
  split at hrow
  · exact hrow
  · exact hrow
  · split at hrow
    · exact hrow
    · exact (Table.mem_delete.mp hrow).1

theorem configStep_legs {c d : Config} {l : ConfigLabel} (h : Legs c.gateways c.prefixes)
    (hkeeps : keepsLegs c l = true) (hstep : configStep c l = some d) : Legs d.gateways d.prefixes := by
  cases l with
  | gateways l =>
      obtain ⟨routing, hrouting, rfl⟩ := Option.map_eq_some_iff.mp hstep
      obtain hsame | ⟨i, x, statement, row, rfl, hstage, hexec⟩ |
        ⟨i, x, manual, gw, pending, results, reachable, rfl, hstage, htable⟩ := step_table hrouting
      · simp only [Config.gateways, hsame]
        exact h
      · simp only [keepsLegs, hstage, exec_not_fault hexec, Bool.false_or] at hkeeps
        exact exec_legs h hkeeps hexec
      · simp only [Config.gateways, htable]
        exact update_link h (fun _ => rfl) fun _ _ => .inl rfl
  | addPrefix auth id p fault e =>
      cases hstep
      exact addPrefix_legs h hkeeps
  | removePrefix auth id calledPrefix fault =>
      cases hstep
      refine ⟨h.link, fun row hrow => ?_⟩
      exact h.row row (removePrefix_subset _ _ _ _ _ row hrow)

theorem followFailover_cases {lookup : Nat → Int64 → Option Gateway} {maxHops : Nat} {target : Option Int64}
    {response : PickBLegResponse} (h : followFailover lookup maxHops target = some response)
    {P : Gateway → Prop}
    (hfirst : ∀ id gw, target = some id → lookup 0 id = some gw → P gw)
    (hnext : ∀ hop next id gw, P gw → gw.failoverGatewayID = some id → lookup (hop + 1) id = some next →
      P next) :
    ∃ gw, P gw ∧ response = gw.bLegResponse := by
  induction maxHops generalizing lookup target with
  | zero => cases h
  | succ maxHops ih =>
      cases target with
      | none => cases h
      | some id =>
          simp only [followFailover] at h
          cases hlookup : lookup 0 id with
          | none =>
              rw [hlookup] at h
              cases h
          | some gw =>
              have hgw := hfirst id gw rfl hlookup
              simp only [hlookup] at h
              split at h
              · cases h
                exact ⟨gw, hgw, rfl⟩
              · refine ih h (fun id next hid hsome => ?_) fun hop next id gw => hnext (hop + 1) next id gw
                exact hnext 0 next id gw hgw hid hsome

-- A gateway that PickBLeg returns is one of the rows, or reached from one by links.
theorem pickFirst_cases {lookup : Nat → Nat → Int64 → Option Gateway} {rows : List Gateway}
    {response : PickBLegResponse} (h : pickFirst lookup rows = some response) {P : Gateway → Prop}
    (hrows : ∀ gw ∈ rows, P gw)
    (hnext : ∀ place hop next id gw, P gw → gw.failoverGatewayID = some id →
      lookup place hop id = some next → P next) :
    ∃ gw, P gw ∧ response = gw.bLegResponse := by
  induction rows generalizing lookup with
  | nil => cases h
  | cons gw rest ih =>
      simp only [pickFirst] at h
      have hgw := hrows gw List.mem_cons_self
      split at h
      · rename_i found hpick
        cases h
        unfold Gateway.pick at hpick
        split at hpick
        · cases hpick
          exact ⟨gw, hgw, rfl⟩
        · exact followFailover_cases hpick (fun id next => hnext 0 0 next id gw hgw)
            fun hop next id gw => hnext 0 (hop + 1) next id gw
      · exact ih h (fun other hother => hrows other (List.mem_cons_of_mem _ hother))
          fun place hop next id gw => hnext (place + 1) hop next id gw

-- What a query read at some moment of a run, in which every step kept the legs.
def ReadDuring (labels : List ConfigLabel) (read : Config → Prop) : Prop :=
  ∃ before after c, labels = before ++ after ∧
    Machine.run (Machine.restrict keepsLegs configStep) .empty before = some c ∧ read c

theorem ReadDuring.legs {labels : List ConfigLabel} {read : Config → Prop} {c : Config}
    (h : ReadDuring labels read)
    (hrun : Machine.run (Machine.restrict keepsLegs configStep) .empty labels = some c) :
    ∃ m, read m ∧ Legs m.gateways m.prefixes ∧ KeepsTypes m.gateways c.gateways := by
  obtain ⟨before, after, m, rfl, hbefore, hread⟩ := h
  refine ⟨m, hread, ?_, ?_⟩
  · refine Machine.restrict_invariant (P := fun c => Legs c.gateways c.prefixes)
      (fun c l d hlegs hkeeps hstep => configStep_legs hlegs hkeeps hstep) ?_ hbefore
    exact ⟨by simp [Config.empty, Config.gateways, initService, Table.empty],
      by simp [Config.empty, Table.empty]⟩
  · rw [Machine.run_append, hbefore, Option.bind_some] at hrun
    refine Machine.restrict_invariant (P := fun c => KeepsTypes m.gateways c.gateways) ?_ ?_ hrun
    · exact fun _ _ _ hkept _ hstep => hkept.trans (configStep_keepsTypes hstep)
    · exact fun _ gw hfind => ⟨gw, hfind, rfl⟩

-- A gateway that was read on the way. It and the target of its link are B-leg
-- gateways by now.
def OnBLeg (c : Config) (gw : Gateway) : Prop :=
  (∃ last, c.gateways.find gw.id = some last ∧ last.type = .b_leg) ∧
    ∀ target, gw.failoverGatewayID = some target →
      ∃ last, c.gateways.find target = some last ∧ last.type = .b_leg

theorem OnBLeg.of_read {m c : Config} {gw : Gateway} (hlegs : Legs m.gateways m.prefixes)
    (hkeeps : KeepsTypes m.gateways c.gateways) (hfind : m.gateways.find gw.id = some gw) (hleg : gw.type = .b_leg) :
    OnBLeg c gw := by
  constructor
  · obtain ⟨last, hlast, htype⟩ := hkeeps _ gw hfind
    exact ⟨last, hlast, htype.trans hleg⟩
  · intro target htarget
    obtain ⟨next, hnext, hnextLeg⟩ := hlegs.link gw (Table.find_eq_some.mp hfind).1 target htarget
    obtain ⟨last, hlast, htype⟩ := hkeeps _ next hnext
    exact ⟨last, hlast, htype.trans (hnextLeg hleg)⟩

-- The first three bytes of a number are a prefix of that length.
theorem OnBLeg.of_row {m c : Config} {gw : Gateway} {row : GatewayPrefix} {calledNumber : String}
    (hlegs : Legs m.gateways m.prefixes) (hkeeps : KeepsTypes m.gateways c.gateways)
    (hlength : 3 ≤ (utf8 calledNumber).length) (hrow : Configured m.gateways m.prefixes calledNumber (row, gw)) :
    OnBLeg c gw := by
  obtain ⟨hrow, hfits, hfind, _⟩ := hrow
  obtain ⟨other, hother, hleg⟩ := hlegs.row row hrow
  cases hfind.symm.trans hother
  have hid : gw.id = row.gatewayID := (Table.find_eq_some.mp hfind).2
  refine .of_read hlegs hkeeps (hid ▸ hfind) (hleg ?_)
  simp only at hfits
  rw [hfits, List.length_take]
  omega

theorem OnBLeg.next {m c : Config} {gw next : Gateway} {id : Int64} (h : OnBLeg c gw)
    (hid : gw.failoverGatewayID = some id) (hlegs : Legs m.gateways m.prefixes)
    (hkeeps : KeepsTypes m.gateways c.gateways) (hfind : m.gateways.find id = some next) : OnBLeg c next := by
  have hnextID : next.id = id := (Table.find_eq_some.mp hfind).2
  obtain ⟨last, hlast, hleg⟩ := h.2 id hid
  obtain ⟨kept, hkept, htype⟩ := hkeeps id next hfind
  cases hlast.symm.trans hkept
  exact .of_read hlegs hkeeps (hnextID.symm ▸ hfind) (htype.symm.trans hleg)

theorem pickBLeg_ok {lookup : Nat → Nat → Int64 → Option Gateway} {calledNumber : String} {e : APIError}
    {query : Except APIError (List Gateway × Option APIError)} {response : PickBLegResponse}
    (h : pickBLeg lookup calledNumber e query = .ok response) :
    ∃ rows fault, query = .ok (rows, fault) ∧ 3 ≤ (utf8 calledNumber).length ∧
      pickFirst lookup rows = some response := by
  revert h
  fun_cases pickBLeg lookup calledNumber e query
  case case4 hlength calledPrefix rows fault found _ hfirst =>
      intro h
      cases h
      exact ⟨rows, fault, rfl, Nat.le_of_not_lt hlength, hfirst⟩
  all_goals
    intro h
    cases h

-- PickBLeg may read at any moments of the run, with any answers lost.
theorem pickBLeg_bLeg {labels : List ConfigLabel} {c : Config}
    (hrun : Machine.run (Machine.restrict keepsLegs configStep) .empty labels = some c)
    {lookup : Nat → Nat → Int64 → Option Gateway} {calledNumber : String} {e : APIError}
    {query : Except APIError (List Gateway × Option APIError)} {response : PickBLegResponse}
    (hquery : ∀ rows fault, query = .ok (rows, fault) → ReadDuring labels fun read =>
      ∀ gw ∈ rows, ∃ row, Configured read.gateways read.prefixes calledNumber (row, gw))
    (hlookup : ∀ place hop id gw, lookup place hop id = some gw →
      ReadDuring labels fun read => read.gateways.find id = some gw)
    (hpick : pickBLeg lookup calledNumber e query = .ok response) :
    ∃ gw, c.gateways.find response.gatewayID = some gw ∧ gw.type = .b_leg := by
  obtain ⟨rows, fault, hqueried, hlength, hfirst⟩ := pickBLeg_ok hpick
  obtain ⟨m, hrows, hlegs, hkeeps⟩ := (hquery rows fault hqueried).legs hrun
  have hrowsOn : ∀ gw ∈ rows, OnBLeg c gw := by
    intro gw hgw
    obtain ⟨row, hrow⟩ := hrows gw hgw
    exact .of_row hlegs hkeeps hlength hrow
  have hnextOn : ∀ place hop next id gw, OnBLeg c gw → gw.failoverGatewayID = some id →
      lookup place hop id = some next → OnBLeg c next := by
    intro place hop next id gw hgw hid hsome
    obtain ⟨m, hfind, hlegs, hkeeps⟩ := (hlookup place hop id next hsome).legs hrun
    exact hgw.next hid hlegs hkeeps hfind
  obtain ⟨gw, ⟨⟨last, hlast, hleg⟩, _⟩, rfl⟩ := pickFirst_cases hfirst hrowsOn hnextOn
  exact ⟨last, hlast, hleg⟩

def trunk (type : GatewayType) : Gateway := ⟨1, "trunk", type, "10.0.0.1:5060", 1, true, true, none, 0, 3⟩

-- A gateway is created, and a prefix is added to it.
def configureTrunk (type : String) : List ConfigLabel :=
  [.gateways (.spawn (.createGateway operator ⟨"trunk", type, "10.0.0.1:5060", 1, none, none⟩)),
    .gateways (.move 0 (.inserted 1)), .addPrefix operator 1 ⟨"138", 0⟩ none ⟨.Unknown, ""⟩]

def bLegTrunk : Config where
  routing :=
    { shared := ⟨⟨[trunk .b_leg], List.nodup_singleton _⟩, []⟩
      tasks := [.returned (.ok (.gateway (trunk .b_leg)))] }
  prefixes := ⟨[⟨1, "138", 0⟩], List.nodup_singleton _⟩

theorem bLegTrunk_run :
    Machine.run (Machine.restrict keepsLegs configStep) .empty (configureTrunk "b_leg") = some bLegTrunk := by
  rfl

theorem pickBLeg_bLeg_trunk : ∃ gw, bLegTrunk.gateways.find 1 = some gw ∧ gw.type = .b_leg := by
  refine @pickBLeg_bLeg _ _ bLegTrunk_run (fun _ _ _ => none) "13812345678" ⟨.Unknown, ""⟩
    (.ok ([trunk .b_leg], none))
    ⟨1, "trunk", "10.0.0.1:5060"⟩ ?_ ?_ (by decide +kernel)
  · rintro rows fault heq
    cases heq
    refine ⟨configureTrunk "b_leg", [], bLegTrunk, (List.append_nil _).symm, bLegTrunk_run, ?_⟩
    intro gw hgw
    rw [List.mem_singleton] at hgw
    subst hgw
    exact ⟨⟨1, "138", 0⟩, by decide +kernel⟩
  · intro _ _ _ _ hnone
    cases hnone

-- AddPrefix does not look at the type of the gateway.
theorem pickBLeg_aLeg : ∃ (c : Config) (rows : List (GatewayPrefix × Gateway)) (gw : Gateway),
    Machine.run configStep .empty (configureTrunk "a_leg") = some c ∧
    (∀ entry, entry ∈ rows ↔ Configured c.gateways c.prefixes "13812345678" entry) ∧
    pickBLeg (fun _ _ => c.gateways.find) "13812345678" ⟨.Unknown, ""⟩ (.ok (rows.map Prod.snd, none)) =
      .ok gw.bLegResponse ∧
    c.gateways.find gw.id = some gw ∧ gw.type = .a_leg := by
  refine ⟨_, _, trunk .a_leg, rfl, fun entry => mem_prefixRows, by decide +kernel, by rfl, rfl⟩

end Bos3000.Routing
