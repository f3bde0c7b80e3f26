import Bos3000.Routing.BLeg

-- What PickBLeg finds on a graph of gateways: chains of any length, missing
-- targets and cycles included.
namespace Bos3000.Routing

open Webhook (utf8)

def Gateway.serves (gw : Gateway) : Bool := gw.healthy && gw.enabled

-- The nodes of a failover chain, counted from the target of the gateway's own link.
def failoverNode (t : GatewayTable) (gw : Gateway) : Nat → Option Gateway
  | 0 => gw.failoverGatewayID.bind t.find
  | k + 1 => (gw.failoverGatewayID.bind t.find).bind fun next => failoverNode t next k

-- The first of the next `maxHops` nodes that is healthy and enabled.
def ServesWithin (t : GatewayTable) (maxHops : Nat) (gw chosen : Gateway) : Prop :=
  ∃ k < maxHops, failoverNode t gw k = some chosen ∧ chosen.serves = true ∧
    ∀ j < k, ∀ node, failoverNode t gw j = some node → node.serves = false

-- What a gateway with the prefix yields.
def Yields (t : GatewayTable) (gw chosen : Gateway) : Prop :=
  (gw.healthy = true ∧ chosen = gw) ∨ (gw.healthy = false ∧ ServesWithin t 3 gw chosen)

-- An enabled gateway with a row for the number's prefix.
def Configured (t : GatewayTable) (prefixes : PrefixTable) (calledNumber : String)
    (entry : GatewayPrefix × Gateway) : Prop :=
  entry.1 ∈ prefixes.rows ∧ utf8 entry.1.calledPrefix = (utf8 calledNumber).take 3 ∧
    t.find entry.1.gatewayID = some entry.2 ∧ entry.2.enabled = true

instance (t : GatewayTable) (prefixes : PrefixTable) (calledNumber : String)
    (entry : GatewayPrefix × Gateway) : Decidable (Configured t prefixes calledNumber entry) :=
  inferInstanceAs (Decidable (_ ∧ _ ∧ _ ∧ _))

-- ORDER BY priority leaves the order of equal priorities open.
def Sorted (entries : List (GatewayPrefix × Gateway)) : Prop :=
  entries.Pairwise fun entry later => entry.1.priority ≤ later.1.priority

theorem mem_prefixRows {t : GatewayTable} {prefixes : PrefixTable} {calledNumber : String}
    {entry : GatewayPrefix × Gateway} :
    entry ∈ prefixRows t prefixes calledNumber ↔ Configured t prefixes calledNumber entry := by
  obtain ⟨row, gw⟩ := entry
  simp only [prefixRows, List.mem_filterMap, List.mem_filter, GatewayPrefix.fits, decide_eq_true_eq,
    Option.map_eq_some_iff, Option.filter_eq_some_iff, Configured]
  constructor
  · rintro ⟨row, ⟨hrow, hfits⟩, gw, ⟨hfind, henabled⟩, heq⟩
    cases heq
    exact ⟨hrow, hfits, hfind, henabled⟩
  · rintro ⟨hrow, hfits, hfind, henabled⟩
    exact ⟨row, ⟨hrow, hfits⟩, gw, ⟨hfind, henabled⟩, rfl⟩

-- The walk ends: it spends one hop on each node.
theorem servesWithin_succ {t : GatewayTable} {maxHops : Nat} {gw next chosen : Gateway}
    (hnext : gw.failoverGatewayID.bind t.find = some next) :
    ServesWithin t (maxHops + 1) gw chosen ↔
      (next.serves = true ∧ chosen = next) ∨ (next.serves = false ∧ ServesWithin t maxHops next chosen) := by
  have hfirst : failoverNode t gw 0 = some next := hnext
  have hlater : ∀ k, failoverNode t gw (k + 1) = failoverNode t next k := by
    intro k
    rw [failoverNode, hnext, Option.bind_some]
  constructor
  · rintro ⟨k, hk, hnode, hserves, hbefore⟩
    cases k with
    | zero =>
        cases hfirst.symm.trans hnode
        exact .inl ⟨hserves, rfl⟩
    | succ k =>
        rw [hlater] at hnode
        refine .inr ⟨hbefore 0 (by omega) next hfirst, k, by omega, hnode, hserves, ?_⟩
        intro j hj node hj'
        exact hbefore (j + 1) (by omega) node ((hlater j).trans hj')
  · rintro (⟨hserves, rfl⟩ | ⟨hnot, k, hk, hnode, hserves, hbefore⟩)
    · exact ⟨0, by omega, hfirst, hserves, by omega⟩
    · refine ⟨k + 1, by omega, (hlater k).trans hnode, hserves, ?_⟩
      intro j hj node hj'
      cases j with
      | zero =>
          cases hfirst.symm.trans hj'
          exact hnot
      | succ j => exact hbefore j (by omega) node ((hlater j).symm.trans hj')

theorem not_servesWithin {t : GatewayTable} {maxHops : Nat} {gw chosen : Gateway}
    (hnone : gw.failoverGatewayID.bind t.find = none) : ¬ServesWithin t maxHops gw chosen := by
  rintro ⟨k, _, hnode, _⟩
  cases k <;> simp [failoverNode, hnone] at hnode

theorem followFailover_eq_some {t : GatewayTable} {maxHops : Nat} {gw : Gateway} {response : PickBLegResponse} :
    followFailover (fun _ => t.find) maxHops gw.failoverGatewayID = some response ↔
      ∃ chosen, ServesWithin t maxHops gw chosen ∧ response = chosen.bLegResponse := by
  induction maxHops generalizing gw with
  | zero => simp [followFailover, ServesWithin]
  | succ maxHops ih =>
      cases hnext : gw.failoverGatewayID.bind t.find with
      | none =>
          have hnot : followFailover (fun _ => t.find) (maxHops + 1) gw.failoverGatewayID = none := by
            cases hlink : gw.failoverGatewayID with
            | none => rfl
            | some failoverID =>
                have hmissing : t.find failoverID = none := by simpa [hlink] using hnext
                simp only [followFailover, hmissing]
          simp [hnot, not_servesWithin hnext]
      | some next =>
          obtain ⟨failoverID, hlink, hfind⟩ := Option.bind_eq_some_iff.mp hnext
          simp only [hlink, followFailover, hfind, servesWithin_succ hnext]
          cases hserves : next.serves with
          | true =>
              have hboth : (next.healthy && next.enabled) = true := hserves
              rw [if_pos hboth]
              simp [eq_comm]
          | false =>
              have hnot : ¬(next.healthy && next.enabled) = true := by
                rw [Gateway.serves] at hserves
                simp [hserves]
              rw [if_neg hnot, ih]
              simp

theorem pick_eq_some {t : GatewayTable} {gw : Gateway} {response : PickBLegResponse} :
    gw.pick (fun _ => t.find) = some response ↔
      ∃ chosen, Yields t gw chosen ∧ response = chosen.bLegResponse := by
  unfold Gateway.pick Yields
  cases gw.healthy with
  | true => simp [eq_comm]
  | false => simp [followFailover_eq_some]

theorem pick_eq_none {t : GatewayTable} {gw : Gateway} :
    gw.pick (fun _ => t.find) = none ↔ ∀ chosen, ¬Yields t gw chosen := by
  rw [Option.eq_none_iff_forall_ne_some]
  constructor
  · intro hnone chosen hyields
    exact hnone _ (pick_eq_some.mpr ⟨chosen, hyields, rfl⟩)
  · intro hnone response hpick
    obtain ⟨chosen, hyields, _⟩ := pick_eq_some.mp hpick
    exact hnone chosen hyields

theorem pickFirst_eq_findSome (lookup : Nat → Int64 → Option Gateway) (rows : List Gateway) :
    pickFirst (fun _ => lookup) rows = rows.findSome? (·.pick lookup) := by
  induction rows with
  | nil => rfl
  | cons gw rest ih =>
      simp only [pickFirst, List.findSome?_cons, ih]
      cases gw.pick lookup <;> rfl

-- The rows yield the first response that any of them yields.
theorem pickFirst_eq_some {t : GatewayTable} {entries : List (GatewayPrefix × Gateway)}
    {response : PickBLegResponse} :
    pickFirst (fun _ _ => t.find) (entries.map Prod.snd) = some response ↔
      ∃ before entry after chosen, entries = before ++ entry :: after ∧
        (∀ earlier ∈ before, ∀ other, ¬Yields t earlier.2 other) ∧ Yields t entry.2 chosen ∧
          response = chosen.bLegResponse := by
  rw [pickFirst_eq_findSome, List.findSome?_map, List.findSome?_eq_some_iff]
  simp only [Function.comp_apply, pick_eq_some, pick_eq_none]
  constructor
  · rintro ⟨before, entry, after, hsplit, ⟨chosen, hyields, hresponse⟩, hbefore⟩
    exact ⟨before, entry, after, chosen, hsplit, hbefore, hyields, hresponse⟩
  · rintro ⟨before, entry, after, chosen, hsplit, hbefore, hyields, hresponse⟩
    exact ⟨before, entry, after, hsplit, ⟨chosen, hyields, hresponse⟩, hbefore⟩

theorem pickFirst_eq_none {t : GatewayTable} {entries : List (GatewayPrefix × Gateway)} :
    pickFirst (fun _ _ => t.find) (entries.map Prod.snd) = none ↔
      ∀ entry ∈ entries, ∀ chosen, ¬Yields t entry.2 chosen := by
  rw [pickFirst_eq_findSome, List.findSome?_map, List.findSome?_eq_none_iff]
  simp only [Function.comp_apply, pick_eq_none]

theorem pickBLeg_of_rows {t : GatewayTable} {calledNumber calledPrefix : String} {e : APIError} {rows : List Gateway}
    (hlength : 3 ≤ (utf8 calledNumber).length) (hcalled : queryPrefix calledNumber = some calledPrefix) :
    pickBLeg (fun _ _ => t.find) calledNumber e (.ok (rows, none)) =
      match pickFirst (fun _ _ => t.find) rows with
      | some response => .ok response
      | none =>
          if rows = [] then .error (prefixNotFound calledPrefix) else .error (allUnhealthy calledPrefix) := by
  simp only [pickBLeg, if_neg (Nat.not_lt.mpr hlength), hcalled]
  cases pickFirst (fun _ _ => t.find) rows <;> rfl

theorem pickBLeg_refused {lookup : Nat → Nat → Int64 → Option Gateway} {calledNumber : String} {e : APIError}
    {query : Except APIError (List Gateway × Option APIError)} (hlength : 3 ≤ (utf8 calledNumber).length)
    (hcalled : queryPrefix calledNumber = none) : pickBLeg lookup calledNumber e query = .error e := by
  simp only [pickBLeg, if_neg (Nat.not_lt.mpr hlength), hcalled]

-- In sorted rows, what comes after a row has no lesser priority.
theorem Sorted.le_of_split {entries before after : List (GatewayPrefix × Gateway)}
    {entry other : GatewayPrefix × Gateway} (hsorted : Sorted entries)
    (hsplit : entries = before ++ entry :: after) (hother : other ∈ entries) (hnot : other ∉ before) :
    entry.1.priority ≤ other.1.priority := by
  subst hsplit
  rcases List.mem_append.mp hother with hbefore | hother
  · exact absurd hbefore hnot
  · rcases List.mem_cons.mp hother with rfl | hafter
    · exact Int64.le_refl _
    · have hpairs := (List.pairwise_append.mp hsorted).2.1
      exact List.rel_of_pairwise_cons hpairs hafter

theorem prefixNotFound_ne (calledPrefix : String) : prefixNotFound calledPrefix ≠ allUnhealthy calledPrefix := by
  intro h
  cases congrArg APIError.code h

section Rows

variable {t : GatewayTable} {prefixes : PrefixTable} {calledNumber calledPrefix : String} {e : APIError}
  {entries : List (GatewayPrefix × Gateway)}

-- PickBLeg returns what the first row that yields anything yields, and tells
-- the two ways to find nothing apart.
theorem pickBLeg_picks (hlength : 3 ≤ (utf8 calledNumber).length)
    (hcalled : queryPrefix calledNumber = some calledPrefix)
    (hentries : entries.Perm (prefixRows t prefixes calledNumber)) (hsorted : Sorted entries) :
    let outcome := pickBLeg (fun _ _ => t.find) calledNumber e (.ok (entries.map Prod.snd, none))
    (∀ entry, entry ∈ entries ↔ Configured t prefixes calledNumber entry) ∧
    (∀ response, outcome = .ok response ↔
      ∃ before entry after chosen, entries = before ++ entry :: after ∧
        (∀ earlier ∈ before, ∀ other, ¬Yields t earlier.2 other) ∧ Yields t entry.2 chosen ∧
          (∀ other ∈ entries, other ∉ before → entry.1.priority ≤ other.1.priority) ∧
            response = chosen.bLegResponse) ∧
    (outcome = .error (prefixNotFound calledPrefix) ↔
      ∀ entry, ¬Configured t prefixes calledNumber entry) ∧
    (outcome = .error (allUnhealthy calledPrefix) ↔
      (∃ entry, Configured t prefixes calledNumber entry) ∧
        ∀ entry, Configured t prefixes calledNumber entry → ∀ chosen, ¬Yields t entry.2 chosen) ∧
    ∀ e, outcome = .error e → e = prefixNotFound calledPrefix ∨ e = allUnhealthy calledPrefix := by
  have hmem : ∀ entry, entry ∈ entries ↔ Configured t prefixes calledNumber entry := by
    intro entry
    rw [hentries.mem_iff, mem_prefixRows]
  have hne := prefixNotFound_ne calledPrefix
  simp only [pickBLeg_of_rows hlength hcalled]
  refine ⟨hmem, ?_, ?_⟩
  · intro response
    have hpick := @pickFirst_eq_some t entries response
    constructor
    · intro hok
      have hsome : pickFirst (fun _ _ => t.find) (entries.map Prod.snd) = some response := by
        split at hok
        · simp_all
        · split at hok <;> cases hok
      obtain ⟨before, entry, after, chosen, hsplit, hbefore, hyields, hresponse⟩ := hpick.mp hsome
      refine ⟨before, entry, after, chosen, hsplit, hbefore, hyields, ?_, hresponse⟩
      exact fun other hother hnot => hsorted.le_of_split hsplit hother hnot
    · rintro ⟨before, entry, after, chosen, hsplit, hbefore, hyields, _, hresponse⟩
      rw [hpick.mpr ⟨before, entry, after, chosen, hsplit, hbefore, hyields, hresponse⟩]
  · simp only [← hmem, ← pickFirst_eq_none]
    cases entries with
    | nil => simp [pickFirst, hne]
    | cons entry rest =>
        have hentry : entry ∈ entry :: rest := List.mem_cons_self
        have hrows : ¬(entry :: rest).map Prod.snd = [] := by simp
        cases pickFirst (fun _ _ => t.find) ((entry :: rest).map Prod.snd) with
        | none =>
            simp only [if_neg hrows, Except.error.injEq, hne.symm, false_iff, true_iff]
            exact ⟨fun hnot => hnot entry hentry, ⟨⟨entry, hentry⟩, trivial⟩, fun e he => .inr he.symm⟩
        | some response =>
            simp only [reduceCtorEq, false_iff, and_false, false_implies, implies_true, and_true]
            exact fun hnot => hnot entry hentry

end Rows

-- PickBLeg meets its specification where the first three bytes of the number are a
-- text, and passes on the error of the database where they are none.
theorem pickBLeg_spec (t : GatewayTable) (prefixes : PrefixTable) (calledNumber : String) (e : APIError)
    (entries : List (GatewayPrefix × Gateway)) (hlength : 3 ≤ (utf8 calledNumber).length)
    (hentries : entries.Perm (prefixRows t prefixes calledNumber)) (hsorted : Sorted entries) :
    (∀ calledPrefix, utf8 calledPrefix = (utf8 calledNumber).take 3 → '\x00' ∉ calledPrefix.toList →
      let outcome := pickBLeg (fun _ _ => t.find) calledNumber e (.ok (entries.map Prod.snd, none))
      (∀ entry, entry ∈ entries ↔ Configured t prefixes calledNumber entry) ∧
      (∀ response, outcome = .ok response ↔
        ∃ before entry after chosen, entries = before ++ entry :: after ∧
          (∀ earlier ∈ before, ∀ other, ¬Yields t earlier.2 other) ∧ Yields t entry.2 chosen ∧
            (∀ other ∈ entries, other ∉ before → entry.1.priority ≤ other.1.priority) ∧
              response = chosen.bLegResponse) ∧
      (outcome = .error (prefixNotFound calledPrefix) ↔
        ∀ entry, ¬Configured t prefixes calledNumber entry) ∧
      (outcome = .error (allUnhealthy calledPrefix) ↔
        (∃ entry, Configured t prefixes calledNumber entry) ∧
          ∀ entry, Configured t prefixes calledNumber entry → ∀ chosen, ¬Yields t entry.2 chosen) ∧
      ∀ e, outcome = .error e → e = prefixNotFound calledPrefix ∨ e = allUnhealthy calledPrefix) ∧
    ((∀ calledPrefix, utf8 calledPrefix = (utf8 calledNumber).take 3 → '\x00' ∈ calledPrefix.toList) →
      ∀ lookup query, pickBLeg lookup calledNumber e query = .error e) := by
  constructor
  · intro calledPrefix hbytes hnul
    exact pickBLeg_picks hlength ((queryPrefix_eq_some hlength).mpr ⟨hbytes, hnul⟩) hentries hsorted
  · intro hnone lookup query
    refine pickBLeg_refused hlength (Option.eq_none_iff_forall_ne_some.mpr fun calledPrefix hsome => ?_)
    obtain ⟨hbytes, hnul⟩ := (queryPrefix_eq_some hlength).mp hsome
    exact hnul (hnone calledPrefix hbytes)

-- Two unhealthy gateways whose failover links lead to each other.
def cycle : GatewayTable where
  rows := [⟨1, "primary", .b_leg, "10.0.0.1:5060", 1, false, true, some 2, 3, 3⟩,
    ⟨2, "secondary", .b_leg, "10.0.0.2:5060", 1, false, true, some 1, 3, 3⟩]
  distinct := by decide

def cyclePrefixes : PrefixTable where
  rows := [⟨1, "138", 0⟩, ⟨2, "139", 0⟩]
  distinct := by decide

theorem pickBLeg_spec_cycle :
    (∃ entry, Configured cycle cyclePrefixes "13812345678" entry) ∧
      ∀ entry, Configured cycle cyclePrefixes "13812345678" entry → ∀ chosen, ¬Yields cycle entry.2 chosen :=
  ((pickBLeg_spec cycle cyclePrefixes "13812345678" ⟨.Unknown, ""⟩ (prefixRows cycle cyclePrefixes "13812345678")
    (by decide +kernel) (List.Perm.refl _) (by unfold Sorted; decide +kernel)).1 "138" (by decide +kernel)
      (by decide +kernel)).2.2.2.1.mp (by decide +kernel)

-- The third byte is the first half of a letter.
theorem pickBLeg_halfLetter :
    3 ≤ (utf8 "12é4567").length ∧ (∀ entry, ¬Configured cycle cyclePrefixes "12é4567" entry) ∧
      ∀ query calledPrefix, pickBLeg (fun _ _ => cycle.find) "12é4567"
        ⟨.Unknown, "ERROR: invalid byte sequence for encoding \"UTF8\": 0xc3 (SQLSTATE 22021)"⟩ query ≠
          .error (prefixNotFound calledPrefix) := by
  have hlength : 3 ≤ (utf8 "12é4567").length := by decide +kernel
  refine ⟨hlength, ?_, ?_⟩
  · intro entry hconfigured
    have hrow := mem_prefixRows.mpr hconfigured
    rw [show prefixRows cycle cyclePrefixes "12é4567" = [] by decide +kernel] at hrow
    cases hrow
  · intro query calledPrefix h
    rw [pickBLeg_refused hlength (by decide +kernel)] at h
    cases congrArg APIError.code (Except.error.inj h)

end Bos3000.Routing
