import Bos3000.Billing.Rates

-- Which rates a call is priced with: what the edits of a plan leave of it, and
-- whether a rate of the account's own comes before that of its plan.
namespace Bos3000.Billing

def RatePlan.rated (plan : RatePlan) : Prop :=
  plan.mode = "uniform" → plan.uniformARate.isSome ∧ plan.uniformBRate.isSome

instance (plan : RatePlan) : Decidable plan.rated := inferInstanceAs (Decidable (_ → _))

-- What the check of a new plan asks of it.
def PlansRated (rates : Rates) : Prop :=
  ∀ plan ∈ rates.plans.rows, (plan.mode = "uniform" ∨ plan.mode = "prefix") ∧ plan.rated

instance (rates : Rates) : Decidable (PlansRated rates) := inferInstanceAs (Decidable (∀ _ ∈ _, _))

-- A user of a uniform plan is priced, whatever number is called.
def UniformResolves (rates : Rates) : Prop :=
  ∀ config ∈ rates.configs.rows, ∀ plan ∈ rates.plans.rows, config.ratePlanID = some plan.id →
    plan.mode = "uniform" → ∀ calledPrefix prefixFault, ∃ response,
      resolveRate none none prefixFault ⟨config.userID, calledPrefix⟩ rates = .ok response

-- An edit that goes through and makes the plan uniform gives both of its rates.
def keepsPlanRated (rates : Rates) : RatesLabel → Bool
  | .updateRatePlan auth id p fault _ =>
      !((requireAdmin auth).isOk && fault.isNone && (rates.plans.find id).isSome && (varchar 100 p.name).isSome) ||
        p.mode ≠ "uniform" || p.uniformARate.isSome && p.uniformBRate.isSome
  | _ => true

theorem planRow_eq_some {id : Int64} {name mode : String} {a b : Option Money} {plan : RatePlan} :
    planRow id name mode a b = some plan ↔
      (mode = "uniform" ∨ mode = "prefix") ∧ ∃ kept, varchar 100 name = some kept ∧
      plan = ⟨id, kept, mode, a, b⟩ := by
  unfold planRow
  split
  · rename_i hmode
    simp only [Option.map_eq_some_iff, hmode, true_and]
    exact exists_congr fun kept => and_congr_right fun _ => eq_comm
  · simp_all

theorem validate_rated {p : CreateRatePlanParams} {u : Unit} (hvalid : p.validate = .ok u)
    (huniform : p.mode = "uniform") : p.uniformARate.isSome ∧ p.uniformBRate.isSome := by
  have hboth : ¬ (p.uniformARate = none ∨ p.uniformBRate = none) := by
    intro hmissing
    simp only [CreateRatePlanParams.validate, huniform, hmissing] at hvalid
    split at hvalid <;> cases hvalid
  simpa [Option.isSome_iff_ne_none, not_or] using hboth

theorem createRatePlan_plans (auth : Option AuthData) (p : CreateRatePlanParams) (answer : Option Int64) (e : String)
    (rates : Rates) : (createRatePlan auth p answer e rates).2.plans = rates.plans ∨
      ∃ plan, (createRatePlan auth p answer e rates).2.plans.rows = rates.plans.rows ++ [plan] ∧
        (plan.mode = "uniform" ∨ plan.mode = "prefix") ∧ plan.rated := by
  unfold createRatePlan
  cases hvalid : p.validate with
  | error e => exact .inl rfl
  | ok _ =>
      cases hauth : requireAdmin auth with
      | error e => exact .inl rfl
      | ok _ =>
          simp only
          split
          · exact .inl rfl
          · rename_i plan plans hinserted
            simp only [Option.bind_eq_some_iff, Option.map_eq_some_iff, Prod.mk.injEq] at hinserted
            obtain ⟨id, _, _, hrow, _, hinsert, rfl, rfl⟩ := hinserted
            obtain ⟨hmode, kept, _, rfl⟩ := planRow_eq_some.mp hrow
            exact .inr ⟨_, (Table.insert_eq_some hinsert).1, hmode, fun huniform => validate_rated hvalid huniform⟩

theorem updateRatePlan_plans (auth : Option AuthData) (id : Int64) (p : UpdateRatePlanParams) (fault : Option String)
    (e : String) (rates : Rates) : (updateRatePlan auth id p fault e rates).2.plans = rates.plans ∨
      (requireAdmin auth).isOk = true ∧ fault = none ∧ (∃ old, rates.plans.find id = some old) ∧
        ∃ kept, varchar 100 p.name = some kept ∧ (p.mode = "uniform" ∨ p.mode = "prefix") ∧
          (updateRatePlan auth id p fault e rates).2.plans.rows = rates.plans.rows.map fun row =>
            if row.id = id then ⟨row.id, kept, p.mode, p.uniformARate, p.uniformBRate⟩ else row := by
  unfold updateRatePlan
  cases hauth : requireAdmin auth with
  | error e => exact .inl rfl
  | ok _ =>
      cases fault with
      | some e => exact .inl rfl
      | none =>
          simp only
          split
          · exact .inl rfl
          · exact .inl rfl
          · rename_i old plan hfind hrow
            obtain ⟨hmode, kept, hkept, rfl⟩ := planRow_eq_some.mp hrow
            exact .inr ⟨rfl, trivial, ⟨old, hfind⟩, kept, hkept, hmode, rfl⟩

theorem createRatePlan_configs (auth : Option AuthData) (p : CreateRatePlanParams) (answer : Option Int64)
    (e : String) (rates : Rates) : (createRatePlan auth p answer e rates).2.configs = rates.configs := by
  unfold createRatePlan
  split
  · rfl
  · rfl
  · simp only
    split <;> rfl

theorem updateRatePlan_configs (auth : Option AuthData) (id : Int64) (p : UpdateRatePlanParams)
    (fault : Option String) (e : String) (rates : Rates) :
    (updateRatePlan auth id p fault e rates).2.configs = rates.configs := by
  unfold updateRatePlan
  split
  · rfl
  · rfl
  · split <;> rfl

theorem addPrefixRate_frame (auth : Option AuthData) (id : Int64) (p : AddPrefixRateParams) (fault : Option String)
    (e : String) (rates : Rates) : (addPrefixRate auth id p fault e rates).2.plans = rates.plans ∧
      (addPrefixRate auth id p fault e rates).2.configs = rates.configs := by
  unfold addPrefixRate
  split
  · exact ⟨rfl, rfl⟩
  · split
    · exact ⟨rfl, rfl⟩
    · simp only
      split <;> exact ⟨rfl, rfl⟩

theorem removePrefixRate_frame (auth : Option AuthData) (id : Int64) (calledPrefix : String) (fault : Option String)
    (rates : Rates) : (removePrefixRate auth id calledPrefix fault rates).2.plans = rates.plans ∧
      (removePrefixRate auth id calledPrefix fault rates).2.configs = rates.configs := by
  unfold removePrefixRate
  split
  · exact ⟨rfl, rfl⟩
  · exact ⟨rfl, rfl⟩
  · split <;> exact ⟨rfl, rfl⟩

theorem setUserRateConfig_plans (auth : Option AuthData) (userID : UserID) (p : SetUserRateConfigParams)
    (fault : Option String) (rates : Rates) :
    (setUserRateConfig auth userID p fault rates).2.plans = rates.plans := by
  unfold setUserRateConfig
  split
  · rfl
  · rfl
  · split <;> rfl

-- The steps that touch the plans are the two that write them.
theorem step_plans {rates next : Rates} {label : RatesLabel} (hstep : rates.step label = some next) :
    next.plans = rates.plans ∨ (∃ auth p answer e, label = .createRatePlan auth p answer e) ∨
      ∃ auth id p fault e, label = .updateRatePlan auth id p fault e := by
  cases label with
  | createAccount userID ratePlanID =>
      simp only [Rates.step, Option.map_eq_some_iff] at hstep
      obtain ⟨_, _, rfl⟩ := hstep
      exact .inl rfl
  | createRatePlan auth p answer e => exact .inr (.inl ⟨auth, p, answer, e, rfl⟩)
  | updateRatePlan auth id p fault e => exact .inr (.inr ⟨auth, id, p, fault, e, rfl⟩)
  | addPrefixRate auth id p fault e =>
      cases hstep
      exact .inl (addPrefixRate_frame auth id p fault e rates).1
  | removePrefixRate auth id calledPrefix fault =>
      cases hstep
      exact .inl (removePrefixRate_frame auth id calledPrefix fault rates).1
  | setUserRateConfig auth userID p fault =>
      cases hstep
      exact .inl (setUserRateConfig_plans auth userID p fault rates)

theorem step_rated {rates next : Rates} {label : RatesLabel} (hrated : PlansRated rates)
    (hkeeps : keepsPlanRated rates label = true) (hstep : rates.step label = some next) : PlansRated next := by
  have hsame : next.plans = rates.plans → PlansRated next := fun h plan hplan => hrated plan (h ▸ hplan)
  obtain h | ⟨auth, p, answer, e, rfl⟩ | ⟨auth, id, p, fault, e, rfl⟩ := step_plans hstep
  · exact hsame h
  · cases hstep
    obtain h | ⟨plan, hrows, hmode, hnew⟩ := createRatePlan_plans auth p answer e rates
    · exact hsame h
    · intro row hrow
      rw [hrows, List.mem_append, List.mem_singleton] at hrow
      obtain hrow | rfl := hrow
      · exact hrated row hrow
      · exact ⟨hmode, hnew⟩
  · cases hstep
    obtain h | ⟨hauth, rfl, ⟨old, hold⟩, kept, hkept, hmode, hrows⟩ :=
      updateRatePlan_plans auth id p fault e rates
    · exact hsame h
    · have hgiven : p.mode = "uniform" → p.uniformARate.isSome ∧ p.uniformBRate.isSome := by
        intro huniform
        simpa [keepsPlanRated, hauth, hold, hkept, huniform] using hkeeps
      intro row hrow
      rw [hrows, List.mem_map] at hrow
      obtain ⟨before, hbefore, rfl⟩ := hrow
      split
      · exact ⟨hmode, hgiven⟩
      · exact hrated before hbefore

theorem step_unrated {rates next : Rates} {label : RatesLabel} (hkeeps : keepsPlanRated rates label = false)
    (hstep : rates.step label = some next) : ¬ PlansRated next := by
  intro hrated
  cases label with
  | updateRatePlan auth id p fault e =>
      simp only [keepsPlanRated, Bool.or_eq_false_iff, Bool.not_eq_false', Bool.and_eq_true, decide_eq_false_iff_not,
        ne_eq, not_not, Option.isNone_iff_eq_none, Option.isSome_iff_exists] at hkeeps
      obtain ⟨⟨⟨⟨⟨hauth, rfl⟩, old, hold⟩, kept, hkept⟩, huniform⟩, hmissing⟩ := hkeeps
      cases hstep
      obtain ⟨hmem, rfl⟩ := Table.find_eq_some.mp hold
      obtain ⟨_, hadmin⟩ : ∃ u, requireAdmin auth = .ok u := by
        cases hcase : requireAdmin auth with
        | error e =>
            rw [hcase] at hauth
            cases hauth
        | ok u => exact ⟨u, rfl⟩
      have hrow : planRow old.id p.name p.mode p.uniformARate p.uniformBRate =
          some ⟨old.id, kept, p.mode, p.uniformARate, p.uniformBRate⟩ :=
        planRow_eq_some.mpr ⟨.inl huniform, kept, hkept, rfl⟩
      have hnew : (⟨old.id, kept, p.mode, p.uniformARate, p.uniformBRate⟩ : RatePlan) ∈
          (updateRatePlan auth old.id p none e rates).2.plans.rows := by
        simp only [updateRatePlan, hadmin, hold, hrow]
        exact Table.mem_update.mpr ⟨old, hmem, by simp⟩
      have hboth := (hrated _ hnew).2 huniform
      simp [hboth.1, hboth.2] at hmissing
  | createAccount | createRatePlan | addPrefixRate | removePrefixRate | setUserRateConfig => cases hkeeps

theorem uniformResolves_of_rated {rates : Rates} (hrated : PlansRated rates) : UniformResolves rates := by
  intro config hconfig plan hplan hassigned huniform calledPrefix prefixFault
  obtain ⟨userID, ratePlanID, aLegRate, bLegRate⟩ := config
  have haccount := Table.find_eq_some.mpr ⟨hconfig, rfl⟩
  have hfind := Table.find_eq_some.mpr ⟨hplan, rfl⟩
  obtain ⟨ha, hb⟩ := (hrated plan hplan).2 huniform
  obtain ⟨a, ha⟩ := Option.isSome_iff_exists.mp ha
  obtain ⟨b, hb⟩ := Option.isSome_iff_exists.mp hb
  have hresolve : plan.resolve rates calledPrefix prefixFault = some ⟨a, b, "plan_uniform"⟩ := by
    simp [RatePlan.resolve, huniform, ha, hb]
  subst hassigned
  cases aLegRate <;> cases bLegRate <;> simp [resolveRate, haccount, hfind, hresolve]

-- A run leaves each plan with its rates and each user of a uniform plan with a price
-- in every state exactly if no edit makes a plan uniform without giving both rates.
theorem uniform_plans_rated {labels : List RatesLabel} {rates : Rates}
    (hrun : Machine.run Rates.step .empty labels = some rates) :
    Machine.Throughout Rates.step (fun rates => PlansRated rates ∧ UniformResolves rates) .empty labels ↔
      Machine.run (Machine.restrict keepsPlanRated Rates.step) .empty labels = some rates := by
  have hempty : PlansRated .empty := by intro plan hplan; cases hplan
  exact (Machine.restrict_iff_throughout (I := PlansRated) hempty
    (fun _ hrated => ⟨hrated, uniformResolves_of_rated hrated⟩)
    (fun _ _ _ hrated hkeeps hstep => step_rated hrated hkeeps hstep)
    (fun _ _ _ _ hkeeps hstep hboth => step_unrated hkeeps hstep hboth.1) hrun).symm

-- A uniform plan whose edit gives new rates.
def priceRise : List RatesLabel :=
  [RatesLabel.createAccount 7 (some 1), .createRatePlan operator ⟨"basic", "uniform", some 60, some 120⟩
    (some 1) "",
    .updateRatePlan operator 1 ⟨"basic", "uniform", some 90, some 150⟩ none ""]

theorem uniform_plans_rated_rise : ∃ rates, Machine.run Rates.step .empty priceRise = some rates ∧
    Machine.Throughout Rates.step (fun rates => PlansRated rates ∧ UniformResolves rates) .empty priceRise :=
  ⟨_, rfl, (uniform_plans_rated rfl).mpr rfl⟩

-- The edit is accepted, and the users of the plan lose their prices.
def renamedPlan : List RatesLabel :=
  [RatesLabel.createAccount 7 (some 1), .createRatePlan operator ⟨"basic", "uniform", some 60, some 120⟩
    (some 1) "",
    .updateRatePlan operator 1 ⟨"standard", "uniform", none, none⟩ none ""]

theorem plan_loses_rates : ∃ rates, Machine.run Rates.step .empty renamedPlan = some rates ∧
    ¬ PlansRated rates ∧ ¬ UniformResolves rates := by
  refine ⟨_, rfl, by decide, fun hresolves => ?_⟩
  obtain ⟨response, hresponse⟩ := hresolves ⟨7, some 1, none, none⟩ (List.mem_singleton_self _)
    ⟨1, "standard", "uniform", none, none⟩ (List.mem_singleton_self _) rfl rfl "139" none
  cases hresponse

-- The rates that a plan has for a prefix, as the tables hold them.
def Rates.planRates (rates : Rates) (ratePlanID : Option Int64) (calledPrefix : String) : Option (Money × Money) :=
  ratePlanID.bind fun id => (rates.plans.find id).bind fun plan =>
    if plan.mode = "uniform" then
      plan.uniformARate.bind fun a => plan.uniformBRate.map fun b => (a, b)
    else if plan.mode = "prefix" then
      (rates.prefixes.find (id, calledPrefix)).map fun row => (row.aRate, row.bRate)
    else none

-- A leg is priced with the account's own rate, and with the plan's where it has none.
structure OwnRatesFirst (rates : Rates) (userID : UserID) (p : SetUserRateConfigParams) (calledPrefix : String) :
    Prop where
  perLeg : ∀ accountFault planFault prefixFault response,
    resolveRate accountFault planFault prefixFault ⟨userID, calledPrefix⟩ rates = .ok response →
    p.aLegRate.or ((rates.planRates p.ratePlanID calledPrefix).map Prod.fst) = some response.aLegRate ∧
      p.bLegRate.or ((rates.planRates p.ratePlanID calledPrefix).map Prod.snd) = some response.bLegRate
  both : p.aLegRate.isSome → p.bLegRate.isSome → ∀ planFault prefixFault, ∃ response,
    resolveRate none planFault prefixFault ⟨userID, calledPrefix⟩ rates = .ok response

-- Where the plan has rates, the account has both rates of its own or neither, or its
-- own rate is the plan's.
def OwnRatesAgree (rates : Rates) (p : SetUserRateConfigParams) (calledPrefix : String) : Prop :=
  ∀ pair ∈ rates.planRates p.ratePlanID calledPrefix, p.aLegRate.isSome = p.bLegRate.isSome ∨
    (∀ a ∈ p.aLegRate, a = pair.1) ∧ ∀ b ∈ p.bLegRate, b = pair.2

theorem resolve_planRates {plan : RatePlan} {rates : Rates} (hfind : rates.plans.find plan.id = some plan)
    (calledPrefix : String) : (plan.resolve rates calledPrefix none).map (fun r => (r.aLegRate, r.bLegRate)) =
      rates.planRates (some plan.id) calledPrefix := by
  obtain ⟨id, name, mode, a, b⟩ := plan
  simp only [Rates.planRates, Option.bind_some, hfind]
  unfold RatePlan.resolve
  simp only
  split
  · simp
  · simp [Option.map_map, Function.comp_def]
  · rename_i huniform hprefix
    by_cases h : mode = "uniform"
    · subst h
      cases a <;> cases b <;> simp_all
    · simp_all

theorem resolve_ignores_fault {plan : RatePlan} {rates : Rates} {calledPrefix : String} {fault : Option String}
    {response : ResolveRateResponse} (h : plan.resolve rates calledPrefix fault = some response) :
    plan.resolve rates calledPrefix none = some response := by
  cases fault with
  | none => exact h
  | some e =>
      unfold RatePlan.resolve at h ⊢
      split at h <;> simp_all

section Account

variable {rates : Rates} {userID : UserID} {p : SetUserRateConfigParams} {calledPrefix : String}

-- Unless both own rates are there, the plan prices both legs.
theorem resolveRate_plan {accountFault planFault prefixFault : Option String} {response : ResolveRateResponse}
    (haccount : rates.configs.find userID = some ⟨userID, p.ratePlanID, p.aLegRate, p.bLegRate⟩)
    (hmissing : p.aLegRate = none ∨ p.bLegRate = none)
    (hresolve : resolveRate accountFault planFault prefixFault ⟨userID, calledPrefix⟩ rates = .ok response) :
    rates.planRates p.ratePlanID calledPrefix = some (response.aLegRate, response.bLegRate) := by
  revert hresolve
  fun_cases resolveRate accountFault planFault prefixFault ⟨userID, calledPrefix⟩ rates <;> intro hresolve <;>
    cases hresolve
  case case3 a b hfound =>
    have hrow := Option.some.inj (haccount.symm.trans hfound)
    simp only [RateConfig.mk.injEq] at hrow
    obtain ⟨_, _, ha, hb⟩ := hrow
    simp [ha, hb] at hmissing
  case case7 id a b _ hfound plan hplan hresponse =>
    have hrow := Option.some.inj (haccount.symm.trans hfound)
    simp only [RateConfig.mk.injEq] at hrow
    obtain ⟨_, hid, _, _⟩ := hrow
    obtain ⟨_, rfl⟩ := Table.find_eq_some.mp hplan
    rw [hid, ← resolve_planRates hplan, resolve_ignores_fault hresponse]
    rfl

-- A plan that has rates prices a call of an account with at most one rate of its own.
theorem resolveRate_of_plan {pair : Money × Money}
    (haccount : rates.configs.find userID = some ⟨userID, p.ratePlanID, p.aLegRate, p.bLegRate⟩)
    (hmissing : p.aLegRate = none ∨ p.bLegRate = none)
    (hpair : rates.planRates p.ratePlanID calledPrefix = some pair) : ∃ source,
      resolveRate none none none ⟨userID, calledPrefix⟩ rates = .ok ⟨pair.1, pair.2, source⟩ := by
  obtain ⟨id, hid, plan, hplan, hrates⟩ : ∃ id, p.ratePlanID = some id ∧ ∃ plan,
      rates.plans.find id = some plan ∧
      (plan.resolve rates calledPrefix none).map (fun r => (r.aLegRate, r.bLegRate)) = some pair := by
    cases hid : p.ratePlanID with
    | none => simp [Rates.planRates, hid] at hpair
    | some id =>
        cases hplan : rates.plans.find id with
        | none => simp [Rates.planRates, hid, hplan] at hpair
        | some plan =>
            obtain ⟨_, rfl⟩ := Table.find_eq_some.mp hplan
            exact ⟨plan.id, rfl, plan, hplan, by rw [resolve_planRates hplan, ← hid, hpair]⟩
  obtain ⟨response, hresponse, rfl⟩ := Option.map_eq_some_iff.mp hrates
  refine ⟨response.source, ?_⟩
  obtain ha | hb := hmissing
  · simp [resolveRate, haccount, hid, ha, hplan, hresponse]
  · cases ha : p.aLegRate <;> simp [resolveRate, haccount, hid, ha, hb, hplan, hresponse]

theorem resolveRate_own (accountFault planFault prefixFault : Option String) {a b : Money}
    (haccount : rates.configs.find userID = some ⟨userID, p.ratePlanID, some a, some b⟩) :
    resolveRate accountFault planFault prefixFault ⟨userID, calledPrefix⟩ rates =
      match accountFault with
      | some e => .error ⟨.Unknown, "select billing account: " ++ e⟩
      | none => .ok ⟨a, b, "user"⟩ := by
  cases accountFault <;> simp [resolveRate, haccount]

theorem ownRatesFirst_iff
    (haccount : rates.configs.find userID = some ⟨userID, p.ratePlanID, p.aLegRate, p.bLegRate⟩) :
    OwnRatesFirst rates userID p calledPrefix ↔ OwnRatesAgree rates p calledPrefix := by
  by_cases hboth : p.aLegRate.isSome ∧ p.bLegRate.isSome
  · obtain ⟨a, ha⟩ := Option.isSome_iff_exists.mp hboth.1
    obtain ⟨b, hb⟩ := Option.isSome_iff_exists.mp hboth.2
    rw [ha, hb] at haccount
    refine ⟨fun _ pair _ => .inl (by rw [ha, hb, Option.isSome_some, Option.isSome_some]),
      fun _ => ⟨?_, fun _ _ planFault prefixFault => ?_⟩⟩
    · intro accountFault planFault prefixFault response hresolve
      rw [resolveRate_own accountFault planFault prefixFault haccount] at hresolve
      cases accountFault with
      | some e => cases hresolve
      | none =>
          cases hresolve
          simp [ha, hb]
    · exact ⟨_, resolveRate_own none planFault prefixFault haccount⟩
  · have hmissing : p.aLegRate = none ∨ p.bLegRate = none := by
      cases ha : p.aLegRate <;> cases hb : p.bLegRate <;> simp_all
    constructor
    · intro hfirst pair hpair
      obtain ⟨source, hresolve⟩ := resolveRate_of_plan haccount hmissing hpair
      have hlegs := hfirst.perLeg none none none _ hresolve
      refine .inr ⟨fun a ha => ?_, fun b hb => ?_⟩
      · simpa [Option.mem_def.mp ha] using hlegs.1
      · simpa [Option.mem_def.mp hb] using hlegs.2
    · refine fun hagree => ⟨?_, fun ha hb => absurd ⟨ha, hb⟩ hboth⟩
      intro accountFault planFault prefixFault response hresolve
      have hpair := resolveRate_plan haccount hmissing hresolve
      have hlegs := hagree _ hpair
      rw [hpair]
      cases ha : p.aLegRate <;> cases hb : p.bLegRate <;> simp_all

end Account

theorem find_config_update (configs : Table RateConfig.userID) (userID other : UserID) (p : SetUserRateConfigParams) :
    (configs.update userID p.assign fun _ => rfl).find other =
      (configs.find other).map fun row => if other = userID then p.assign row else row :=
  Table.find_update other

-- The requests that do not configure an account.
def leavesConfig (userID : UserID) (_ : Rates) : RatesLabel → Bool
  | .setUserRateConfig _ other _ _ => other ≠ userID
  | _ => true

theorem step_config {rates next : Rates} {label : RatesLabel} {userID : UserID} {config : RateConfig}
    (hconfig : rates.configs.find userID = some config) (hleaves : leavesConfig userID rates label = true)
    (hstep : rates.step label = some next) : next.configs.find userID = some config := by
  cases label with
  | createAccount other ratePlanID =>
      simp only [Rates.step, Option.map_eq_some_iff] at hstep
      obtain ⟨configs, hinsert, rfl⟩ := hstep
      rw [Table.find_insert hinsert]
      split
      · rename_i h
        rw [h] at hconfig
        exact absurd hconfig (by simp [(Table.insert_eq_some hinsert).2])
      · exact hconfig
  | createRatePlan auth p answer e =>
      cases hstep
      rw [createRatePlan_configs]
      exact hconfig
  | updateRatePlan auth id p fault e =>
      cases hstep
      rw [updateRatePlan_configs]
      exact hconfig
  | addPrefixRate auth id p fault e =>
      cases hstep
      rw [(addPrefixRate_frame auth id p fault e rates).2]
      exact hconfig
  | removePrefixRate auth id calledPrefix fault =>
      cases hstep
      rw [(removePrefixRate_frame auth id calledPrefix fault rates).2]
      exact hconfig
  | setUserRateConfig auth other p fault =>
      cases hstep
      have hne : other ≠ userID := by simpa [leavesConfig] using hleaves
      unfold setUserRateConfig
      split
      · exact hconfig
      · exact hconfig
      · split
        · exact hconfig
        · refine (find_config_update rates.configs other userID p).trans ?_
          rw [hconfig, Option.map_some, if_neg hne.symm]

theorem setUserRateConfig_stores {auth : Option AuthData} {userID : UserID} {p : SetUserRateConfigParams}
    {fault : Option String} {rates configured : Rates} {answer : SetUserRateConfigResponse}
    (hset : setUserRateConfig auth userID p fault rates = (.ok answer, configured)) :
    configured.configs.find userID = some ⟨userID, p.ratePlanID, p.aLegRate, p.bLegRate⟩ := by
  unfold setUserRateConfig at hset
  split at hset
  · cases hset
  · cases hset
  · split at hset
    · cases hset
    · rename_i config hconfig
      cases hset
      refine (find_config_update rates.configs userID userID p).trans ?_
      rw [hconfig, Option.map_some, if_pos rfl, SetUserRateConfigParams.assign, (Table.find_eq_some.mp hconfig).2]

-- Of an account that was configured, whatever was stored for the plans before and
-- since.
theorem configured_legs_priced {auth : Option AuthData} {userID : UserID} {p : SetUserRateConfigParams}
    {fault : Option String} {rates configured later : Rates} {answer : SetUserRateConfigResponse}
    {labels : List RatesLabel} (hset : setUserRateConfig auth userID p fault rates = (.ok answer, configured))
    (hrun : Machine.run (Machine.restrict (leavesConfig userID) Rates.step) configured labels = some later)
    (calledPrefix : String) : OwnRatesFirst later userID p calledPrefix ↔ OwnRatesAgree later p calledPrefix :=
  ownRatesFirst_iff (Machine.restrict_invariant
    (P := fun rates => rates.configs.find userID = some ⟨userID, p.ratePlanID, p.aLegRate, p.bLegRate⟩)
    (fun _ _ _ hconfig hleaves hstep => step_config hconfig hleaves hstep) (setUserRateConfig_stores hset) hrun)

-- The tables of a user on a uniform plan.
def uniformUser : Rates where
  plans := ⟨[⟨1, "basic", "uniform", some 60, some 120⟩], List.nodup_singleton _⟩
  prefixes := .empty
  configs := ⟨[⟨7, some 1, none, none⟩], List.nodup_singleton _⟩

theorem configured_legs_priced_both : ∃ configured later,
    setUserRateConfig operator 7 ⟨some 1, some 30, some 40⟩ none uniformUser = (.ok ⟨true⟩, configured) ∧
      Machine.run Rates.step configured [.updateRatePlan operator 1 ⟨"basic", "uniform", none, none⟩ none ""] =
        some later ∧
      (OwnRatesFirst later 7 ⟨some 1, some 30, some 40⟩ "139" ↔
        OwnRatesAgree later ⟨some 1, some 30, some 40⟩ "139") :=
  ⟨_, _, rfl, rfl, @configured_legs_priced operator 7 ⟨some 1, some 30, some 40⟩ none uniformUser _ _ ⟨true⟩
    [.updateRatePlan operator 1 ⟨"basic", "uniform", none, none⟩ none ""] rfl rfl "139"⟩

-- The negotiated rate of the A leg is accepted and ignored.
theorem own_rate_ignored : ∃ configured,
    setUserRateConfig operator 7 ⟨some 1, some 30, none⟩ none uniformUser = (.ok ⟨true⟩, configured) ∧
      resolveRate none none none ⟨7, "139"⟩ configured = .ok ⟨60, 120, "plan_uniform"⟩ ∧
      ¬ OwnRatesFirst configured 7 ⟨some 1, some 30, none⟩ "139" := by
  refine ⟨_, rfl, rfl, fun hfirst => ?_⟩
  have hleg := (hfirst.perLeg none none none _ rfl).1
  cases hleg

end Bos3000.Billing
