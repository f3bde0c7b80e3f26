import Bos3000.Lib.Machine
import Bos3000.Lib.Table
import Bos3000.Types

-- The rates that the admin endpoints of the billing service store, and the lookup
-- that finds those of a call.
namespace Bos3000.Billing

-- A row of rate_plans.
structure RatePlan where
  id : Int64
  name : String
  mode : String
  uniformARate : Option Money
  uniformBRate : Option Money
  deriving DecidableEq, Repr

-- A row of rate_plan_prefixes.
structure PrefixRate where
  ratePlanID : Int64
  calledPrefix : String
  aRate : Money
  bRate : Money
  deriving DecidableEq, Repr

def PrefixRate.key (row : PrefixRate) : Int64 × String := (row.ratePlanID, row.calledPrefix)

-- The rate columns of billing_accounts.
structure RateConfig where
  userID : UserID
  ratePlanID : Option Int64
  aLegRate : Option Money
  bLegRate : Option Money
  deriving DecidableEq, Repr

structure Rates where
  plans : Table RatePlan.id
  prefixes : Table PrefixRate.key
  configs : Table RateConfig.userID

def Rates.empty : Rates := ⟨.empty, .empty, .empty⟩

def requireAdmin (auth : Option AuthData) : Except APIError Unit :=
  match auth with
  | some data =>
      if data.role = "admin" then .ok () else .error ⟨.PermissionDenied, "admin access required"⟩
  | none => .error ⟨.PermissionDenied, "admin access required"⟩

structure CreateRatePlanParams where
  name : String
  mode : String
  uniformARate : Option Money
  uniformBRate : Option Money
  deriving DecidableEq, Repr

def CreateRatePlanParams.validate (p : CreateRatePlanParams) : Except APIError Unit :=
  if p.name = "" then .error ⟨.InvalidArgument, "name is required"⟩
  else if p.mode ≠ "uniform" ∧ p.mode ≠ "prefix" then
    .error ⟨.InvalidArgument, "mode must be 'uniform' or 'prefix'"⟩
  else if p.mode = "uniform" ∧ (p.uniformARate = none ∨ p.uniformBRate = none) then
    .error ⟨.InvalidArgument, "uniform rates required for uniform mode"⟩
  else .ok ()

-- The values as the columns of rate_plans take them.
def planRow (id : Int64) (name mode : String) (uniformARate uniformBRate : Option Money) : Option RatePlan :=
  if mode = "uniform" ∨ mode = "prefix" then
    (varchar 100 name).map fun name => ⟨id, name, mode, uniformARate, uniformBRate⟩
  else none

-- The INSERT answers with the id it drew, or fails. The text e is what the database
-- says where a statement fails.
def createRatePlan (auth : Option AuthData) (p : CreateRatePlanParams) (answer : Option Int64) (e : String)
    (rates : Rates) : Except APIError RatePlan × Rates :=
  match p.validate, requireAdmin auth with
  | .error e, _ => (.error e, rates)
  | .ok _, .error e => (.error e, rates)
  | .ok _, .ok _ =>
      let inserted := answer.bind fun id =>
        (planRow id p.name p.mode p.uniformARate p.uniformBRate).bind fun plan =>
          (rates.plans.insert plan).map fun plans => (plan, plans)
      match inserted with
      | none => (.error ⟨.Unknown, "insert rate plan: " ++ e⟩, rates)
      | some (plan, plans) => (.ok plan, { rates with plans })

structure UpdateRatePlanParams where
  name : String
  mode : String
  uniformARate : Option Money
  uniformBRate : Option Money
  deriving DecidableEq, Repr

def updateRatePlan (auth : Option AuthData) (id : Int64) (p : UpdateRatePlanParams) (fault : Option String)
    (e : String) (rates : Rates) : Except APIError RatePlan × Rates :=
  match requireAdmin auth, fault with
  | .error e, _ => (.error e, rates)
  | .ok _, some e => (.error ⟨.Unknown, "update rate plan: " ++ e⟩, rates)
  | .ok _, none =>
      match rates.plans.find id, planRow id p.name p.mode p.uniformARate p.uniformBRate with
      | none, _ => (.error ⟨.NotFound, "rate plan not found"⟩, rates)
      | some _, none => (.error ⟨.Unknown, "update rate plan: " ++ e⟩, rates)
      | some _, some plan =>
          (.ok plan, { rates with plans := rates.plans.update id (fun row => { plan with id := row.id }) fun _ => rfl })

structure AddPrefixRateParams where
  calledPrefix : String
  aRate : Money
  bRate : Money
  deriving DecidableEq, Repr

-- The row references its plan.
def addPrefixRate (auth : Option AuthData) (id : Int64) (p : AddPrefixRateParams) (fault : Option String) (e : String)
    (rates : Rates) : Except APIError PrefixRate × Rates :=
  match requireAdmin auth with
  | .error e => (.error e, rates)
  | .ok _ =>
      if p.calledPrefix = "" then (.error ⟨.InvalidArgument, "prefix is required"⟩, rates)
      else
        let inserted := (rates.plans.find id).bind fun _ => (varchar 10 p.calledPrefix).bind fun calledPrefix =>
          (rates.prefixes.insert ⟨id, calledPrefix, p.aRate, p.bRate⟩).map fun prefixes =>
            ((⟨id, calledPrefix, p.aRate, p.bRate⟩ : PrefixRate), prefixes)
        match fault, inserted with
        | some e, _ => (.error ⟨.Unknown, "insert prefix rate: " ++ e⟩, rates)
        | none, none => (.error ⟨.Unknown, "insert prefix rate: " ++ e⟩, rates)
        | none, some (row, prefixes) => (.ok row, { rates with prefixes })

def removePrefixRate (auth : Option AuthData) (id : Int64) (calledPrefix : String) (fault : Option String)
    (rates : Rates) : Except APIError Unit × Rates :=
  match requireAdmin auth, fault with
  | .error e, _ => (.error e, rates)
  | .ok _, some e => (.error ⟨.Unknown, "delete prefix rate: " ++ e⟩, rates)
  | .ok _, none =>
      match rates.prefixes.find (id, calledPrefix) with
      | none => (.error ⟨.NotFound, "prefix rate not found"⟩, rates)
      | some _ => (.ok (), { rates with prefixes := rates.prefixes.delete fun row => row.key = (id, calledPrefix) })

structure SetUserRateConfigParams where
  ratePlanID : Option Int64
  aLegRate : Option Money
  bLegRate : Option Money
  deriving DecidableEq, Repr

structure SetUserRateConfigResponse where
  success : Bool
  deriving DecidableEq, Repr

def SetUserRateConfigParams.assign (p : SetUserRateConfigParams) (row : RateConfig) : RateConfig :=
  ⟨row.userID, p.ratePlanID, p.aLegRate, p.bLegRate⟩

def setUserRateConfig (auth : Option AuthData) (userID : UserID) (p : SetUserRateConfigParams)
    (fault : Option String) (rates : Rates) : Except APIError SetUserRateConfigResponse × Rates :=
  match requireAdmin auth, fault with
  | .error e, _ => (.error e, rates)
  | .ok _, some e => (.error ⟨.Unknown, "update rate config: " ++ e⟩, rates)
  | .ok _, none =>
      match rates.configs.find userID with
      | none => (.error ⟨.NotFound, "billing account not found"⟩, rates)
      | some _ => (.ok ⟨true⟩, { rates with configs := rates.configs.update userID p.assign fun _ => rfl })

structure ResolveRateParams where
  userID : UserID
  calledPrefix : String
  deriving DecidableEq, Repr

structure ResolveRateResponse where
  aLegRate : Money
  bLegRate : Money
  source : String
  deriving DecidableEq, Repr

def rateNotFound : APIError := ⟨.NotFound, "no rate configured for this user/prefix"⟩

def noRows : String := "sql: no rows in result set"

-- The rates of a plan, where it has some for the prefix.
def RatePlan.resolve (plan : RatePlan) (rates : Rates) (calledPrefix : String) (prefixFault : Option String) :
    Option ResolveRateResponse :=
  match plan.mode, plan.uniformARate, plan.uniformBRate with
  | "uniform", some a, some b => some ⟨a, b, "plan_uniform"⟩
  | "prefix", _, _ =>
      match prefixFault with
      | some _ => none
      | none => (rates.prefixes.find (plan.id, calledPrefix)).map fun row => ⟨row.aRate, row.bRate, "plan_prefix"⟩
  | _, _, _ => none

-- Priority: user > plan_uniform > plan_prefix. The faults are errors of the three
-- queries; the last one is ignored.
def resolveRate (accountFault planFault prefixFault : Option String) (p : ResolveRateParams) (rates : Rates) :
    Except APIError ResolveRateResponse :=
  match accountFault, rates.configs.find p.userID with
  | some e, _ => .error ⟨.Unknown, "select billing account: " ++ e⟩
  | none, none => .error ⟨.Unknown, "select billing account: " ++ noRows⟩
  | none, some ⟨_, _, some a, some b⟩ => .ok ⟨a, b, "user"⟩
  | none, some ⟨_, none, _, _⟩ => .error rateNotFound
  | none, some ⟨_, some id, _, _⟩ =>
      match planFault, rates.plans.find id with
      | some e, _ => .error ⟨.Unknown, "select rate plan: " ++ e⟩
      | none, none => .error ⟨.Unknown, "select rate plan: " ++ noRows⟩
      | none, some plan =>
          match plan.resolve rates p.calledPrefix prefixFault with
          | some response => .ok response
          | none => .error rateNotFound

-- The requests that write rates; a new account has a plan at most.
inductive RatesLabel
  | createAccount (userID : UserID) (ratePlanID : Option Int64)
  | createRatePlan (auth : Option AuthData) (p : CreateRatePlanParams) (answer : Option Int64) (e : String)
  | updateRatePlan (auth : Option AuthData) (id : Int64) (p : UpdateRatePlanParams) (fault : Option String)
      (e : String)
  | addPrefixRate (auth : Option AuthData) (id : Int64) (p : AddPrefixRateParams) (fault : Option String)
      (e : String)
  | removePrefixRate (auth : Option AuthData) (id : Int64) (calledPrefix : String) (fault : Option String)
  | setUserRateConfig (auth : Option AuthData) (userID : UserID) (p : SetUserRateConfigParams)
      (fault : Option String)
  deriving DecidableEq

def Rates.step (rates : Rates) : RatesLabel → Option Rates
  | .createAccount userID ratePlanID =>
      (rates.configs.insert ⟨userID, ratePlanID, none, none⟩).map fun configs => { rates with configs }
  | .createRatePlan auth p answer e => some (Billing.createRatePlan auth p answer e rates).2
  | .updateRatePlan auth id p fault e => some (Billing.updateRatePlan auth id p fault e rates).2
  | .addPrefixRate auth id p fault e => some (Billing.addPrefixRate auth id p fault e rates).2
  | .removePrefixRate auth id calledPrefix fault => some (Billing.removePrefixRate auth id calledPrefix fault rates).2
  | .setUserRateConfig auth userID p fault => some (Billing.setUserRateConfig auth userID p fault rates).2

-- The endpoints that store a pair of rates.
inductive Endpoint
  | createRatePlan | updateRatePlan | addPrefixRate | setUserRateConfig
  deriving DecidableEq, Repr

-- Requests after which a user is charged the rates that the endpoint was given.
def Endpoint.stores (a b : Money) : Endpoint → List RatesLabel
  | .createRatePlan =>
      [.createAccount 7 (some 1), .createRatePlan operator ⟨"basic", "uniform", some a, some b⟩ (some 1) ""]
  | .updateRatePlan =>
      [.createAccount 7 (some 1), .createRatePlan operator ⟨"basic", "uniform", some 60, some 120⟩ (some 1) "",
        .updateRatePlan operator 1 ⟨"basic", "uniform", some a, some b⟩ none ""]
  | .addPrefixRate =>
      [.createAccount 7 (some 1), .createRatePlan operator ⟨"basic", "prefix", none, none⟩ (some 1) "",
        .addPrefixRate operator 1 ⟨"139", a, b⟩ none ""]
  | .setUserRateConfig => [.createAccount 7 none, .setUserRateConfig operator 7 ⟨none, some a, some b⟩ none]

-- The pair of rates is accepted and resolved for a call.
def Accepted (endpoint : Endpoint) (a b : Money) : Prop :=
  ∃ rates source, Machine.run Rates.step .empty (endpoint.stores a b) = some rates ∧
    resolveRate none none none ⟨7, "139"⟩ rates = .ok ⟨a, b, source⟩

-- No endpoint looks at the rates.
theorem accepted (endpoint : Endpoint) (a b : Money) : Accepted endpoint a b := by
  cases endpoint with
  | createRatePlan =>
      refine ⟨_, "plan_uniform", rfl, ?_⟩
      simp [createRatePlan, resolveRate, CreateRatePlanParams.validate, requireAdmin, operator, planRow, varchar,
        Table.insert, Rates.empty, Table.empty, Table.find, RatePlan.resolve]
  | updateRatePlan =>
      refine ⟨_, "plan_uniform", rfl, ?_⟩
      simp [createRatePlan, updateRatePlan, resolveRate, CreateRatePlanParams.validate, requireAdmin, operator, planRow,
        varchar, Table.insert, Rates.empty, Table.empty, Table.find, Table.update, RatePlan.resolve]
  | addPrefixRate =>
      refine ⟨_, "plan_prefix", rfl, ?_⟩
      simp [createRatePlan, addPrefixRate, resolveRate, CreateRatePlanParams.validate, requireAdmin, operator, planRow,
        varchar, Table.insert, Rates.empty, Table.empty, Table.find, RatePlan.resolve, PrefixRate.key]
  | setUserRateConfig => exact ⟨_, "user", rfl, rfl⟩

end Bos3000.Billing
