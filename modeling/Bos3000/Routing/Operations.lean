import Bos3000.Lib.Pool
import Bos3000.Routing.Gateways

-- The requests that change gateways, and PickALeg: any number of executions that
-- interleave statement by statement. The answers of the database and of the
-- network are inputs, and a statement that fails has changed nothing.
namespace Bos3000.Routing

-- What requests share: the table, and the gateways in memory under the mutex.
structure Service where
  table : GatewayTable
  aLegGateways : List WeightedGateway

def requireAdmin (auth : Option AuthData) : Except APIError Unit :=
  if auth.any fun data => data.role = "admin" then .ok ()
  else .error ⟨.PermissionDenied, "admin access required"⟩

structure CreateGatewayParams where
  name : String
  type : String
  sipAddress : String
  weight : Int64
  failoverGatewayID : Option Int64
  maxHealthFailures : Option Int64

structure UpdateGatewayParams where
  name : Option String
  sipAddress : Option String
  weight : Option Int64
  failoverGatewayID : Option Int64
  maxHealthFailures : Option Int64

def UpdateGatewayParams.assign (p : UpdateGatewayParams) (row : Gateway) : Gateway :=
  { row with
    name := p.name.getD row.name
    sipAddress := p.sipAddress.getD row.sipAddress
    weight := p.weight.getD row.weight
    failoverGatewayID := p.failoverGatewayID.or row.failoverGatewayID
    maxHealthFailures := p.maxHealthFailures.getD row.maxHealthFailures }

structure HealthCheckResult where
  gatewayID : Int64
  name : String
  sipAddress : String
  healthy : Bool
  failures : Int64
  deriving DecidableEq

inductive Response
  | picked (response : PickALegResponse)
  | gateway (row : Gateway)
  | toggled (id : Int64) (enabled : Bool)
  | health (results : List HealthCheckResult)
  deriving DecidableEq

-- The statement of an admin request.
inductive Write
  | insert (row : Gateway)
  | update (id : Int64) (p : UpdateGatewayParams)
  | toggle (id : Int64) (enabled : Bool)

-- What a health check reads of a gateway.
structure GatewayInfo where
  id : Int64
  name : String
  type : GatewayType
  sipAddress : String
  failures : Int64
  maxFailures : Int64

def Gateway.info (row : Gateway) : GatewayInfo :=
  ⟨row.id, row.name, row.type, row.sipAddress, row.healthCheckFailures, row.maxHealthFailures⟩

-- Where a request stands. A health check of one gateway on demand is the round of
-- the periodic check over that gateway alone, except for what it does with failures.
inductive Stage
  | picking
  | writing (statement : Write)
  | reload (response : Response)
  | install (gateways : List WeightedGateway) (response : Response)
  | query (only : Option Int64)
  | checking (manual : Bool) (gw : GatewayInfo) (pending : List GatewayInfo)
      (results : List HealthCheckResult)
  | flagging (manual : Bool) (id : Int64) (healthy : Bool) (pending : List GatewayInfo)
      (results : List HealthCheckResult)
  | returned (outcome : Except APIError Response)

inductive Answer
  | done
  | fault (e : APIError)
  | inserted (id : Int64)
  -- checkTCP, and whether the UPDATE after it fails
  | checked (reachable fault : Bool)
  deriving DecidableEq

inductive Request
  | pickALeg
  | createGateway (auth : Option AuthData) (p : CreateGatewayParams)
  | updateGateway (auth : Option AuthData) (id : Int64) (p : UpdateGatewayParams)
  | toggleGateway (auth : Option AuthData) (id : Int64) (enabled : Bool)
  | runHealthCheck
  | manualHealthCheck (auth : Option AuthData) (id : Int64)

def GatewayType.parse : String → Option GatewayType
  | "a_leg" => some .a_leg
  | "b_leg" => some .b_leg
  | _ => none

-- The columns that the INSERT leaves out have their defaults.
def createGateway (p : CreateGatewayParams) : Stage :=
  match GatewayType.parse p.type with
  | none => .returned (.error ⟨.InvalidArgument, "type must be 'a_leg' or 'b_leg'"⟩)
  | some type =>
      .writing (.insert
        { id := 0
          name := p.name
          type
          sipAddress := p.sipAddress
          weight := if p.weight < 1 then 1 else p.weight
          healthy := true
          enabled := true
          failoverGatewayID := p.failoverGatewayID
          healthCheckFailures := 0
          maxHealthFailures := p.maxHealthFailures.getD 3 })

def Stage.asAdmin (auth : Option AuthData) (stage : Stage) : Stage :=
  match requireAdmin auth with
  | .ok _ => stage
  | .error e => .returned (.error e)

def Request.start : Request → Stage
  | .pickALeg => .picking
  | .createGateway auth p => (Routing.createGateway p).asAdmin auth
  | .updateGateway auth id p => (Stage.writing (.update id p)).asAdmin auth
  | .toggleGateway auth id enabled => (Stage.writing (.toggle id enabled)).asAdmin auth
  | .runHealthCheck => .query none
  | .manualHealthCheck auth id =>
      if auth.any fun data => data.role = "admin" then .query (some id)
      else .returned (.error ⟨.PermissionDenied, "admin only"⟩)

-- The foreign key of failover_gateway_id.
def refers (t : GatewayTable) (row : Gateway) : Bool :=
  row.failoverGatewayID.all fun target => target = row.id || (t.find target).isSome

-- The table after an admin's statement, with the row it returns.
def Write.exec (t : GatewayTable) : Write → Answer → Option (GatewayTable × Gateway)
  | .insert row, .inserted id =>
      let row := { row with id }
      if refers t row then (t.insert row).map fun t => (t, row) else none
  | .update id p, .done =>
      match t.find id with
      | none => none
      | some row =>
          if refers t (p.assign row) then some (t.update id p.assign fun _ => rfl, p.assign row)
          else none
  | .toggle id enabled, .done =>
      (t.find id).map fun row =>
        (t.update id (fun row => { row with enabled }) fun _ => rfl, { row with enabled })
  | _, _ => none

def Write.response (row : Gateway) : Write → Response
  | .insert _ | .update _ _ => .gateway row
  | .toggle id _ => .toggled id row.enabled

-- The rows that a health check reads, in the order of their ids.
def checks (t : GatewayTable) : List GatewayInfo :=
  ((t.rows.filter Gateway.enabled).insertionSort fun row other => row.id ≤ other.id).map Gateway.info

-- The failures and the flag that a check records.
def GatewayInfo.check (gw : GatewayInfo) (reachable : Bool) : Int64 × Bool :=
  if reachable then (0, true) else (gw.failures + 1, gw.failures + 1 < gw.maxFailures)

def GatewayInfo.record (gw : GatewayInfo) (reachable : Bool) (row : Gateway) : Gateway :=
  { row with healthy := (gw.check reachable).2, healthCheckFailures := (gw.check reachable).1 }

theorem record_id (gw : GatewayInfo) (reachable : Bool) (row : Gateway) :
    (gw.record reachable row).id = row.id := rfl

def GatewayInfo.result (gw : GatewayInfo) (reachable : Bool) : HealthCheckResult :=
  ⟨gw.id, gw.name, gw.sipAddress, (gw.check reachable).2, (gw.check reachable).1⟩

-- The next turn of the loop over the gateways.
def Stage.turn (manual : Bool) (results : List HealthCheckResult) : List GatewayInfo → Stage
  | [] => .returned (.ok (.health results))
  | gw :: pending => .checking manual gw pending results

def Stage.resume (s : Service) : Stage → Answer → Option (Stage × Service)
  | .picking, .done =>
      match pickALeg s.aLegGateways with
      | .ok (response, aLegGateways) => some (.returned (.ok (.picked response)), { s with aLegGateways })
      | .error e => some (.returned (.error e), s)
  | .writing _, .fault e => some (.returned (.error e), s)
  | .writing statement, x =>
      (statement.exec s.table x).map fun (table, row) =>
        (if row.type = .a_leg then .reload (statement.response row)
          else .returned (.ok (statement.response row)), { s with table })
  | .reload _, .fault e => some (.returned (.error e), s)
  | .reload response, .done => some (.install (loadALegGateways s.table) response, s)
  | .install gateways response, .done => some (.returned (.ok response), { s with aLegGateways := gateways })
  | .query none, .fault _ => some (.returned (.error ⟨.Internal, "failed to query gateways"⟩), s)
  | .query none, .done => some (.turn false [] (checks s.table), s)
  | .query (some _), .fault _ => some (.returned (.error ⟨.NotFound, "gateway not found"⟩), s)
  | .query (some id), .done =>
      match s.table.find id with
      | none => some (.returned (.error ⟨.NotFound, "gateway not found"⟩), s)
      | some row => some (.turn true [] [row.info], s)
  | .checking manual gw pending results, .checked reachable fault =>
      if fault then
        -- the periodic check logs the failure and goes on
        if manual then some (.returned (.error ⟨.Internal, "failed to update gateway"⟩), s)
        else some (.turn manual results pending, s)
      else
        let table := s.table.update gw.id (gw.record reachable) (record_id gw reachable)
        let results := results ++ [gw.result reachable]
        if gw.type = .a_leg then
          some (.flagging manual gw.id (gw.check reachable).2 pending results, { s with table })
        else some (.turn manual results pending, { s with table })
  | .flagging manual id healthy pending results, .done =>
      some (.turn manual results pending,
        { s with aLegGateways := setHealthy id healthy s.aLegGateways })
  | _, _ => none

def program : Pool.Program Service Stage Request Answer := ⟨Request.start, fun s => Stage.resume s⟩

abbrev State := Pool.State Service Stage

abbrev Label := Pool.Label Request Answer

def step : State → Label → Option State := Pool.step program

-- initService loads the gateways of the table it finds.
def initService (t : GatewayTable) : State := ⟨⟨t, loadALegGateways t⟩, []⟩

end Bos3000.Routing
