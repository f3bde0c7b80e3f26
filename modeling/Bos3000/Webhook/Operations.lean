import Bos3000.Lib.Pool
import Bos3000.Lib.Table
import Bos3000.Webhook.Event

-- Webhook deliveries: those who publish them, the workers that post them, the
-- poller and the dead-letter retry, interleaving statement by statement. The
-- answers of the database, of the topic and of the endpoint are inputs, and a
-- statement that fails has changed nothing.
namespace Bos3000.Webhook

open JsonText (Text)

inductive Status
  | pending | delivering | delivered | retrying | failed | dlq
  deriving DecidableEq, Repr

-- A row of webhook_deliveries.
structure Delivery where
  id : Int64
  callID : String
  userID : UserID
  eventType : String
  status : Status
  webhookURL : String
  payload : String
  attemptCount : Int
  nextRetryAt : Option Time
  lastError : Option String
  deliveredAt : Option Time
  dlqAt : Option Time
  dlqRetryCount : Int
  deriving DecidableEq

abbrev DeliveryTable := Table Delivery.id

-- The table, the messages of the topic that are still to be handled and those
-- ever published, and the requests started, each with the delivery it is for.
structure Service where
  deliveries : DeliveryTable
  inFlight : List Text
  published : List Text
  posts : List (Int64 × PostRequest)

def Service.publish (s : Service) (text : Text) : Service :=
  { s with inFlight := s.inFlight ++ [text], published := s.published ++ [text] }

def Service.post (s : Service) (e : WebhookEvent) : Service :=
  { s with posts := s.posts ++ [(e.deliveryID, e.request)] }

def retryIntervals : List Duration := [30 * second, 60 * second, 300 * second, 900 * second, 3600 * second]

def retryIntervalForAttempt (attempt : Int) : Duration :=
  if attempt < 1 ∨ retryIntervals.length < attempt then 0
  else retryIntervals.getD (attempt - 1).toNat 0

-- What is published again of a row: its id, URL and payload, and its user.
structure Target where
  id : Int64
  webhookURL : String
  payload : String
  userID : UserID
  deriving DecidableEq

def Delivery.target (row : Delivery) : Target := ⟨row.id, row.webhookURL, row.payload, row.userID⟩

def Target.event (target : Target) (secret : String) : WebhookEvent :=
  ⟨target.id, target.webhookURL, secret, target.payload⟩

-- What CreateAndPublishWebhook inserts and publishes.
structure NewDelivery where
  callID : String
  userID : UserID
  webhookURL : String
  secret : String
  eventType : String
  data : String

def NewDelivery.row (new : NewDelivery) (id : Int64) (payload : String) (now : Time) : Delivery where
  id
  callID := new.callID
  userID := new.userID
  eventType := new.eventType
  status := .pending
  webhookURL := new.webhookURL
  payload
  attemptCount := 0
  nextRetryAt := some now
  lastError := none
  deliveredAt := none
  dlqAt := none
  dlqRetryCount := 0

def NewDelivery.event (new : NewDelivery) (id : Int64) : WebhookEvent :=
  ⟨id, new.webhookURL, new.secret, new.data⟩

section Updates

def Delivery.beginAttempt (row : Delivery) : Delivery :=
  { row with status := .delivering, attemptCount := row.attemptCount + 1 }

def Delivery.recordDelivered (now : Time) (row : Delivery) : Delivery :=
  { row with status := .delivered, deliveredAt := some now }

-- The two updates of handleDeliveryFailure: another attempt, or the dead letters.
def Delivery.recordFailure (interval : Duration) (lastError : String) (now : Time) (row : Delivery) : Delivery :=
  if 0 < interval then
    { row with
      status := .retrying
      nextRetryAt := some (now + (seconds interval).toInt * second.toInt)
      lastError := some lastError }
  else { row with status := .dlq, dlqAt := some now, lastError := some lastError }

def Delivery.markPending (row : Delivery) : Delivery := { row with status := .pending }

def Delivery.resetForRetry (now : Time) (row : Delivery) : Delivery :=
  { row with
    status := .pending
    attemptCount := 0
    dlqRetryCount := row.dlqRetryCount + 1
    dlqAt := none
    nextRetryAt := some now }

theorem beginAttempt_id (row : Delivery) : row.beginAttempt.id = row.id := rfl

theorem recordDelivered_id (now : Time) (row : Delivery) : (row.recordDelivered now).id = row.id := rfl

theorem markPending_id (row : Delivery) : row.markPending.id = row.id := rfl

theorem resetForRetry_id (now : Time) (row : Delivery) : (row.resetForRetry now).id = row.id := rfl

theorem recordFailure_id (interval : Duration) (lastError : String) (now : Time) (row : Delivery) :
    (row.recordFailure interval lastError now).id = row.id := by
  unfold Delivery.recordFailure
  split <;> rfl

end Updates

-- Who publishes an event. PollRetries has further rows to go through.
inductive Publisher
  | createAndPublishWebhook
  | pollRetries (pending : List Target)
  | retryDLQ

-- Where DeliverWebhook stands with an event.
inductive Phase
  | delivering
  | posting
  | awaiting
  | recording
  | counting (lastError : String)
  | scheduling (lastError : String) (interval : Duration)

inductive Stage
  | inserting (new : NewDelivery)
  | waiting
  | handling (e : WebhookEvent) (phase : Phase)
  | polling
  | reading (id : Int64)
  | resetting (target : Target)
  -- about to look up the user's webhook secret
  | fetching (publisher : Publisher) (target : Target)
  | publishing (publisher : Publisher) (e : WebhookEvent)
  | marking (id : Int64) (pending : List Target)
  | returned (outcome : Except APIError Unit)

inductive Answer
  -- a statement or Publish succeeds, at a time
  | done (now : Time)
  | fault (message : String)
  -- the INSERT, with the payload as a JSONB column prints it
  | inserted (id : Int64) (payload : String) (now : Time)
  -- the topic hands on a message, or one that was handled before
  | received (k : Nat)
  | redelivered (k : Nat)
  -- the rows that are due, in the order of the query
  | due (now : Time) (rows : List Delivery)
  | secret (secret : String)
  | requestError (message : String)
  | httpError (message : String)
  | response (statusCode : Int) (body : String)
  deriving DecidableEq

-- The worker is a request of its own, made for each message. The result of
-- json.Marshal stands for the payload whose text it is.
inductive Request
  | createAndPublishWebhook (callID : String) (userID : UserID) (webhookURL secret eventType : String)
      (data : Except String String)
  | deliverWebhook
  | pollRetries
  | retryDLQ (auth : Option AuthData) (id : Int64)

def createAndPublishWebhook (callID : String) (userID : UserID) (webhookURL secret eventType : String) :
    Except String String → Stage
  | .error message => .returned (.error ⟨.Unknown, "marshal webhook payload: " ++ message⟩)
  | .ok data => .inserting { callID, userID, webhookURL, secret, eventType, data }

def Request.start : Request → Stage
  | .createAndPublishWebhook callID userID webhookURL secret eventType data =>
      Webhook.createAndPublishWebhook callID userID webhookURL secret eventType data
  | .deliverWebhook => .waiting
  | .pollRetries => .polling
  | .retryDLQ auth id =>
      if auth.any fun data => data.role = "admin" then .reading id
      else .returned (.error ⟨.PermissionDenied, "admin access required"⟩)

-- The next turn of the loop over the rows that are due.
def Stage.turn : List Target → Stage
  | [] => .returned (.ok ())
  | target :: pending => .fetching (.pollRetries pending) target

def Publisher.published (id : Int64) : Publisher → Stage
  | .createAndPublishWebhook => .returned (.ok ())
  | .pollRetries pending => .marking id pending
  | .retryDLQ => .returned (.ok ())

-- What becomes of a publisher whose Publish failed. The poller logs the failure.
def Publisher.failed (message : String) : Publisher → Stage
  | .createAndPublishWebhook => .returned (.error ⟨.Unknown, "publish webhook event: " ++ message⟩)
  | .pollRetries pending => .turn pending
  | .retryDLQ => .returned (.error ⟨.Unknown, message⟩)

-- An UPDATE of the row with an id, whose error is ignored.
def Service.exec (s : Service) (id : Int64) (assign : Time → Delivery → Delivery)
    (hassign : ∀ now row, (assign now row).id = row.id) : Answer → Option Service
  | .done now => some { s with deliveries := s.deliveries.update id (assign now) (hassign now) }
  | .fault _ => some s
  | _ => none

-- DeliverWebhook and handleDeliveryFailure. Without a next phase it returns nil. The
-- error is any text here; PostgreSQL refuses one with NUL or a cut character, which
-- is an UPDATE that fails.
def deliverWebhook (s : Service) (e : WebhookEvent) : Phase → Answer → Option (Option Phase × Service)
  | .delivering, x =>
      (s.exec e.deliveryID (fun _ => Delivery.beginAttempt) (fun _ => beginAttempt_id) x).map fun s =>
        (some .posting, s)
  | .posting, .requestError message => some (some (.counting ("create request: " ++ message)), s)
  | .posting, .done _ => some (some .awaiting, s.post e)
  | .awaiting, .httpError message => some (some (.counting ("http error: " ++ message)), s)
  | .awaiting, .response statusCode body =>
      if 200 ≤ statusCode ∧ statusCode < 300 then some (some .recording, s)
      else some (some (.counting ("HTTP " ++ toString statusCode ++ ": " ++ body)), s)
  | .recording, x =>
      (s.exec e.deliveryID Delivery.recordDelivered recordDelivered_id x).map fun s => (none, s)
  | .counting _, .fault _ => some (none, s)
  | .counting lastError, .done _ =>
      match s.deliveries.find e.deliveryID with
      | none => some (none, s)
      | some row => some (some (.scheduling lastError (retryIntervalForAttempt row.attemptCount)), s)
  | .scheduling lastError interval, x =>
      (s.exec e.deliveryID (Delivery.recordFailure interval lastError) (recordFailure_id interval lastError) x).map
        fun s => (none, s)
  | _, _ => none

def isDue (now : Time) (row : Delivery) : Bool :=
  row.status = .retrying && row.nextRetryAt.any fun next => next ≤ now

-- The rows that the query of PollRetries finds, in the order it asks for.
def isQueryOf (t : DeliveryTable) (now : Time) (rows : List Delivery) : Bool :=
  rows.isPerm (t.rows.filter (isDue now)) &&
    decide (rows.Pairwise fun row other => row.nextRetryAt.getD 0 ≤ other.nextRetryAt.getD 0)

def Stage.resume (s : Service) : Stage → Answer → Option (Stage × Service)
  | .inserting _, .fault message =>
      some (.returned (.error ⟨.Unknown, "insert webhook delivery: " ++ message⟩), s)
  | .inserting new, .inserted id payload now =>
      (s.deliveries.insert (new.row id payload now)).map fun deliveries =>
        (.publishing .createAndPublishWebhook (new.event id), { s with deliveries })
  | .waiting, .received k =>
      (s.inFlight[k]?).bind fun text => (decode text).map fun e =>
        (.handling e .delivering, { s with inFlight := s.inFlight.eraseIdx k })
  | .waiting, .redelivered k =>
      (s.published[k]?).bind fun text => (decode text).map fun e => (.handling e .delivering, s)
  | .handling e phase, x =>
      (deliverWebhook s e phase x).map fun (next, s) =>
        (next.elim (.returned (.ok ())) (.handling e), s)
  | .polling, .fault message => some (.returned (.error ⟨.Unknown, message⟩), s)
  | .polling, .due now rows =>
      if isQueryOf s.deliveries now rows then some (.turn ((rows.take 50).map Delivery.target), s) else none
  | .reading _, .fault _ => some (.returned (.error ⟨.NotFound, "delivery not found"⟩), s)
  | .reading id, .done _ =>
      match s.deliveries.find id with
      | none => some (.returned (.error ⟨.NotFound, "delivery not found"⟩), s)
      | some row =>
          if row.status = .dlq then some (.resetting row.target, s)
          else some (.returned (.error ⟨.FailedPrecondition, "delivery is not in DLQ"⟩), s)
  | .resetting target, x =>
      (s.exec target.id Delivery.resetForRetry resetForRetry_id x).map fun s => (.fetching .retryDLQ target, s)
  | .fetching publisher target, .secret secret => some (.publishing publisher (target.event secret), s)
  | .fetching (.pollRetries pending) _, .fault _ => some (.turn pending, s)
  -- the error of this lookup is ignored, and the secret stays empty
  | .fetching .retryDLQ target, .fault _ => some (.publishing .retryDLQ (target.event ""), s)
  | .publishing publisher _, .fault message => some (publisher.failed message, s)
  | .publishing publisher e, .done _ =>
      (encode e).map fun text => (publisher.published e.deliveryID, s.publish text)
  | .marking id pending, x =>
      (s.exec id (fun _ => Delivery.markPending) (fun _ => markPending_id) x).map fun s => (.turn pending, s)
  | _, _ => none

def program : Pool.Program Service Stage Request Answer := ⟨Request.start, fun s => Stage.resume s⟩

abbrev State := Pool.State Service Stage

abbrev Label := Pool.Label Request Answer

def step : State → Label → Option State := Pool.step program

def initService : State := ⟨⟨Table.empty, [], [], []⟩, []⟩

-- One delivery, inserted and published.
def published : List Label :=
  [.spawn (.createAndPublishWebhook "call-1" 7 "https://example.com/hook" "" "call.finished" (.ok "[1]")),
   .move 0 (.inserted 1 "[1]" 0), .move 0 (.done 0)]

end Bos3000.Webhook
