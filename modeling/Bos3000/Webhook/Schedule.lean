import Bos3000.Webhook.Moves

-- The schedule of retries. Each delivery has one carrier at a time: a message, or
-- an execution that is to publish one or is handling it. What the row says then
-- follows from the failures since the delivery was created or reset.
namespace Bos3000.Webhook

open JsonText (Text)

def isFor (id : Int64) (text : Text) : Bool := (decode text).any fun e => e.deliveryID = id

-- The messages of the delivery in flight.
def messages (inFlight : List Text) (id : Int64) : Nat := inFlight.countP (isFor id)

-- The poller leaves the row to be selected again where it does not publish it.
def Publisher.owns : Publisher → Bool
  | .createAndPublishWebhook | .retryDLQ => true
  | .pollRetries _ => false

def Stage.carries (id : Int64) : Stage → Bool
  | .handling e _ => e.deliveryID = id
  | .fetching publisher target => publisher.owns && target.id = id
  | .publishing publisher e => publisher.owns && e.deliveryID = id
  | _ => false

def Stage.marks (id : Int64) : Stage → Bool
  | .marking other _ => other = id
  | _ => false

def carriers (tasks : List Stage) (id : Int64) : Nat := tasks.countP (Stage.carries id)

def markers (tasks : List Stage) (id : Int64) : Nat := tasks.countP (Stage.marks id)

-- Each message is handled once, the statements of the worker and those that change
-- a row succeed, and no worker takes a message before PollRetries has updated the row.
def asAssumed (s : State) : Label → Bool
  | .spawn _ => true
  | .move i x =>
      match s.tasks[i]?, x with
      | some .waiting, .redelivered _ => false
      | some .waiting, .received k =>
          ((s.shared.inFlight[k]?).bind decode).all fun e => !s.tasks.any (Stage.marks e.deliveryID)
      | some (.handling _ _), x | some (.resetting _), x | some (.marking _ _), x => !x.isFault
      | _, _ => true

-- PollRetries publishes only rows that are still retrying and that no other poll has
-- published, and RetryDLQ resets only rows that are still dead letters.
def actsOnCurrent (s : State) : Label → Bool
  | .spawn _ => true
  | .move i x =>
      match s.tasks[i]? with
      | some (.publishing (.pollRetries _) e) =>
          x.isFault || ((s.shared.deliveries.find e.deliveryID).all (·.status = .retrying) &&
            !s.tasks.any (Stage.marks e.deliveryID))
      | some (.resetting target) => (s.shared.deliveries.find target.id).all (·.status = .dlq)
      | _ => true

-- The failures of the delivery since it was created or reset.
def failuresAfter (id : Int64) (s : State) (l : Label) (n : Nat) : Nat :=
  match l with
  | .spawn _ => n
  | .move i x =>
      match s.tasks[i]?, x with
      | some (.handling e (.scheduling _ _)), .done _ => if e.deliveryID = id then n + 1 else n
      | some (.resetting target), .done _ => if target.id = id then 0 else n
      | _, _ => n

def failuresAlong (id : Int64) (s : State) (n : Nat) : List Label → Nat
  | [] => n
  | l :: rest =>
      match step s l with
      | some next => failuresAlong id next (failuresAfter id s l n) rest
      | none => n

-- A row after n failures, with its messages, carriers and updates of polls.
def Delivery.Standing (row : Delivery) (n messages carriers markers : Nat) : Prop :=
  match row.status with
  | .pending => row.attemptCount = n ∧ n ≤ 5 ∧ messages + carriers ≤ 1 ∧ markers = 0
  | .delivering => row.attemptCount = n + 1 ∧ n ≤ 5 ∧ messages = 0 ∧ carriers = 1 ∧ markers = 0
  | .delivered => row.attemptCount = n + 1 ∧ n ≤ 5 ∧ messages = 0 ∧ carriers = 0 ∧ markers = 0
  | .retrying => row.attemptCount = n ∧ 1 ≤ n ∧ n ≤ 5 ∧ messages = markers ∧ carriers = 0 ∧ markers ≤ 1
  | .dlq => row.attemptCount = n ∧ n = 6 ∧ messages = 0 ∧ carriers = 0 ∧ markers = 0
  | .failed => False

def State.Booked (s : State) (id : Int64) (n : Nat) : Prop :=
  match s.shared.deliveries.find id with
  | none => n = 0 ∧ messages s.shared.inFlight id = 0 ∧ carriers s.tasks id = 0 ∧ markers s.tasks id = 0
  | some row => row.Standing n (messages s.shared.inFlight id) (carriers s.tasks id) (markers s.tasks id)

-- What a phase takes the row to be.
def Phase.expects (row : Delivery) : Phase → Prop
  | .delivering => row.status = .pending
  | .scheduling _ interval =>
      row.status = .delivering ∧ interval = retryIntervalForAttempt row.attemptCount
  | .posting | .awaiting | .recording | .counting _ => row.status = .delivering

-- What an execution that carries or marks the delivery takes its row to be.
def Stage.expects (id : Int64) (row : Delivery) : Stage → Prop
  | .handling e phase => e.deliveryID = id → phase.expects row
  | .fetching publisher target => publisher.owns = true → target.id = id → row.status = .pending
  | .publishing publisher e => publisher.owns = true → e.deliveryID = id → row.status = .pending
  | .marking other _ => other = id → row.status = .retrying
  | _ => True

def Publisher.rest : Publisher → List Int64
  | .pollRetries pending => pending.map Target.id
  | .createAndPublishWebhook | .retryDLQ => []

-- The deliveries that an execution is about, all of which have a row.
def Stage.subjects : Stage → List Int64
  | .handling e _ => [e.deliveryID]
  | .resetting target => [target.id]
  | .fetching publisher target => target.id :: publisher.rest
  | .publishing publisher e => e.deliveryID :: publisher.rest
  | .marking id pending => id :: pending.map Target.id
  | _ => []

structure Scheduled (s : State) (ns : Int64 → Nat) : Prop where
  booked : ∀ id, s.Booked id (ns id)
  known : ∀ stage ∈ s.tasks, ∀ id ∈ stage.subjects, ∃ row, s.shared.deliveries.find id = some row
  expected : ∀ stage ∈ s.tasks, ∀ id row, s.shared.deliveries.find id = some row → stage.expects id row

section Counts

variable {s : State} {i : Nat} {stage next : Stage} {shared : Service} {id : Int64}

theorem expects_of_free {row : Delivery} (hcarries : stage.carries id = false) (hmarks : stage.marks id = false) :
    stage.expects id row := by
  cases stage with
  | handling e phase =>
      intro hid
      simp [Stage.carries, hid] at hcarries
  | fetching publisher target =>
      intro howns hid
      simp [Stage.carries, howns, hid] at hcarries
  | publishing publisher e =>
      intro howns hid
      simp [Stage.carries, howns, hid] at hcarries
  | marking other pending =>
      intro hid
      simp [Stage.marks, hid] at hmarks
  | inserting | waiting | polling | reading | resetting | returned => trivial

theorem carriers_set (hstage : s.tasks[i]? = some stage) :
    carriers (s.tasks.set i next) id + (stage.carries id).toNat =
      carriers s.tasks id + (next.carries id).toNat :=
  Pool.countP_set_add (Stage.carries id) hstage

theorem markers_set (hstage : s.tasks[i]? = some stage) :
    markers (s.tasks.set i next) id + (stage.marks id).toNat =
      markers s.tasks id + (next.marks id).toNat :=
  Pool.countP_set_add (Stage.marks id) hstage

-- One move that leaves everything the same that is booked for a delivery.
theorem booked_same (hstage : s.tasks[i]? = some stage) {n : Nat} (h : s.Booked id n)
    (hrow : shared.deliveries.find id = s.shared.deliveries.find id)
    (hmessages : messages shared.inFlight id = messages s.shared.inFlight id)
    (hcarries : next.carries id = stage.carries id) (hmarks : next.marks id = stage.marks id) :
    State.Booked ⟨shared, s.tasks.set i next⟩ id n := by
  have hcarriers : carriers (s.tasks.set i next) id = carriers s.tasks id := by
    have hset : carriers (s.tasks.set i next) id + _ = _ := carriers_set hstage
    rw [hcarries] at hset
    omega
  have hmarkers : markers (s.tasks.set i next) id = markers s.tasks id := by
    have hset : markers (s.tasks.set i next) id + _ = _ := markers_set hstage
    rw [hmarks] at hset
    omega
  unfold State.Booked at h ⊢
  simp only [hrow, hmessages, hcarriers, hmarkers]
  exact h

-- An execution that is alone with a delivery.
def Alone (s : State) (i : Nat) (id : Int64) : Prop :=
  ∀ j other, j ≠ i → s.tasks[j]? = some other → other.carries id = false ∧ other.marks id = false

-- The row that a delivery is booked with, and its counts.
theorem Scheduled.standing {ns : Int64 → Nat} (h : Scheduled s ns) {row : Delivery}
    (hfind : s.shared.deliveries.find id = some row) :
    row.Standing (ns id) (messages s.shared.inFlight id) (carriers s.tasks id) (markers s.tasks id) := by
  have hbooked := h.booked id
  unfold State.Booked at hbooked
  rw [hfind] at hbooked
  exact hbooked

theorem alone_of_counts (hstage : s.tasks[i]? = some stage)
    (hcarries : carriers s.tasks id ≤ (stage.carries id).toNat)
    (hmarks : markers s.tasks id ≤ (stage.marks id).toNat) : Alone s i id :=
  fun _ _ hj hother => ⟨Pool.not_of_countP_le _ hstage hcarries hother hj,
    Pool.not_of_countP_le _ hstage hmarks hother hj⟩

-- A move that is about one delivery.
theorem Scheduled.move {ns ns' : Int64 → Nat} (h : Scheduled s ns) (hstage : s.tasks[i]? = some stage)
    (subject : Int64)
    (hrows : ∀ id, id ≠ subject → shared.deliveries.find id = s.shared.deliveries.find id)
    (hmessages : ∀ id, id ≠ subject → messages shared.inFlight id = messages s.shared.inFlight id)
    (hns : ∀ id, id ≠ subject → ns' id = ns id)
    (hfree : ∀ id, id ≠ subject → stage.carries id = false ∧ next.carries id = false ∧
      stage.marks id = false ∧ next.marks id = false)
    (hbooked : State.Booked ⟨shared, s.tasks.set i next⟩ subject (ns' subject))
    (hkept : ∀ id row, s.shared.deliveries.find id = some row → ∃ after, shared.deliveries.find id = some after)
    (hknown : ∀ id ∈ next.subjects, ∃ row, shared.deliveries.find id = some row)
    (hexpected : ∀ row, shared.deliveries.find subject = some row → next.expects subject row)
    (hothers : shared.deliveries.find subject = s.shared.deliveries.find subject ∨ Alone s i subject) :
    Scheduled ⟨shared, s.tasks.set i next⟩ ns' where
  booked := by
    intro id
    by_cases hid : id = subject
    · subst hid
      exact hbooked
    · obtain ⟨hcarries, hcarries', hmarks, hmarks'⟩ := hfree id hid
      rw [hns id hid]
      exact booked_same hstage (h.booked id) (hrows id hid) (hmessages id hid) (hcarries'.trans hcarries.symm)
        (hmarks'.trans hmarks.symm)
  known := by
    intro other hother id hid
    obtain rfl | ⟨j, _, hj⟩ := Pool.mem_set hother
    · exact hknown id hid
    · obtain ⟨row, hrow⟩ := h.known other (List.mem_of_getElem? hj) id hid
      exact hkept id row hrow
  expected := by
    intro other hother id row hrow
    obtain rfl | ⟨j, hj, hsome⟩ := Pool.mem_set hother
    · by_cases hid : id = subject
      · subst hid
        exact hexpected row hrow
      · obtain ⟨_, hcarries, _, hmarks⟩ := hfree id hid
        exact expects_of_free hcarries hmarks
    · have hold := h.expected other (List.mem_of_getElem? hsome) id row
      by_cases hid : id = subject
      · subst hid
        obtain hsame | halone := hothers
        · exact hold (hsame.symm.trans hrow)
        · obtain ⟨hcarries, hmarks⟩ := halone j other hj hsome
          exact expects_of_free hcarries hmarks
      · exact hold ((hrows id hid).symm.trans hrow)

-- A move that changes no row, no message and no carrier.
theorem Scheduled.idle {ns ns' : Int64 → Nat} (h : Scheduled s ns) (hstage : s.tasks[i]? = some stage)
    (hns : ns' = ns) (hcarries : ∀ id, next.carries id = stage.carries id)
    (hmarks : ∀ id, next.marks id = stage.marks id)
    (hknown : ∀ id ∈ next.subjects, ∃ row, s.shared.deliveries.find id = some row)
    (hexpected : ∀ id row, s.shared.deliveries.find id = some row → next.expects id row)
    (hrows : shared.deliveries = s.shared.deliveries) (hmessages : shared.inFlight = s.shared.inFlight) :
    Scheduled ⟨shared, s.tasks.set i next⟩ ns' := by
  subst hns
  refine ⟨fun id => ?_, fun other hother id hid => ?_, fun other hother id row hrow => ?_⟩
  · exact booked_same hstage (h.booked id) (by rw [hrows]) (by rw [hmessages]) (hcarries id) (hmarks id)
  · rw [hrows]
    obtain rfl | ⟨j, _, hj⟩ := Pool.mem_set hother
    · exact hknown id hid
    · exact h.known other (List.mem_of_getElem? hj) id hid
  · rw [hrows] at hrow
    obtain rfl | ⟨j, _, hj⟩ := Pool.mem_set hother
    · exact hexpected id row hrow
    · exact h.expected other (List.mem_of_getElem? hj) id row hrow

-- A move that updates the row of a delivery nobody else carries or marks.
theorem Scheduled.update {ns ns' : Int64 → Nat} (h : Scheduled s ns) (hstage : s.tasks[i]? = some stage)
    {assign : Delivery → Delivery} (hassign : ∀ row, (assign row).id = row.id) {row : Delivery}
    (hfind : s.shared.deliveries.find id = some row) (hns : ∀ other, other ≠ id → ns' other = ns other)
    (hfree : ∀ other, other ≠ id → stage.carries other = false ∧ next.carries other = false ∧
      stage.marks other = false ∧ next.marks other = false)
    (hstanding : (assign row).Standing (ns' id) (messages s.shared.inFlight id)
      (carriers (s.tasks.set i next) id) (markers (s.tasks.set i next) id))
    (hknown : ∀ other ∈ next.subjects, other ∈ stage.subjects) (hexpected : next.expects id (assign row))
    (halone : Alone s i id) :
    Scheduled ⟨{ s.shared with deliveries := s.shared.deliveries.update id assign hassign }, s.tasks.set i next⟩
      ns' := by
  have hupdated : (s.shared.deliveries.update id assign hassign).find id = some (assign row) := by
    rw [Table.find_update, hfind, Option.map_some, if_pos rfl]
  have hkept : ∀ other old, s.shared.deliveries.find other = some old →
      ∃ after, (s.shared.deliveries.update id assign hassign).find other = some after := by
    intro other old hold
    exact ⟨_, by rw [Table.find_update, hold, Option.map_some]⟩
  refine h.move hstage id (fun other hother => ?_) (fun _ _ => rfl) hns hfree ?_ hkept (fun other hother => ?_)
    (fun after hafter => ?_) (.inr halone)
  · rw [Table.find_update]
    cases s.shared.deliveries.find other <;> simp [hother]
  · unfold State.Booked
    rw [hupdated]
    exact hstanding
  · obtain ⟨old, hold⟩ := h.known stage (List.mem_of_getElem? hstage) other (hknown other hother)
    exact hkept other old hold
  · rw [hupdated] at hafter
    cases hafter
    exact hexpected

end Counts

section Step

variable {s : State} {i : Nat} {stage next : Stage} {shared : Service} {x : Answer} {ns : Int64 → Nat}

theorem carries_turn (id : Int64) (pending : List Target) : (Stage.turn pending).carries id = false := by
  cases pending <;> rfl

theorem marks_turn (id : Int64) (pending : List Target) : (Stage.turn pending).marks id = false := by
  cases pending <;> rfl

theorem subjects_turn (pending : List Target) : (Stage.turn pending).subjects = pending.map Target.id := by
  cases pending <;> rfl

theorem messages_publish {shared : Service} {e : WebhookEvent} {text : Text} (hencode : encode e = some text)
    (id : Int64) : messages (shared.publish text).inFlight id =
      messages shared.inFlight id + (decide (e.deliveryID = id)).toNat := by
  rw [messages, Service.publish, List.countP_append, messages, List.countP_singleton, isFor,
    decode_encode hencode]
  by_cases hid : e.deliveryID = id <;> simp [WebhookEvent.received, hid]

theorem failuresAfter_other (hstage : s.tasks[i]? = some stage)
    (hhandling : ∀ e lastError interval, stage ≠ .handling e (.scheduling lastError interval))
    (hresetting : ∀ target, stage ≠ .resetting target) (id : Int64) (n : Nat) :
    failuresAfter id s (.move i x) n = n := by
  unfold failuresAfter
  cases stage with
  | handling e phase =>
      cases phase with
      | scheduling lastError interval => exact absurd rfl (hhandling e lastError interval)
      | delivering | posting | awaiting | recording | counting => simp [hstage]
  | resetting target => exact absurd rfl (hresetting target)
  | inserting | waiting | polling | reading | fetching | publishing | marking | returned => simp [hstage]

-- CreateAndPublishWebhook inserts a row of a new id.
theorem Scheduled.insert {ns' : Int64 → Nat} (h : Scheduled s ns) {new : NewDelivery} {id : Int64}
    {payload : String} {now : Time} {deliveries : DeliveryTable} (hstage : s.tasks[i]? = some (.inserting new))
    (hinsert : s.shared.deliveries.insert (new.row id payload now) = some deliveries) (hns : ns' = ns) :
    Scheduled ⟨{ s.shared with deliveries },
      s.tasks.set i (.publishing .createAndPublishWebhook (new.event id))⟩ ns' := by
  subst hns
  have hnone : s.shared.deliveries.find id = none := (Table.insert_eq_some hinsert).2
  have hfind : ∀ other, deliveries.find other =
      if other = id then some (new.row id payload now) else s.shared.deliveries.find other :=
    Table.find_insert hinsert
  have hbooked := h.booked id
  unfold State.Booked at hbooked
  rw [hnone] at hbooked
  obtain ⟨hzero, hmessages, hcarriers, hmarkers⟩ := hbooked
  have hcarriers' : carriers (s.tasks.set i (.publishing .createAndPublishWebhook (new.event id))) id = 1 := by
    have hset := @carriers_set s i _ (.publishing .createAndPublishWebhook (new.event id)) id hstage
    have hnext : (Stage.publishing .createAndPublishWebhook (new.event id)).carries id = true := by
      simp [Stage.carries, Publisher.owns, NewDelivery.event]
    have hbefore : (Stage.inserting new).carries id = false := rfl
    rw [hnext, hbefore, hcarriers] at hset
    exact hset
  have hmarkers' : markers (s.tasks.set i (.publishing .createAndPublishWebhook (new.event id))) id = 0 := by
    have hset := @markers_set s i _ (.publishing .createAndPublishWebhook (new.event id)) id hstage
    rw [hmarkers] at hset
    exact hset
  have hkept : ∀ other old, s.shared.deliveries.find other = some old →
      ∃ after, deliveries.find other = some after := by
    intro other old hold
    rw [hfind]
    split
    · exact ⟨_, rfl⟩
    · exact ⟨old, hold⟩
  refine h.move hstage id (fun other hother => ?_) (fun _ _ => rfl) (fun _ _ => rfl) (fun other hother => ?_) ?_ hkept
    (fun other hother => ?_) (fun row hrow => ?_) (.inr ?_)
  · rw [hfind, if_neg hother]
  · simp [Stage.carries, Stage.marks, NewDelivery.event, Ne.symm hother]
  · unfold State.Booked
    simp only [hfind, if_true, hmessages, hcarriers', hmarkers', hzero]
    exact ⟨rfl, by omega, by omega, rfl⟩
  · simp only [Stage.subjects, Publisher.rest, NewDelivery.event, List.mem_singleton] at hother
    subst hother
    exact ⟨_, (hfind other).trans (if_pos rfl)⟩
  · rw [hfind, if_pos rfl] at hrow
    cases hrow
    exact fun _ _ => rfl
  · exact alone_of_counts hstage (by omega) (by omega)

-- An execution that gives up, with the delivery that it was to publish, or goes on to the next.
theorem Scheduled.drop {ns' : Int64 → Nat} (h : Scheduled s ns) (hstage : s.tasks[i]? = some stage) (hns : ns' = ns)
    (hcarries : ∀ id, next.carries id = false) (hmarks : ∀ id, next.marks id = stage.marks id)
    (hpending : ∀ id row, s.shared.deliveries.find id = some row → stage.carries id = true →
      row.status = .pending)
    (hknown : ∀ id ∈ next.subjects, ∃ row, s.shared.deliveries.find id = some row)
    (hexpected : ∀ id row, s.shared.deliveries.find id = some row → next.expects id row) :
    Scheduled ⟨s.shared, s.tasks.set i next⟩ ns' := by
  subst hns
  refine ⟨fun id => ?_, fun other hother id hid => ?_, fun other hother id row hrow => ?_⟩
  · cases hbefore : stage.carries id with
    | false => exact booked_same hstage (h.booked id) rfl rfl ((hcarries id).trans hbefore.symm) (hmarks id)
    | true =>
        have hcarriers := @carriers_set s i stage next id hstage
        have hmarkers := @markers_set s i stage next id hstage
        rw [hcarries, hbefore, Bool.toNat_false, Bool.toNat_true] at hcarriers
        rw [hmarks] at hmarkers
        have hbooked := h.booked id
        unfold State.Booked at hbooked ⊢
        cases hfind : s.shared.deliveries.find id with
        | none =>
            simp only [hfind] at hbooked
            omega
        | some row =>
            simp only [hfind, Delivery.Standing, hpending id row hfind hbefore] at hbooked ⊢
            omega
  · obtain rfl | ⟨j, _, hj⟩ := Pool.mem_set hother
    · exact hknown id hid
    · exact h.known other (List.mem_of_getElem? hj) id hid
  · obtain rfl | ⟨j, _, hj⟩ := Pool.mem_set hother
    · exact hexpected id row hrow
    · exact h.expected other (List.mem_of_getElem? hj) id row hrow

-- CreateAndPublishWebhook and RetryDLQ hand their delivery to the topic.
theorem Scheduled.publishOwn {ns' : Int64 → Nat} (h : Scheduled s ns) {publisher : Publisher} {e : WebhookEvent}
    {text : Text} (hstage : s.tasks[i]? = some (.publishing publisher e)) (hencode : encode e = some text)
    (howns : publisher.owns = true) (hns : ns' = ns) :
    Scheduled ⟨s.shared.publish text, s.tasks.set i (publisher.published e.deliveryID)⟩ ns' := by
  subst hns
  obtain ⟨outcome, houtcome⟩ : ∃ outcome, publisher.published e.deliveryID = .returned outcome := by
    cases publisher with
    | pollRetries pending => cases howns
    | createAndPublishWebhook | retryDLQ => exact ⟨_, rfl⟩
  rw [houtcome]
  have hmem := List.mem_of_getElem? hstage
  obtain ⟨row, hfind⟩ := h.known _ hmem e.deliveryID (by simp [Stage.subjects])
  have hpending : row.status = .pending := h.expected _ hmem e.deliveryID row hfind howns rfl
  have hstanding := h.standing hfind
  simp only [Delivery.Standing, hpending] at hstanding
  have hcarriers := @carriers_set s i _ (.returned outcome) e.deliveryID hstage
  have hmarkers := @markers_set s i _ (.returned outcome) e.deliveryID hstage
  simp only [Stage.carries, Stage.marks, howns, Bool.true_and, decide_true, Bool.toNat_false,
    Bool.toNat_true] at hcarriers hmarkers
  refine h.move hstage e.deliveryID (fun _ _ => rfl) (fun other hother => ?_) (fun _ _ => rfl)
    (fun other hother => ?_) ?_ (fun _ row hrow => ⟨row, hrow⟩) (fun _ hother => by cases hother)
    (fun _ _ => trivial) (.inl rfl)
  · simp [messages_publish hencode, Ne.symm hother]
  · simp [Stage.carries, Stage.marks, Ne.symm hother]
  · have hmessages := @messages_publish s.shared e text hencode e.deliveryID
    rw [decide_eq_true rfl, Bool.toNat_true] at hmessages
    have hsame : (s.shared.publish text).deliveries.find e.deliveryID = some row := hfind
    simp only [State.Booked, hsame, Delivery.Standing, hpending, hmessages]
    omega

-- PollRetries hands a row that is still retrying to the topic.
theorem Scheduled.publishPolled {ns' : Int64 → Nat} (h : Scheduled s ns) {pending : List Target} {e : WebhookEvent}
    {text : Text} (hstage : s.tasks[i]? = some (.publishing (.pollRetries pending) e))
    (hencode : encode e = some text)
    (hretrying : ∀ row, s.shared.deliveries.find e.deliveryID = some row → row.status = .retrying)
    (hmarkers : markers s.tasks e.deliveryID = 0) (hns : ns' = ns) :
    Scheduled ⟨s.shared.publish text, s.tasks.set i (.marking e.deliveryID pending)⟩ ns' := by
  subst hns
  have hmem := List.mem_of_getElem? hstage
  obtain ⟨row, hfind⟩ := h.known _ hmem e.deliveryID (by simp [Stage.subjects])
  have hstatus := hretrying row hfind
  have hstanding := h.standing hfind
  simp only [Delivery.Standing, hstatus, hmarkers] at hstanding
  have hcarriers' := @carriers_set s i _ (.marking e.deliveryID pending) e.deliveryID hstage
  have hmarkers' := @markers_set s i _ (.marking e.deliveryID pending) e.deliveryID hstage
  simp only [Stage.carries, Stage.marks, Publisher.owns, Bool.false_and, decide_true, Bool.toNat_false,
    Bool.toNat_true, hmarkers] at hcarriers' hmarkers'
  refine h.move hstage e.deliveryID (fun _ _ => rfl) (fun other hother => ?_) (fun _ _ => rfl)
    (fun other hother => ?_) ?_ (fun _ row hrow => ⟨row, hrow⟩) (fun other hother => ?_)
    (fun row hrow _ => hretrying row hrow) (.inl rfl)
  · simp [messages_publish hencode, Ne.symm hother]
  · simp [Stage.carries, Stage.marks, Publisher.owns, Ne.symm hother]
  · have hmessages := @messages_publish s.shared e text hencode e.deliveryID
    rw [decide_eq_true rfl, Bool.toNat_true] at hmessages
    have hsame : (s.shared.publish text).deliveries.find e.deliveryID = some row := hfind
    simp only [State.Booked, hsame, Delivery.Standing, hstatus, hmessages]
    omega
  · exact h.known _ hmem other hother

-- A worker takes a message of a row that no poll is about to update.
theorem Scheduled.receive {ns' : Int64 → Nat} (h : Scheduled s ns) {k : Nat} {text : Text} {e : WebhookEvent}
    (hstage : s.tasks[i]? = some .waiting) (htext : s.shared.inFlight[k]? = some text) (hdecode : decode text = some e)
    (hmarkers : markers s.tasks e.deliveryID = 0) (hns : ns' = ns) :
    Scheduled ⟨{ s.shared with inFlight := s.shared.inFlight.eraseIdx k },
      s.tasks.set i (.handling e .delivering)⟩ ns' := by
  subst hns
  have hmessages : ∀ id, messages (s.shared.inFlight.eraseIdx k) id + (decide (e.deliveryID = id)).toNat =
      messages s.shared.inFlight id := by
    intro id
    have herase := Pool.countP_eraseIdx_add (isFor id) htext
    rwa [isFor, hdecode, Option.any_some] at herase
  have hown := hmessages e.deliveryID
  rw [decide_eq_true rfl, Bool.toNat_true] at hown
  obtain ⟨row, hfind, hpending, hattempts, hbound, hnone⟩ : ∃ row,
      s.shared.deliveries.find e.deliveryID = some row ∧
      row.status = .pending ∧ row.attemptCount = ns' e.deliveryID ∧ ns' e.deliveryID ≤ 5 ∧
      messages s.shared.inFlight e.deliveryID = 1 ∧ carriers s.tasks e.deliveryID = 0 := by
    have hbooked := h.booked e.deliveryID
    unfold State.Booked at hbooked
    cases hfind : s.shared.deliveries.find e.deliveryID with
    | none =>
        simp only [hfind] at hbooked
        omega
    | some row =>
        refine ⟨row, rfl, ?_⟩
        simp only [hfind, Delivery.Standing] at hbooked
        cases hstatus : row.status <;> simp only [hstatus] at hbooked <;> simp <;> omega
  have hcarriers' := @carriers_set s i _ (.handling e .delivering) e.deliveryID hstage
  have hmarkers' := @markers_set s i _ (.handling e .delivering) e.deliveryID hstage
  simp only [Stage.carries, Stage.marks, decide_true, Bool.toNat_false, Bool.toNat_true,
    hmarkers] at hcarriers' hmarkers'
  refine h.move hstage e.deliveryID (fun _ _ => rfl) (fun other hother => ?_) (fun _ _ => rfl)
    (fun other hother => ?_) ?_ (fun _ row hrow => ⟨row, hrow⟩) (fun other hother => ?_) (fun after hafter _ => ?_)
    (.inl rfl)
  · have hsame := hmessages other
    rw [decide_eq_false (Ne.symm hother)] at hsame
    exact hsame
  · simp [Stage.carries, Stage.marks, Ne.symm hother]
  · simp only [State.Booked, hfind, Delivery.Standing, hpending]
    omega
  · rw [List.mem_singleton.mp hother]
    exact ⟨row, hfind⟩
  · cases hfind.symm.trans hafter
    exact hpending

section Worker

variable {e : WebhookEvent} {phase : Phase}

-- A row that a worker handles, after n failures.
def Delivery.Handled (row : Delivery) (n : Nat) : Prop :=
  n ≤ 5 ∧ (row.status = .pending ∧ row.attemptCount = n ∨ row.status = .delivering ∧ row.attemptCount = n + 1)

-- The worker is the only carrier of the row.
theorem Scheduled.handled (h : Scheduled s ns) (hstage : s.tasks[i]? = some (.handling e phase)) :
    ∃ row, s.shared.deliveries.find e.deliveryID = some row ∧ phase.expects row ∧
      messages s.shared.inFlight e.deliveryID = 0 ∧ carriers s.tasks e.deliveryID = 1 ∧
      markers s.tasks e.deliveryID = 0 ∧ row.Handled (ns e.deliveryID) := by
  have hmem := List.mem_of_getElem? hstage
  obtain ⟨row, hfind⟩ := h.known _ hmem e.deliveryID (List.mem_singleton_self _)
  have hexpects : phase.expects row := h.expected _ hmem e.deliveryID row hfind rfl
  have hcarries : 0 < carriers s.tasks e.deliveryID :=
    List.countP_pos_iff.mpr ⟨_, hmem, by simp [Stage.carries]⟩
  have hstanding := h.standing hfind
  have hstatus : row.status = .pending ∨ row.status = .delivering := by
    cases phase with
    | delivering => exact .inl hexpects
    | scheduling lastError interval => exact .inr hexpects.1
    | posting | awaiting | recording | counting => exact .inr hexpects
  refine ⟨row, hfind, hexpects, ?_⟩
  obtain hstatus | hstatus := hstatus <;> simp only [Delivery.Standing, hstatus] at hstanding <;>
    simp [Delivery.Handled, hstatus] <;> omega

-- An update by the worker that handles the row.
theorem Scheduled.handledUpdate {ns' : Int64 → Nat} (h : Scheduled s ns)
    (hstage : s.tasks[i]? = some (.handling e phase))
    (hnext : next = .returned (.ok ()) ∨ next = .handling e .posting)
    {assign : Delivery → Delivery} (hassign : ∀ row, (assign row).id = row.id)
    (hns : ∀ other, other ≠ e.deliveryID → ns' other = ns other)
    (hstanding : ∀ row, phase.expects row → row.Handled (ns e.deliveryID) →
      (assign row).Standing (ns' e.deliveryID) 0 (next.carries e.deliveryID).toNat 0)
    (hexpected : ∀ row, phase.expects row → next.expects e.deliveryID (assign row)) :
    Scheduled ⟨{ s.shared with deliveries := s.shared.deliveries.update e.deliveryID assign hassign },
      s.tasks.set i next⟩ ns' := by
  obtain ⟨row, hfind, hexpects, hmessages, hcarriers, hmarkers, hhandled⟩ := h.handled hstage
  have hcarriers' := @carriers_set s i _ next e.deliveryID hstage
  have hmarkers' := @markers_set s i _ next e.deliveryID hstage
  have hcarries : (Stage.handling e phase).carries e.deliveryID = true := by simp [Stage.carries]
  have hmarks : next.marks e.deliveryID = false := by
    obtain rfl | rfl := hnext <;> rfl
  rw [hcarries, hcarriers, Bool.toNat_true] at hcarriers'
  rw [hmarks, hmarkers] at hmarkers'
  refine h.update hstage hassign hfind hns (fun other hother => ?_) ?_ (fun other hother => ?_)
    (hexpected row hexpects) (alone_of_counts hstage (by simp [hcarriers, hcarries]) (by omega))
  · obtain rfl | rfl := hnext <;> simp [Stage.carries, Stage.marks, Ne.symm hother]
  · rw [hmessages, show carriers (s.tasks.set i next) e.deliveryID = (next.carries e.deliveryID).toNat by omega,
      show markers (s.tasks.set i next) e.deliveryID = 0 from hmarkers']
    exact hstanding row hexpects hhandled
  · obtain rfl | rfl := hnext
    · cases hother
    · exact hother

-- The delays of the attempts that are retried.
theorem retryIntervalForAttempt_pos {n : Nat} (hlow : 1 ≤ n) (hhigh : n ≤ 5) : 0 < retryIntervalForAttempt n := by
  interval_cases n <;> decide

theorem retryIntervalForAttempt_last : retryIntervalForAttempt 6 = 0 := by decide

end Worker

-- PollRetries updates the row whose message it published.
theorem Scheduled.mark {ns' : Int64 → Nat} (h : Scheduled s ns) {id : Int64} {pending : List Target}
    (hstage : s.tasks[i]? = some (.marking id pending)) (hns : ns' = ns) :
    Scheduled ⟨{ s.shared with deliveries := s.shared.deliveries.update id Delivery.markPending markPending_id },
      s.tasks.set i (.turn pending)⟩ ns' := by
  subst hns
  have hmem := List.mem_of_getElem? hstage
  obtain ⟨row, hfind⟩ := h.known _ hmem id List.mem_cons_self
  have hretrying : row.status = .retrying := h.expected _ hmem id row hfind rfl
  have hmarks : 0 < markers s.tasks id := List.countP_pos_iff.mpr ⟨_, hmem, by simp [Stage.marks]⟩
  have hstanding := h.standing hfind
  simp only [Delivery.Standing, hretrying] at hstanding
  have hcarriers' := @carriers_set s i _ (.turn pending) id hstage
  have hmarkers' := @markers_set s i _ (.turn pending) id hstage
  rw [carries_turn] at hcarriers'
  rw [marks_turn] at hmarkers'
  simp only [Stage.carries, Stage.marks, decide_true, Bool.toNat_false, Bool.toNat_true] at hcarriers' hmarkers'
  refine h.update hstage markPending_id hfind (fun _ _ => rfl) (fun other hother => ?_) ?_ (fun other hother => ?_)
    (expects_of_free (carries_turn id pending) (marks_turn id pending))
    (alone_of_counts hstage (by omega) (by simp only [Stage.marks, decide_true, Bool.toNat_true]; omega))
  · exact ⟨rfl, carries_turn other pending, by simp [Stage.marks, Ne.symm hother], marks_turn other pending⟩
  · simp only [Delivery.Standing, Delivery.markPending]
    omega
  · rw [subjects_turn] at hother
    exact List.mem_cons_of_mem _ hother

-- RetryDLQ resets a row that is still a dead letter.
theorem Scheduled.reset {ns' : Int64 → Nat} (h : Scheduled s ns) {target : Target} {now : Time}
    (hstage : s.tasks[i]? = some (.resetting target))
    (hdlq : ∀ row, s.shared.deliveries.find target.id = some row → row.status = .dlq)
    (hzero : ns' target.id = 0) (hns : ∀ other, other ≠ target.id → ns' other = ns other) :
    Scheduled ⟨{ s.shared with
        deliveries := s.shared.deliveries.update target.id (Delivery.resetForRetry now) (resetForRetry_id now) },
      s.tasks.set i (.fetching .retryDLQ target)⟩ ns' := by
  have hmem := List.mem_of_getElem? hstage
  obtain ⟨row, hfind⟩ := h.known _ hmem target.id (List.mem_singleton_self _)
  have hstanding := h.standing hfind
  simp only [Delivery.Standing, hdlq row hfind] at hstanding
  have hcarriers' := @carriers_set s i _ (.fetching .retryDLQ target) target.id hstage
  have hmarkers' := @markers_set s i _ (.fetching .retryDLQ target) target.id hstage
  simp only [Stage.carries, Stage.marks, Publisher.owns, Bool.true_and, decide_true, Bool.toNat_false,
    Bool.toNat_true] at hcarriers' hmarkers'
  refine h.update hstage (resetForRetry_id now) hfind hns (fun other hother => ?_) ?_ (fun other hother => hother)
    (fun _ _ => rfl) (alone_of_counts hstage (by omega) (by omega))
  · simp [Stage.carries, Stage.marks, Ne.symm hother]
  · simp only [Delivery.Standing, Delivery.resetForRetry, hzero, Nat.cast_zero, true_and]
    omega

end Step

end Bos3000.Webhook
