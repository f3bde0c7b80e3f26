import Bos3000.Webhook.Operations

-- What one move of an execution does to the deliveries, the topic and the requests.
namespace Bos3000.Webhook

def Answer.isFault : Answer → Bool
  | .fault _ => true
  | _ => false

def Answer.accepts : Answer → Bool
  | .response statusCode _ => 200 ≤ statusCode ∧ statusCode < 300
  | _ => false

inductive Moves (s : Service) (x : Answer) : Stage → Stage → Service → Prop
  | insert {new : NewDelivery} {id : Int64} {payload : String} {now : Time} {deliveries : DeliveryTable}
      (hinsert : s.deliveries.insert (new.row id payload now) = some deliveries) :
      Moves s x (.inserting new) (.publishing .createAndPublishWebhook (new.event id)) { s with deliveries }
  | publish (publisher : Publisher) {e : WebhookEvent} {text : JsonText.Text} (hencode : encode e = some text) :
      Moves s x (.publishing publisher e) (publisher.published e.deliveryID) (s.publish text)
  | receive {k : Nat} {text : JsonText.Text} {e : WebhookEvent} (hx : x = .received k)
      (htext : s.inFlight[k]? = some text) (hdecode : decode text = some e) :
      Moves s x .waiting (.handling e .delivering) { s with inFlight := s.inFlight.eraseIdx k }
  | redeliver {k : Nat} {text : JsonText.Text} {e : WebhookEvent} (hx : x = .redelivered k)
      (htext : s.published[k]? = some text) (hdecode : decode text = some e) :
      Moves s x .waiting (.handling e .delivering) s
  | begin (e : WebhookEvent) :
      Moves s x (.handling e .delivering) (.handling e .posting)
        { s with deliveries := s.deliveries.update e.deliveryID Delivery.beginAttempt beginAttempt_id }
  | post (e : WebhookEvent) : Moves s x (.handling e .posting) (.handling e .awaiting) (s.post e)
  | accept (e : WebhookEvent) : Moves s x (.handling e .awaiting) (.handling e .recording) s
  | refuse (e : WebhookEvent) {phase : Phase} (lastError : String)
      (hphase : phase = .posting ∨ phase = .awaiting) (hx : x.accepts = false) :
      Moves s x (.handling e phase) (.handling e (.counting lastError)) s
  | record (e : WebhookEvent) (now : Time) (hx : x = .done now) :
      Moves s x (.handling e .recording) (.returned (.ok ()))
        { s with
          deliveries := s.deliveries.update e.deliveryID (Delivery.recordDelivered now) (recordDelivered_id now) }
  | count (e : WebhookEvent) (lastError : String) {row : Delivery}
      (hfind : s.deliveries.find e.deliveryID = some row) :
      Moves s x (.handling e (.counting lastError))
        (.handling e (.scheduling lastError (retryIntervalForAttempt row.attemptCount))) s
  | missing (e : WebhookEvent) (lastError : String) (hfind : s.deliveries.find e.deliveryID = none) :
      Moves s x (.handling e (.counting lastError)) (.returned (.ok ())) s
  | schedule (e : WebhookEvent) (lastError : String) (interval : Duration) (now : Time) :
      Moves s x (.handling e (.scheduling lastError interval)) (.returned (.ok ()))
        { s with
          deliveries := s.deliveries.update e.deliveryID (Delivery.recordFailure interval lastError now)
            (recordFailure_id interval lastError now) }
  | poll (rows : List Delivery)
      (hrows : ∀ row ∈ rows, row ∈ s.deliveries.rows ∧ row.status = .retrying) :
      Moves s x .polling (.turn (rows.map Delivery.target)) s
  | fetch (publisher : Publisher) (target : Target) (secret : String) :
      Moves s x (.fetching publisher target) (.publishing publisher (target.event secret)) s
  | mark (id : Int64) (pending : List Target) (now : Time) (hx : x = .done now) :
      Moves s x (.marking id pending) (.turn pending)
        { s with deliveries := s.deliveries.update id Delivery.markPending markPending_id }
  | read {id : Int64} {row : Delivery} (hfind : s.deliveries.find id = some row) (hdlq : row.status = .dlq) :
      Moves s x (.reading id) (.resetting row.target) s
  | reset (target : Target) (now : Time) (hx : x = .done now) :
      Moves s x (.resetting target) (.fetching .retryDLQ target)
        { s with deliveries := s.deliveries.update target.id (Delivery.resetForRetry now) (resetForRetry_id now) }
  | ignoreBegin (e : WebhookEvent) (hx : x.isFault = true) :
      Moves s x (.handling e .delivering) (.handling e .posting) s
  | ignoreReset (target : Target) (hx : x.isFault = true) :
      Moves s x (.resetting target) (.fetching .retryDLQ target) s
  | skip (stage : Stage) (pending : List Target) (hx : x.isFault = true) : Moves s x stage (.turn pending) s
  | fail (stage : Stage) (outcome : Except APIError Unit) (hx : x.isFault = true ∨ ∃ id, stage = .reading id) :
      Moves s x stage (.returned outcome) s

theorem exec_eq_some {s t : Service} {id : Int64} {assign : Time → Delivery → Delivery}
    {hassign : ∀ now row, (assign now row).id = row.id} {x : Answer} :
    s.exec id assign hassign x = some t ↔
      (∃ now, x = .done now ∧
        t = { s with deliveries := s.deliveries.update id (assign now) (hassign now) }) ∨
      x.isFault = true ∧ t = s := by
  cases x <;> simp [Service.exec, Answer.isFault, @eq_comm _ t]

section Inversion

variable {s t : Service} {x : Answer} {stage next : Stage}

theorem handling_moves {e : WebhookEvent} {phase : Phase}
    (h : (Stage.handling e phase).resume s x = some (next, t)) : Moves s x (.handling e phase) next t := by
  obtain ⟨⟨phase', service⟩, hdeliver, heq⟩ := Option.map_eq_some_iff.mp h
  cases heq
  cases phase with
  | delivering =>
      obtain ⟨_, hexec, heq⟩ := Option.map_eq_some_iff.mp hdeliver
      cases heq
      obtain ⟨now, _, rfl⟩ | ⟨hfault, rfl⟩ := exec_eq_some.mp hexec
      · exact .begin e
      · exact .ignoreBegin e hfault
  | posting =>
      cases x with
      | done now =>
          cases hdeliver
          exact .post e
      | requestError message =>
          cases hdeliver
          exact .refuse e _ (.inl rfl) rfl
      | _ => cases hdeliver
  | awaiting =>
      cases x with
      | httpError message =>
          cases hdeliver
          exact .refuse e _ (.inr rfl) rfl
      | response statusCode body =>
          simp only [deliverWebhook] at hdeliver
          split at hdeliver
          · cases hdeliver
            exact .accept e
          · rename_i hcode
            cases hdeliver
            exact .refuse e _ (.inr rfl) (decide_eq_false hcode)
      | _ => cases hdeliver
  | recording =>
      obtain ⟨_, hexec, heq⟩ := Option.map_eq_some_iff.mp hdeliver
      cases heq
      obtain ⟨now, hx, rfl⟩ | ⟨hfault, rfl⟩ := exec_eq_some.mp hexec
      · exact .record e now hx
      · exact .fail _ _ (.inl hfault)
  | counting lastError =>
      cases x with
      | fault message =>
          cases hdeliver
          exact .fail _ _ (.inl rfl)
      | done now =>
          simp only [deliverWebhook] at hdeliver
          split at hdeliver
          · rename_i hfind
            cases hdeliver
            exact .missing e lastError hfind
          · rename_i row hfind
            cases hdeliver
            exact .count e lastError hfind
      | _ => cases hdeliver
  | scheduling lastError interval =>
      obtain ⟨_, hexec, heq⟩ := Option.map_eq_some_iff.mp hdeliver
      cases heq
      obtain ⟨now, _, rfl⟩ | ⟨hfault, rfl⟩ := exec_eq_some.mp hexec
      · exact .schedule e lastError interval now
      · exact .fail _ _ (.inl hfault)

theorem due_of_isQueryOf {table : DeliveryTable} {now : Time} {rows : List Delivery}
    (h : isQueryOf table now rows = true) : ∀ row ∈ rows, row ∈ table.rows ∧ row.status = .retrying := by
  simp only [isQueryOf, Bool.and_eq_true, List.isPerm_iff] at h
  intro row hrow
  obtain ⟨hmem, hdue⟩ := List.mem_filter.mp (h.1.mem_iff.mp hrow)
  simp only [isDue, Bool.and_eq_true, decide_eq_true_eq] at hdue
  exact ⟨hmem, hdue.1⟩

theorem publishing_moves {publisher : Publisher} {e : WebhookEvent}
    (h : (Stage.publishing publisher e).resume s x = some (next, t)) :
    Moves s x (.publishing publisher e) next t := by
  cases x with
  | done now =>
      obtain ⟨text, hencode, heq⟩ := Option.map_eq_some_iff.mp h
      cases heq
      exact .publish publisher hencode
  | fault message =>
      cases h
      cases publisher with
      | pollRetries pending => exact .skip _ pending rfl
      | createAndPublishWebhook | retryDLQ => exact .fail _ _ (.inl rfl)
  | _ => cases h

theorem fetching_moves {publisher : Publisher} {target : Target}
    (h : (Stage.fetching publisher target).resume s x = some (next, t)) :
    Moves s x (.fetching publisher target) next t := by
  cases x with
  | secret secret =>
      cases publisher <;> cases h <;> exact .fetch ..
  | fault message =>
      cases publisher with
      | createAndPublishWebhook => cases h
      | pollRetries pending =>
          cases h
          exact .skip _ pending rfl
      | retryDLQ =>
          cases h
          exact .fetch ..
  | _ => cases publisher <;> cases h

theorem reading_moves {id : Int64} (h : (Stage.reading id).resume s x = some (next, t)) :
    Moves s x (.reading id) next t := by
  cases x with
  | fault message =>
      cases h
      exact .fail _ _ (.inl rfl)
  | done now =>
      simp only [Stage.resume] at h
      split at h
      · cases h
        exact .fail _ _ (.inr ⟨id, rfl⟩)
      · rename_i row hfind
        split at h
        · rename_i hdlq
          cases h
          exact .read hfind hdlq
        · cases h
          exact .fail _ _ (.inr ⟨id, rfl⟩)
  | _ => cases h

theorem resume_moves (h : stage.resume s x = some (next, t)) : Moves s x stage next t := by
  cases stage with
  | inserting new =>
      cases x with
      | fault message =>
          cases h
          exact .fail _ _ (.inl rfl)
      | inserted id payload now =>
          obtain ⟨deliveries, hinsert, heq⟩ := Option.map_eq_some_iff.mp h
          cases heq
          exact .insert hinsert
      | _ => cases h
  | waiting =>
      cases x with
      | received k =>
          obtain ⟨text, htext, hmap⟩ := Option.bind_eq_some_iff.mp h
          obtain ⟨e, hdecode, heq⟩ := Option.map_eq_some_iff.mp hmap
          cases heq
          exact .receive rfl htext hdecode
      | redelivered k =>
          obtain ⟨text, htext, hmap⟩ := Option.bind_eq_some_iff.mp h
          obtain ⟨e, hdecode, heq⟩ := Option.map_eq_some_iff.mp hmap
          cases heq
          exact .redeliver rfl htext hdecode
      | _ => cases h
  | handling e phase => exact handling_moves h
  | polling =>
      cases x with
      | fault message =>
          cases h
          exact .fail _ _ (.inl rfl)
      | due now rows =>
          simp only [Stage.resume] at h
          split at h
          · rename_i hquery
            cases h
            exact .poll _ fun row hrow => due_of_isQueryOf hquery row (List.mem_of_mem_take hrow)
          · cases h
      | _ => cases h
  | reading id => exact reading_moves h
  | resetting target =>
      obtain ⟨_, hexec, heq⟩ := Option.map_eq_some_iff.mp h
      cases heq
      obtain ⟨now, hx, rfl⟩ | ⟨hfault, rfl⟩ := exec_eq_some.mp hexec
      · exact .reset target now hx
      · exact .ignoreReset target hfault
  | fetching publisher target => exact fetching_moves h
  | publishing publisher e => exact publishing_moves h
  | marking id pending =>
      obtain ⟨_, hexec, heq⟩ := Option.map_eq_some_iff.mp h
      cases heq
      obtain ⟨now, hx, rfl⟩ | ⟨hfault, rfl⟩ := exec_eq_some.mp hexec
      · exact .mark id pending now hx
      · exact .skip _ pending hfault
  | returned outcome => cases x <;> cases h

end Inversion

theorem start_cases (request : Request) :
    (∃ new, request.start = .inserting new) ∨ request.start = .waiting ∨
      request.start = .polling ∨ (∃ id, request.start = .reading id) ∨
      ∃ outcome, request.start = .returned outcome := by
  cases request with
  | createAndPublishWebhook callID userID webhookURL secret eventType data =>
      cases data with
      | error message => exact .inr (.inr (.inr (.inr ⟨_, rfl⟩)))
      | ok data => exact .inl ⟨_, rfl⟩
  | deliverWebhook => exact .inr (.inl rfl)
  | pollRetries => exact .inr (.inr (.inl rfl))
  | retryDLQ auth id =>
      simp only [Request.start]
      split <;> simp

end Bos3000.Webhook
