import Bos3000.Webhook.Moves

-- The URLs that DeliverWebhook posts to are those that deliveries were created with.
namespace Bos3000.Webhook

def Publisher.urls : Publisher → List String
  | .pollRetries pending => pending.map Target.webhookURL
  | .createAndPublishWebhook | .retryDLQ => []

-- The URLs that an execution holds.
def Stage.urls : Stage → List String
  | .inserting new => [new.webhookURL]
  | .handling e _ => [e.webhookURL]
  | .resetting target => [target.webhookURL]
  | .fetching publisher target => target.webhookURL :: publisher.urls
  | .publishing publisher e => e.webhookURL :: publisher.urls
  | .marking _ pending => pending.map Target.webhookURL
  | .waiting | .polling | .reading _ | .returned _ => []

-- Every URL of the service satisfies a predicate.
structure Service.Targets (good : String → Prop) (s : Service) : Prop where
  rows : ∀ row ∈ s.deliveries.rows, good row.webhookURL
  inFlight : ∀ text ∈ s.inFlight, ∀ e, decode text = some e → good e.webhookURL
  published : ∀ text ∈ s.published, ∀ e, decode text = some e → good e.webhookURL
  posts : ∀ post ∈ s.posts, good post.2.url

structure Targets (good : String → Prop) (s : State) : Prop where
  shared : s.shared.Targets good
  tasks : ∀ stage ∈ s.tasks, ∀ url ∈ stage.urls, good url

variable {good : String → Prop} {s : Service}

theorem Service.Targets.update (h : s.Targets good) (id : Int64) {assign : Delivery → Delivery}
    {hassign : ∀ row, (assign row).id = row.id} (hurl : ∀ row, (assign row).webhookURL = row.webhookURL) :
    Service.Targets good { s with deliveries := s.deliveries.update id assign hassign } := by
  refine { h with rows := ?_ }
  intro row hrow
  obtain ⟨old, hold, rfl⟩ := (@Table.mem_update _ _ _ _ s.deliveries row id assign hassign).mp hrow
  split
  · rw [hurl]
    exact h.rows old hold
  · exact h.rows old hold

theorem recordFailure_webhookURL (interval : Duration) (lastError : String) (now : Time) (row : Delivery) :
    (row.recordFailure interval lastError now).webhookURL = row.webhookURL := by
  unfold Delivery.recordFailure
  split <;> rfl

theorem urls_turn (pending : List Target) : (Stage.turn pending).urls = pending.map Target.webhookURL := by
  cases pending <;> rfl

theorem urls_published (id : Int64) (publisher : Publisher) :
    (publisher.published id).urls = publisher.urls := by
  cases publisher <;> rfl

theorem urls_failed (message : String) (publisher : Publisher) :
    (publisher.failed message).urls = publisher.urls := by
  cases publisher with
  | pollRetries pending => exact urls_turn pending
  | createAndPublishWebhook | retryDLQ => rfl

-- What fails leaves an execution with URLs that it had.
theorem urls_of_fault {x : Answer} {stage next : Stage} {t : Service} (h : stage.resume s x = some (next, t))
    (hx : x.isFault = true) : ∀ url ∈ next.urls, url ∈ stage.urls := by
  obtain ⟨message, rfl⟩ : ∃ message, x = .fault message := by
    cases x with
    | fault message => exact ⟨message, rfl⟩
    | _ => cases hx
  cases stage with
  | handling e phase => cases phase <;> cases h <;> simp [Stage.urls]
  | resetting target =>
      cases h
      simp [Stage.urls, Publisher.urls]
  | fetching publisher target =>
      cases publisher <;> cases h
      · intro url hurl
        rw [urls_turn] at hurl
        exact List.mem_cons_of_mem _ hurl
      · simp [Stage.urls, Publisher.urls, Target.event]
  | publishing publisher e =>
      cases h
      intro url hurl
      rw [urls_failed] at hurl
      exact List.mem_cons_of_mem _ hurl
  | marking id pending =>
      cases h
      intro url hurl
      rwa [urls_turn] at hurl
  | inserting | polling | reading =>
      cases h
      simp [Stage.urls]
  | waiting | returned => cases h

-- One move, of an execution whose URLs are good.
theorem Moves.targets {x : Answer} {stage next : Stage} {t : Service} (hmoves : Moves s x stage next t)
    (hs : s.Targets good) (hstage : ∀ url ∈ stage.urls, good url)
    (hfault : x.isFault = true → ∀ url ∈ next.urls, url ∈ stage.urls) :
    t.Targets good ∧ ∀ url ∈ next.urls, good url := by
  cases hmoves with
  | @insert new id payload now deliveries hinsert =>
      refine ⟨{ hs with rows := ?_ }, by simpa [Stage.urls, Publisher.urls, NewDelivery.event] using hstage⟩
      intro row hrow
      rw [(Table.insert_eq_some hinsert).1, List.mem_append, List.mem_singleton] at hrow
      obtain hrow | rfl := hrow
      · exact hs.rows row hrow
      · exact hstage _ (List.mem_singleton_self _)
  | @publish publisher e text hencode =>
      have hgood : ∀ received, decode text = some received → good received.webhookURL := by
        intro received hdecode
        rw [decode_encode hencode, Option.some.injEq] at hdecode
        subst hdecode
        exact hstage _ List.mem_cons_self
      refine ⟨{ hs with inFlight := ?_, published := ?_ }, ?_⟩
      · intro other hother
        obtain hold | rfl := (List.mem_append.mp hother).imp_right List.mem_singleton.mp
        · exact hs.inFlight other hold
        · exact hgood
      · intro other hother
        obtain hold | rfl := (List.mem_append.mp hother).imp_right List.mem_singleton.mp
        · exact hs.published other hold
        · exact hgood
      · intro url hurl
        rw [urls_published] at hurl
        exact hstage url (List.mem_cons_of_mem _ hurl)
  | @receive k text e hx htext hdecode =>
      refine ⟨{ hs with inFlight := fun other hother => hs.inFlight other (List.mem_of_mem_eraseIdx hother) }, ?_⟩
      simpa [Stage.urls] using hs.inFlight text (List.mem_of_getElem? htext) e hdecode
  | @redeliver k text e hx htext hdecode =>
      exact ⟨hs, by simpa [Stage.urls] using hs.published text (List.mem_of_getElem? htext) e hdecode⟩
  | begin e => exact ⟨hs.update _ fun _ => rfl, hstage⟩
  | post e =>
      refine ⟨{ hs with posts := ?_ }, hstage⟩
      intro post hpost
      obtain hold | rfl := (List.mem_append.mp hpost).imp_right List.mem_singleton.mp
      · exact hs.posts post hold
      · exact hstage _ (List.mem_singleton_self _)
  | accept e | refuse e | count e lastError | ignoreBegin e => exact ⟨hs, hstage⟩
  | record e now => exact ⟨hs.update _ fun _ => rfl, by simp [Stage.urls]⟩
  | missing => exact ⟨hs, by simp [Stage.urls]⟩
  | schedule e lastError interval now =>
      exact ⟨hs.update _ (recordFailure_webhookURL interval lastError now), by simp [Stage.urls]⟩
  | poll rows hrows =>
      refine ⟨hs, fun url hurl => ?_⟩
      rw [urls_turn, List.map_map] at hurl
      obtain ⟨row, hrow, rfl⟩ := List.mem_map.mp hurl
      exact hs.rows row (hrows row hrow).1
  | fetch publisher target secret => exact ⟨hs, hstage⟩
  | mark id pending now =>
      refine ⟨hs.update _ fun _ => rfl, fun url hurl => hstage url ?_⟩
      rwa [urls_turn] at hurl
  | read hfind =>
      refine ⟨hs, fun url hurl => ?_⟩
      obtain rfl := List.mem_singleton.mp hurl
      exact hs.rows _ (Table.find_eq_some.mp hfind).1
  | reset target now => exact ⟨hs.update _ fun _ => rfl, by simpa [Stage.urls, Publisher.urls] using hstage⟩
  | ignoreReset target => exact ⟨hs, by simpa [Stage.urls, Publisher.urls] using hstage⟩
  | skip _ pending hx => exact ⟨hs, fun url hurl => hstage url (hfault hx url hurl)⟩
  | fail => exact ⟨hs, by simp [Stage.urls]⟩

theorem initService_targets : Targets good initService where
  shared := by constructor <;> simp [initService, Table.empty]
  tasks := by simp [initService]

theorem step_targets {s t : State} {label : Label} (h : Targets good s)
    (hspawn : ∀ callID userID webhookURL secret eventType data,
      label = .spawn (.createAndPublishWebhook callID userID webhookURL secret eventType data) → good webhookURL)
    (hstep : step s label = some t) : Targets good t := by
  cases label with
  | spawn request =>
      cases hstep
      refine ⟨h.shared, fun stage hstage => ?_⟩
      obtain hold | rfl := (List.mem_append.mp hstage).imp_right List.mem_singleton.mp
      · exact h.tasks stage hold
      · cases request with
        | createAndPublishWebhook callID userID webhookURL secret eventType data =>
            have hgood := hspawn callID userID webhookURL secret eventType data rfl
            cases data with
            | error message => simp [program, Request.start, createAndPublishWebhook, Stage.urls]
            | ok data => simpa [program, Request.start, createAndPublishWebhook, Stage.urls] using hgood
        | deliverWebhook | pollRetries => simp [program, Request.start, Stage.urls]
        | retryDLQ auth id =>
            simp only [program, Request.start]
            split <;> simp [Stage.urls]
  | move i x =>
      obtain ⟨stage, next, shared, hstage, hresume, rfl⟩ := Pool.step_move.mp hstep
      have hold := h.tasks stage (List.mem_of_getElem? hstage)
      obtain ⟨hshared, hnext⟩ := (resume_moves hresume).targets h.shared hold (urls_of_fault hresume)
      refine ⟨hshared, fun other hother => ?_⟩
      obtain rfl | ⟨j, _, hj⟩ := Pool.mem_set hother
      · exact hnext
      · exact h.tasks other (List.mem_of_getElem? hj)

end Bos3000.Webhook
