import Bos3000.Webhook.Moves

-- Whether a delivery that is delivered stays so, and is posted no more.
namespace Bos3000.Webhook

def Service.isDelivered (s : Service) (id : Int64) : Bool :=
  (s.deliveries.find id).any fun row => row.status = .delivered

def Service.postsFor (s : Service) (id : Int64) : List (Int64 × PostRequest) :=
  s.posts.filter fun post => post.1 = id

-- A worker that has yet to write to the row of the delivery, or to post it. One
-- that waits for its response, or is about to record a delivery, may do neither.
def Stage.actsOn (id : Int64) : Stage → Bool
  | .handling _ .awaiting | .handling _ .recording => false
  | .handling e _ => e.deliveryID = id
  | _ => false

-- No worker is handed a message of a delivery that is delivered, or has its
-- request refused after another worker has delivered it; no other worker is busy
-- with a delivery when it is recorded as delivered; and neither PollRetries nor
-- RetryDLQ resets a row that has become delivered since it was read.
def keepsDelivered (s : State) : Label → Bool
  | .spawn _ => true
  | .move i x =>
      match s.tasks[i]?, x with
      | some .waiting, .received k =>
          ((s.shared.inFlight[k]?).bind decode).all fun e => !s.shared.isDelivered e.deliveryID
      | some .waiting, .redelivered k =>
          ((s.shared.published[k]?).bind decode).all fun e => !s.shared.isDelivered e.deliveryID
      | some (.handling e .awaiting), x => x.accepts || !s.shared.isDelivered e.deliveryID
      | some (.handling e .recording), .done _ => s.tasks.all fun other => !other.actsOn e.deliveryID
      | some (.marking id _), .done _ => !s.shared.isDelivered id
      | some (.resetting target), .done _ => !s.shared.isDelivered target.id
      | _, _ => true

theorem isDelivered_update (s : Service) (id other : Int64) {assign : Delivery → Delivery}
    (hassign : ∀ row, (assign row).id = row.id) :
    Service.isDelivered { s with deliveries := s.deliveries.update id assign hassign } other =
      (s.deliveries.find other).any fun row => (if other = id then assign row else row).status = .delivered := by
  simp only [Service.isDelivered, Table.find_update, Option.any_map]

-- An update to another status leaves the deliveries of other rows alone.
theorem isDelivered_update_reset (s : Service) {id : Int64} {assign : Delivery → Delivery}
    (hassign : ∀ row, (assign row).id = row.id) (hstatus : ∀ row, (assign row).status ≠ .delivered)
    (other : Int64) :
    Service.isDelivered { s with deliveries := s.deliveries.update id assign hassign } other =
      (decide (other ≠ id) && s.isDelivered other) := by
  rw [isDelivered_update]
  by_cases hid : other = id
  · simp [hid, hstatus]
  · simp [hid, Service.isDelivered]

theorem isDelivered_insert {s : Service} {row : Delivery} {deliveries : DeliveryTable}
    (hinsert : s.deliveries.insert row = some deliveries) (hstatus : row.status ≠ .delivered) (id : Int64) :
    Service.isDelivered { s with deliveries } id = s.isDelivered id := by
  have hnone := (Table.insert_eq_some hinsert).2
  simp only [Service.isDelivered, Table.find_insert hinsert]
  by_cases hid : id = row.id
  · simp [hid, hnone, hstatus]
  · rw [if_neg hid]

theorem recordFailure_status (interval : Duration) (lastError : String) (now : Time) (row : Delivery) :
    (row.recordFailure interval lastError now).status ≠ .delivered := by
  unfold Delivery.recordFailure
  split <;> simp

-- Only the UPDATE after an accepted request makes a delivery delivered.
theorem Moves.becomesDelivered {s t : Service} {x : Answer} {stage next : Stage} (h : Moves s x stage next t)
    {id : Int64} (hnew : t.isDelivered id = true) (hold : s.isDelivered id = false) :
    ∃ e now, stage = .handling e .recording ∧ x = .done now ∧ e.deliveryID = id ∧
      next = .returned (.ok ()) := by
  have hreset : ∀ (key : Int64) (assign : Delivery → Delivery) (hassign : ∀ row, (assign row).id = row.id),
      (∀ row, (assign row).status ≠ .delivered) →
      t = { s with deliveries := s.deliveries.update key assign hassign } → False := by
    rintro key assign hassign hstatus rfl
    rw [isDelivered_update_reset s hassign hstatus, hold, Bool.and_false] at hnew
    cases hnew
  have hsame : t.deliveries = s.deliveries → False := by
    intro heq
    rw [Service.isDelivered, heq] at hnew
    rw [Service.isDelivered, hnew] at hold
    cases hold
  cases h with
  | insert hinsert =>
      rw [isDelivered_insert hinsert (by simp [NewDelivery.row]), hold] at hnew
      cases hnew
  | begin => exact (hreset _ _ _ (by simp [Delivery.beginAttempt]) rfl).elim
  | record e now hx =>
      have hid : e.deliveryID = id := by
        by_contra hne
        rw [isDelivered_update] at hnew
        simp only [if_neg (Ne.symm hne)] at hnew
        rw [Service.isDelivered, hnew] at hold
        cases hold
      exact ⟨e, now, rfl, hx, hid, rfl⟩
  | schedule => exact (hreset _ _ _ (recordFailure_status _ _ _) rfl).elim
  | mark => exact (hreset _ _ _ (by simp [Delivery.markPending]) rfl).elim
  | reset => exact (hreset _ _ _ (by simp [Delivery.resetForRetry]) rfl).elim
  | publish | receive | redeliver | post | accept | refuse | count | missing | poll | fetch | read | ignoreBegin
  | ignoreReset | skip | fail => exact (hsame rfl).elim

theorem actsOn_turn (id : Int64) (pending : List Target) : (Stage.turn pending).actsOn id = false := by
  cases pending <;> rfl

theorem actsOn_published (id key : Int64) (publisher : Publisher) :
    (publisher.published key).actsOn id = false := by
  cases publisher <;> rfl

theorem postsFor_post {s : Service} {e : WebhookEvent} {id : Int64} (hne : e.deliveryID ≠ id) :
    (s.post e).postsFor id = s.postsFor id := by
  simp [Service.postsFor, Service.post, hne]

-- A delivery that is delivered when an execution moves.
theorem Moves.staysDelivered {s : State} {i : Nat} {x : Answer} {stage next : Stage} {t : Service}
    (h : Moves s.shared x stage next t) (hstage : s.tasks[i]? = some stage)
    (hkeeps : keepsDelivered s (.move i x) = true) {id : Int64} (hdelivered : s.shared.isDelivered id = true)
    (hacts : stage.actsOn id = false) :
    t.isDelivered id = true ∧ t.postsFor id = s.shared.postsFor id ∧ next.actsOn id = false := by
  have hother : ∀ (key : Int64) (assign : Delivery → Delivery) (hassign : ∀ row, (assign row).id = row.id),
      (∀ row, (assign row).status ≠ .delivered) → key ≠ id →
      Service.isDelivered { s.shared with deliveries := s.shared.deliveries.update key assign hassign } id = true := by
    intro key assign hassign hstatus hne
    rw [isDelivered_update_reset _ hassign hstatus, hdelivered]
    simp [hne.symm]
  have hhandled : ∀ e : WebhookEvent, s.shared.isDelivered e.deliveryID = false → e.deliveryID ≠ id := by
    rintro e hnot rfl
    rw [hdelivered] at hnot
    cases hnot
  cases h with
  | insert hinsert =>
      exact ⟨(isDelivered_insert hinsert (by simp [NewDelivery.row]) id).trans hdelivered, rfl, rfl⟩
  | publish publisher => exact ⟨hdelivered, rfl, actsOn_published ..⟩
  | @receive k text e hx htext hdecode =>
      subst hx
      simp only [keepsDelivered, hstage, htext, Option.bind_some, hdecode, Option.all_some, Bool.not_eq_true'] at hkeeps
      exact ⟨hdelivered, rfl, decide_eq_false (hhandled e hkeeps)⟩
  | @redeliver k text e hx htext hdecode =>
      subst hx
      simp only [keepsDelivered, hstage, htext, Option.bind_some, hdecode, Option.all_some, Bool.not_eq_true'] at hkeeps
      exact ⟨hdelivered, rfl, decide_eq_false (hhandled e hkeeps)⟩
  | begin e => exact ⟨hother _ _ _ (by simp [Delivery.beginAttempt]) (of_decide_eq_false hacts), rfl, hacts⟩
  | post e => exact ⟨hdelivered, postsFor_post (of_decide_eq_false hacts), rfl⟩
  | accept | count | ignoreBegin => exact ⟨hdelivered, rfl, hacts⟩
  | refuse e lastError hphase hx =>
      obtain rfl | rfl := hphase
      · exact ⟨hdelivered, rfl, hacts⟩
      · simp only [keepsDelivered, hstage, hx, Bool.false_or, Bool.not_eq_true'] at hkeeps
        exact ⟨hdelivered, rfl, decide_eq_false (hhandled e hkeeps)⟩
  | record e now =>
      refine ⟨?_, rfl, rfl⟩
      rw [isDelivered_update]
      obtain ⟨row, hrow, hstatus⟩ := (Option.any_eq_true ..).mp hdelivered
      rw [hrow, Option.any_some]
      split
      · rfl
      · exact hstatus
  | missing | poll | fetch | read | ignoreReset => exact ⟨hdelivered, rfl, by first | rfl | exact actsOn_turn ..⟩
  | schedule e lastError interval now =>
      exact ⟨hother _ _ _ (recordFailure_status _ _ _) (of_decide_eq_false hacts), rfl, rfl⟩
  | mark key pending now hx =>
      subst hx
      simp only [keepsDelivered, hstage, Bool.not_eq_true'] at hkeeps
      refine ⟨hother _ _ _ (by simp [Delivery.markPending]) ?_, rfl, actsOn_turn ..⟩
      rintro rfl
      rw [hdelivered] at hkeeps
      cases hkeeps
  | reset target now hx =>
      subst hx
      simp only [keepsDelivered, hstage, Bool.not_eq_true'] at hkeeps
      refine ⟨hother _ _ _ (by simp [Delivery.resetForRetry]) ?_, rfl, rfl⟩
      rintro rfl
      rw [hdelivered] at hkeeps
      cases hkeeps
  | skip stage pending => exact ⟨hdelivered, rfl, actsOn_turn ..⟩
  | fail => exact ⟨hdelivered, rfl, rfl⟩

-- No worker has yet to write to the row of a delivery that is delivered, or to post it.
def Quiet (s : State) : Prop :=
  ∀ id, s.shared.isDelivered id = true → ∀ stage ∈ s.tasks, stage.actsOn id = false

theorem actsOn_start (request : Request) (id : Int64) : request.start.actsOn id = false := by
  obtain ⟨_, hstart⟩ | hstart | hstart | ⟨_, hstart⟩ | ⟨_, hstart⟩ :=
    start_cases request <;> rw [hstart] <;> rfl

theorem quiet_step {s t : State} {l : Label} (h : Quiet s) (hkeeps : keepsDelivered s l = true)
    (hstep : step s l = some t) :
    Quiet t ∧ ∀ id, s.shared.isDelivered id = true →
      t.shared.isDelivered id = true ∧ t.shared.postsFor id = s.shared.postsFor id := by
  cases l with
  | spawn request =>
      cases hstep
      refine ⟨fun id hdelivered stage hstage => ?_, fun id hdelivered => ⟨hdelivered, rfl⟩⟩
      rcases List.mem_append.mp hstage with hold | hnew
      · exact h id hdelivered stage hold
      · rw [List.mem_singleton] at hnew
        rw [hnew]
        exact actsOn_start request id
  | move i x =>
      obtain ⟨stage, next, shared, hstage, hresume, rfl⟩ := Pool.step_move.mp hstep
      have hmoves := resume_moves hresume
      have hstays : ∀ id, s.shared.isDelivered id = true → shared.isDelivered id = true ∧
          shared.postsFor id = s.shared.postsFor id ∧ next.actsOn id = false := fun id hdelivered =>
        hmoves.staysDelivered hstage hkeeps hdelivered (h id hdelivered stage (List.mem_of_getElem? hstage))
      refine ⟨fun id hnew other hother => ?_,
        fun id hdelivered => ⟨(hstays id hdelivered).1, (hstays id hdelivered).2.1⟩⟩
      obtain rfl | ⟨j, hj, hsome⟩ := Pool.mem_set hother
      · cases hold : s.shared.isDelivered id with
        | true => exact (hstays id hold).2.2
        | false =>
            obtain ⟨_, _, _, _, _, rfl⟩ := hmoves.becomesDelivered hnew hold
            rfl
      · have hmem := List.mem_of_getElem? hsome
        cases hold : s.shared.isDelivered id with
        | true => exact h id hold other hmem
        | false =>
            obtain ⟨e, now, rfl, rfl, rfl, _⟩ := hmoves.becomesDelivered hnew hold
            simp only [keepsDelivered, hstage, List.all_eq_true, Bool.not_eq_true'] at hkeeps
            exact hkeeps other hmem

theorem quiet_run {labels : List Label} {s t : State} (h : Quiet s)
    (hrun : Machine.run (Machine.restrict keepsDelivered step) s labels = some t) :
    Quiet t ∧ ∀ id, s.shared.isDelivered id = true →
      t.shared.isDelivered id = true ∧ t.shared.postsFor id = s.shared.postsFor id := by
  refine Machine.restrict_invariant (P := fun t => Quiet t ∧ ∀ id, s.shared.isDelivered id = true →
    t.shared.isDelivered id = true ∧ t.shared.postsFor id = s.shared.postsFor id) ?_
    ⟨h, fun _ hs => ⟨hs, rfl⟩⟩ hrun
  rintro middle label t ⟨hquiet, hmiddle⟩ hkeeps hstep
  obtain ⟨hquiet', ht⟩ := quiet_step hquiet hkeeps hstep
  refine ⟨hquiet', fun id hs => ?_⟩
  obtain ⟨hdelivered, hposts⟩ := hmiddle id hs
  obtain ⟨hdelivered', hposts'⟩ := ht id hdelivered
  exact ⟨hdelivered', hposts'.trans hposts⟩

-- In a run whose steps meet the condition, a delivery that is delivered stays so,
-- and no further request is started for it.
theorem delivered_final {labels more : List Label} {s t : State}
    (hrun : Machine.run (Machine.restrict keepsDelivered step) initService labels = some s)
    (hmore : Machine.run (Machine.restrict keepsDelivered step) s more = some t) {id : Int64}
    (hdelivered : s.shared.isDelivered id = true) :
    t.shared.isDelivered id = true ∧ t.shared.postsFor id = s.shared.postsFor id := by
  have hinit : Quiet initService := by simp [Quiet, initService]
  exact (quiet_run (quiet_run hinit hrun).1 hmore).2 id hdelivered

-- An attempt of a new worker that the endpoint accepts.
def accepted (i : Nat) : List Label :=
  [.spawn .deliverWebhook, .move i (.received 0), .move i (.done 0), .move i (.done 0), .move i (.response 200 ""),
   .move i (.done 0)]

theorem delivered_accepted : ∃ s t, Machine.run (Machine.restrict keepsDelivered step) initService
      (published ++ accepted 1) = some s ∧
    Machine.run (Machine.restrict keepsDelivered step) s [.spawn .pollRetries, .move 2 (.due 60000000000 [])] =
      some t ∧
    s.shared.isDelivered 1 = true ∧ t.shared.isDelivered 1 = true ∧ t.shared.postsFor 1 = s.shared.postsFor 1 := by
  have hcheck : (Machine.run (Machine.restrict keepsDelivered step) initService (published ++ accepted 1)).any
      (fun s => s.shared.isDelivered 1 && (Machine.run (Machine.restrict keepsDelivered step) s
        [.spawn .pollRetries, .move 2 (.due 60000000000 [])]).isSome) = true := by
    decide +kernel
  obtain ⟨s, hs, hstate⟩ := (Option.any_eq_true ..).mp hcheck
  rw [Bool.and_eq_true] at hstate
  obtain ⟨t, ht⟩ := Option.isSome_iff_exists.mp hstate.2
  exact ⟨s, t, hs, ht, hstate.1, delivered_final hs ht hstate.1⟩

-- The topic hands on the message once more, and the endpoint refuses it this time.
def redeliveredOnce (i : Nat) : List Label :=
  [.spawn .deliverWebhook, .move i (.redelivered 0), .move i (.done 0), .move i (.done 0),
   .move i (.response 500 ""), .move i (.done 0), .move i (.done 0)]

theorem redelivery_undoes : ∃ s t, Machine.run step initService (published ++ accepted 1) = some s ∧
    Machine.run step s (redeliveredOnce 2) = some t ∧ s.shared.isDelivered 1 = true ∧
    (s.shared.postsFor 1).length = 1 ∧ (t.shared.postsFor 1).length = 2 ∧
    (t.shared.deliveries.find 1).any (fun row => row.status = .retrying) = true := by
  have hcheck : (Machine.run step initService (published ++ accepted 1)).any (fun s =>
      s.shared.isDelivered 1 && (s.shared.postsFor 1).length == 1 &&
        (Machine.run step s (redeliveredOnce 2)).any fun t => (t.shared.postsFor 1).length == 2 &&
          (t.shared.deliveries.find 1).any fun row => row.status = .retrying) = true := by
    decide +kernel
  obtain ⟨s, hs, hstate⟩ := (Option.any_eq_true ..).mp hcheck
  simp only [Bool.and_eq_true, beq_iff_eq] at hstate
  obtain ⟨⟨hdelivered, hposts⟩, hmore⟩ := hstate
  obtain ⟨t, ht, hstate⟩ := (Option.any_eq_true ..).mp hmore
  simp only [Bool.and_eq_true, beq_iff_eq] at hstate
  exact ⟨s, t, hs, ht, hdelivered, hposts, hstate⟩

end Bos3000.Webhook
