import Bos3000.Webhook.Moves

-- Whether some execution or message stands for every delivery that is neither
-- delivered, dead nor waiting for its retry.
namespace Bos3000.Webhook

-- Nobody has to act on these before the next poll or an admin's retry.
def Status.isParked (status : Status) : Bool :=
  status = .delivered ∨ status = .dlq ∨ status = .retrying

-- A message of the delivery has yet to be handled.
def Service.queues (s : Service) (id : Int64) : Bool :=
  s.inFlight.any fun text => (decode text).any fun e => e.deliveryID = id

def Stage.handles (id : Int64) : Stage → Bool
  | .handling e _ => e.deliveryID = id
  | _ => false

def Publisher.pending : Publisher → List Target
  | .pollRetries pending => pending
  | .createAndPublishWebhook | .retryDLQ => []

-- The deliveries that an execution has inserted, selected or reset, and whose
-- messages it has yet to publish.
def Stage.unpublished : Stage → List Int64
  | .fetching publisher target => target.id :: publisher.pending.map Target.id
  | .publishing publisher e => e.deliveryID :: publisher.pending.map Target.id
  | .marking _ pending => pending.map Target.id
  | _ => []

def Stage.attends (id : Int64) (stage : Stage) : Bool := stage.handles id || stage.unpublished.contains id

def attended (s : State) (id : Int64) : Bool := s.shared.queues id || s.tasks.any (Stage.attends id)

def Label.succeeds : Label → Bool
  | .spawn _ => true
  | .move _ (.fault _) | .move _ (.redelivered _) => false
  | .move _ _ => true

-- PollRetries sets a row to pending while the message that it published for it,
-- or another one, is still to be handled or being handled.
def marksAttended (s : State) : Label → Bool
  | .spawn _ => true
  | .move i _ =>
      match s.tasks[i]? with
      | some (.marking id _) => attended s id
      | _ => true

theorem attends_turn (id : Int64) (pending : List Target) :
    (Stage.turn pending).attends id = (pending.map Target.id).contains id := by
  cases pending with
  | nil => rfl
  | cons target pending => simp [Stage.turn, Stage.attends, Stage.handles, Stage.unpublished, Publisher.pending]

theorem attends_publishing (id : Int64) (publisher : Publisher) (e : WebhookEvent) :
    (Stage.publishing publisher e).attends id =
      (decide (e.deliveryID = id) || (publisher.published e.deliveryID).attends id) := by
  cases publisher <;>
    simp [Publisher.published, Stage.attends, Stage.handles, Stage.unpublished, Publisher.pending,
      @eq_comm _ id e.deliveryID]

theorem queues_publish {s : Service} {e : WebhookEvent} {text : JsonText.Text} (hencode : encode e = some text)
    (id : Int64) : (s.publish text).queues id = (s.queues id || decide (e.deliveryID = id)) := by
  simp [Service.queues, Service.publish, decode_encode hencode, WebhookEvent.received]

theorem mem_or_eq_of_eraseIdx {α : Type*} {l : List α} {k : Nat} {x y : α} (h : l[k]? = some x) (hy : y ∈ l) :
    y = x ∨ y ∈ l.eraseIdx k := by
  obtain ⟨j, hj⟩ := List.getElem?_of_mem hy
  by_cases hjk : j = k
  · subst hjk
    rw [h] at hj
    exact .inl (Option.some.inj hj).symm
  · exact .inr (List.mem_eraseIdx_iff_getElem?.mpr ⟨j, hjk, hj⟩)

theorem queues_receive {s : Service} {k : Nat} {text : JsonText.Text} {e : WebhookEvent}
    (htext : s.inFlight[k]? = some text) (hdecode : decode text = some e) {id : Int64} (h : s.queues id = true) :
    e.deliveryID = id ∨ Service.queues { s with inFlight := s.inFlight.eraseIdx k } id = true := by
  obtain ⟨other, hother, hid⟩ := List.any_eq_true.mp h
  obtain rfl | hleft := mem_or_eq_of_eraseIdx htext hother
  · rw [hdecode, Option.any_some, decide_eq_true_eq] at hid
    exact .inl hid
  · exact .inr (List.any_eq_true.mpr ⟨other, hleft, hid⟩)

section Step

variable {s t : Service} {x : Answer} {stage next : Stage} {others : Int64 → Prop}

-- Somebody stands for a delivery: a message, the execution that moves, or another one.
def StoodFor (s : Service) (stage : Stage) (others : Int64 → Prop) (id : Int64) : Prop :=
  s.queues id = true ∨ stage.attends id = true ∨ others id

def NoneStranded (s : Service) (stage : Stage) (others : Int64 → Prop) : Prop :=
  ∀ row ∈ s.deliveries.rows, row.status.isParked = true ∨ StoodFor s stage others row.id

-- The rows are the same, and whoever stood for a delivery is succeeded by somebody.
theorem NoneStranded.handOver (h : NoneStranded s stage others) (hrows : t.deliveries = s.deliveries)
    (hover : ∀ id, StoodFor s stage others id → StoodFor t next others id) : NoneStranded t next others := by
  intro row hrow
  rw [hrows] at hrow
  exact (h row hrow).imp_right (hover row.id)

-- An update settles the row that it is about, or somebody stands for it.
theorem NoneStranded.update (h : NoneStranded s stage others) {id : Int64} {assign : Delivery → Delivery}
    (hassign : ∀ row, (assign row).id = row.id)
    (hrow : ∀ row, (assign row).status.isParked = true ∨ StoodFor s next others id)
    (hnext : ∀ other, other ≠ id → stage.attends other = true → next.attends other = true) :
    NoneStranded { s with deliveries := s.deliveries.update id assign hassign } next others := by
  intro row (hmem : row ∈ (s.deliveries.update id assign hassign).rows)
  obtain ⟨old, hold, rfl⟩ := Table.mem_update.mp hmem
  by_cases hid : old.id = id
  · rw [if_pos hid, hassign, hid]
    exact hrow old
  · rw [if_neg hid]
    exact (h old hold).imp_right (Or.imp_right (Or.imp_left (hnext old.id hid)))

theorem Moves.noneStranded (h : Moves s x stage next t) (hold : NoneStranded s stage others)
    (hfault : x.isFault = false) (honce : ∀ k, x ≠ .redelivered k)
    (hmark : ∀ id pending, stage = .marking id pending → StoodFor s stage others id) :
    NoneStranded t next others := by
  cases h with
  | @insert new id payload now deliveries hinsert =>
      intro row hrow
      rw [(Table.insert_eq_some hinsert).1, List.mem_append, List.mem_singleton] at hrow
      rcases hrow with hrow | rfl
      · have hnone : (Stage.inserting new).attends row.id = false := rfl
        obtain hparked | hqueues | hattends | hothers := hold row hrow
        · exact .inl hparked
        · exact .inr (.inl hqueues)
        · rw [hnone] at hattends
          cases hattends
        · exact .inr (.inr (.inr hothers))
      · exact .inr (.inr (.inl (by simp [attends_publishing, NewDelivery.row, NewDelivery.event])))
  | @publish publisher e text hencode =>
      refine hold.handOver rfl fun id hstood => ?_
      rw [StoodFor, attends_publishing] at hstood
      rw [StoodFor, queues_publish hencode]
      grind
  | @receive k text e hx htext hdecode =>
      refine hold.handOver rfl fun id hstood => ?_
      obtain hqueues | hattends | hothers := hstood
      · obtain rfl | hqueues := queues_receive htext hdecode hqueues
        · exact .inr (.inl (by simp [Stage.attends, Stage.handles]))
        · exact .inl hqueues
      · cases hattends
      · exact .inr (.inr hothers)
  | redeliver hx => exact absurd hx (honce _)
  | begin e => exact hold.update _ (fun _ => .inr (.inr (.inl (by simp [Stage.attends, Stage.handles])))) fun _ _ h => h
  | post | accept | refuse | count => exact hold.handOver rfl fun _ hstood => hstood
  | record e now hx =>
      refine hold.update _ (fun _ => .inl rfl) fun other hne hattends => ?_
      simp [Stage.attends, Stage.handles, Stage.unpublished, hne.symm] at hattends
  | missing e lastError hfind =>
      intro row hrow
      have hne : e.deliveryID ≠ row.id := fun heq => Table.find_eq_none.mp hfind row hrow heq.symm
      obtain hparked | hqueues | hattends | hothers := hold row hrow
      · exact .inl hparked
      · exact .inr (.inl hqueues)
      · simp [Stage.attends, Stage.handles, Stage.unpublished, hne] at hattends
      · exact .inr (.inr (.inr hothers))
  | schedule e lastError interval now =>
      refine hold.update _ (fun row => .inl ?_) fun other hne hattends => ?_
      · unfold Delivery.recordFailure
        split <;> rfl
      · simp [Stage.attends, Stage.handles, Stage.unpublished, hne.symm] at hattends
  | poll | read =>
      refine hold.handOver rfl fun id hstood => ?_
      obtain hqueues | hattends | hothers := hstood
      · exact .inl hqueues
      · cases hattends
      · exact .inr (.inr hothers)
  | fetch => exact hold.handOver rfl fun _ hstood => hstood
  | mark id pending now hx =>
      have hsame : ∀ other, (Stage.turn pending).attends other = (Stage.marking id pending).attends other := by
        intro other
        rw [attends_turn]
        rfl
      refine hold.update _ (fun _ => .inr ?_) fun other _ hattends => (hsame other).trans hattends
      obtain hqueues | hattends | hothers := hmark id pending rfl
      · exact .inl hqueues
      · exact .inr (.inl ((hsame id).trans hattends))
      · exact .inr (.inr hothers)
  | reset target now hx =>
      refine hold.update _ (fun _ => .inr (.inr (.inl ?_))) fun other _ hattends => ?_
      · simp [Stage.attends, Stage.unpublished]
      · cases hattends
  | ignoreBegin _ hx | ignoreReset _ hx | skip _ _ hx =>
      rw [hfault] at hx
      cases hx
  | fail stage outcome hx =>
      obtain hx | ⟨id, rfl⟩ := hx
      · rw [hfault] at hx
        cases hx
      · exact hold.handOver rfl fun _ hstood => hstood

end Step

-- The executions other than one that stand for a delivery.
def othersAttend (tasks : List Stage) (i : Nat) (id : Int64) : Prop :=
  ∃ j stage, j ≠ i ∧ tasks[j]? = some stage ∧ stage.attends id = true

theorem attended_iff {s : State} {i : Nat} {stage : Stage} (hstage : s.tasks[i]? = some stage) (id : Int64) :
    attended s id = true ↔ StoodFor s.shared stage (othersAttend s.tasks i) id := by
  rw [attended, Bool.or_eq_true, List.any_eq_true]
  refine or_congr_right ?_
  constructor
  · rintro ⟨other, hother, hattends⟩
    obtain rfl | ⟨j, hj, hsome⟩ := (Pool.mem_iff_move hstage).mp hother
    · exact .inl hattends
    · exact .inr ⟨j, other, hj, hsome, hattends⟩
  · rintro (hattends | ⟨j, other, hj, hsome, hattends⟩)
    · exact ⟨stage, List.mem_of_getElem? hstage, hattends⟩
    · exact ⟨other, List.mem_of_getElem? hsome, hattends⟩

theorem attended_set {shared : Service} {tasks : List Stage} {i : Nat} {stage next : Stage} {id : Int64}
    (hstage : tasks[i]? = some stage) (h : StoodFor shared next (othersAttend tasks i) id) :
    attended ⟨shared, tasks.set i next⟩ id = true := by
  rw [attended, Bool.or_eq_true, List.any_eq_true]
  obtain hqueues | hattends | ⟨j, other, hj, hsome, hattends⟩ := h
  · exact .inl hqueues
  · exact .inr ⟨next, Pool.mem_set_self hstage next, hattends⟩
  · exact .inr ⟨other, Pool.mem_set_other hsome hj next, hattends⟩

def Inv (s : State) : Prop :=
  ∀ row ∈ s.shared.deliveries.rows, row.status.isParked = true ∨ attended s row.id = true

theorem inv_step {s t : State} {l : Label} (h : Inv s) (hsucceeds : l.succeeds = true)
    (hmarks : marksAttended s l = true) (hstep : step s l = some t) : Inv t := by
  cases l with
  | spawn request =>
      cases hstep
      intro row hrow
      refine (h row hrow).imp_right fun hattended => ?_
      simp only [attended, List.any_append, Bool.or_eq_true] at hattended ⊢
      exact hattended.imp_right .inl
  | move i x =>
      obtain ⟨stage, next, shared, hstage, hresume, rfl⟩ := Pool.step_move.mp hstep
      have hold : NoneStranded s.shared stage (othersAttend s.tasks i) :=
        fun row hrow => (h row hrow).imp_right (attended_iff hstage row.id).mp
      have hfault : x.isFault = false := by
        cases x <;> first | rfl | cases hsucceeds
      have honce : ∀ k, x ≠ .redelivered k := by
        rintro k rfl
        cases hsucceeds
      have hmark : ∀ id pending, stage = .marking id pending →
          StoodFor s.shared stage (othersAttend s.tasks i) id := by
        rintro id pending rfl
        simp only [marksAttended, hstage] at hmarks
        exact (attended_iff hstage id).mp hmarks
      have hnext := (resume_moves hresume).noneStranded hold hfault honce hmark
      exact fun row hrow => (hnext row hrow).imp_right (attended_set hstage)

-- When every statement succeeds, each message is handled once, and PollRetries
-- sets no row to pending after the message was handled, somebody stands for every
-- delivery that is neither delivered nor dead nor waiting for its retry.
theorem attended_inOrder {labels : List Label} {s : State}
    (hrun : Machine.run (Machine.restrict (fun s l => l.succeeds && marksAttended s l) step) initService labels =
      some s) :
    ∀ row ∈ s.shared.deliveries.rows, row.status ≠ .delivered → row.status ≠ .dlq →
      row.status = .retrying ∨ attended s row.id = true := by
  have hinv : Inv s := by
    refine Machine.restrict_invariant ?_ (by simp [Inv, initService, Table.empty]) hrun
    intro s l t h hallowed hstep
    rw [Bool.and_eq_true] at hallowed
    exact inv_step h hallowed.1 hallowed.2 hstep
  intro row hrow hdelivered hdlq
  refine (hinv row hrow).imp_left fun hparked => ?_
  simpa [Status.isParked, hdelivered, hdlq] using hparked

-- An attempt of a new worker that the endpoint refuses.
def refused (i : Nat) (now : Time) : List Label :=
  [.spawn .deliverWebhook, .move i (.received 0), .move i (.done now), .move i (.done now),
   .move i (.response 500 ""), .move i (.done now), .move i (.done now)]

def refusedOnce : Delivery where
  id := 1
  callID := "call-1"
  userID := 7
  eventType := "call.finished"
  status := .retrying
  webhookURL := "https://example.com/hook"
  payload := "[1]"
  attemptCount := 1
  nextRetryAt := some 30000000000
  lastError := some "HTTP 500: "
  deliveredAt := none
  dlqAt := none
  dlqRetryCount := 0

-- A poll up to its Publish.
def polled (i : Nat) (now : Time) : List Label :=
  [.spawn .pollRetries, .move i (.due now [refusedOnce]), .move i (.secret ""), .move i (.done now)]

theorem attended_retried : ∃ s, Machine.run (Machine.restrict (fun s l => l.succeeds && marksAttended s l) step)
    initService (published ++ refused 1 0 ++ polled 2 60000000000 ++ [.move 2 (.done 60000000000)] ++
      refused 3 60000000000) = some s ∧
    ∀ row ∈ s.shared.deliveries.rows, row.status ≠ .delivered → row.status ≠ .dlq →
      row.status = .retrying ∨ attended s row.id = true := by
  obtain ⟨s, hs⟩ := Option.isSome_iff_exists.mp (show (Machine.run (Machine.restrict
    (fun s l => l.succeeds && marksAttended s l) step) initService (published ++ refused 1 0 ++
      polled 2 60000000000 ++ [.move 2 (.done 60000000000)] ++ refused 3 60000000000)).isSome = true by
    decide +kernel)
  exact ⟨s, hs, attended_inOrder hs⟩

def Stage.isReturned : Stage → Bool
  | .returned _ => true
  | _ => false

-- The worker is through with the message before PollRetries sets the row to pending.
def overtakenPoll : List Label :=
  published ++ refused 1 0 ++ polled 2 60000000000 ++ refused 3 60000000000 ++ [.move 2 (.done 60000000000)]

theorem overtakenPoll_strands : ∃ s, Machine.run step initService overtakenPoll = some s ∧
    overtakenPoll.all Label.succeeds = true ∧ s.tasks.all Stage.isReturned = true ∧ s.shared.inFlight = [] ∧
    ∃ row ∈ s.shared.deliveries.rows, row.status = .pending ∧ attended s row.id = false := by
  have hcheck : (Machine.run step initService overtakenPoll).any (fun s =>
      s.tasks.all Stage.isReturned && s.shared.inFlight.isEmpty &&
        s.shared.deliveries.rows.any fun row => row.status = .pending && !attended s row.id) = true := by
    decide +kernel
  obtain ⟨s, hs, hstate⟩ := (Option.any_eq_true ..).mp hcheck
  simp only [Bool.and_eq_true, List.isEmpty_iff, List.any_eq_true, decide_eq_true_eq, Bool.not_eq_true'] at hstate
  obtain ⟨⟨htasks, hempty⟩, row, hrow, hpending, hattended⟩ := hstate
  exact ⟨s, hs, by decide, htasks, hempty, row, hrow, hpending, hattended⟩

end Bos3000.Webhook
