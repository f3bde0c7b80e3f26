import Bos3000.Webhook.Retries
import Bos3000.Webhook.Schedule

-- The schedule of the retries in every run: five delays, then the dead letters,
-- and one message at a time.
namespace Bos3000.Webhook

section Step

variable {s t : State} {i : Nat} {stage next : Stage} {shared : Service} {x : Answer} {ns : Int64 → Nat}

theorem scheduled_spawn (h : Scheduled s ns) (request : Request) :
    Scheduled ⟨s.shared, s.tasks ++ [request.start]⟩ ns := by
  have hstart : (∀ id, request.start.carries id = false) ∧ (∀ id, request.start.marks id = false) ∧
      request.start.subjects = [] := by
    obtain ⟨_, hstart⟩ | hstart | hstart | ⟨_, hstart⟩ | ⟨_, hstart⟩ :=
      start_cases request <;> rw [hstart] <;>
      exact ⟨fun _ => rfl, fun _ => rfl, rfl⟩
  obtain ⟨hcarries, hmarks, hsubjects⟩ := hstart
  refine ⟨fun id => ?_, fun other hother id hid => ?_, fun other hother id row hrow => ?_⟩
  · have hcarriers : carriers (s.tasks ++ [request.start]) id = carriers s.tasks id := by
      simp [carriers, List.countP_append, hcarries]
    have hmarkers : markers (s.tasks ++ [request.start]) id = markers s.tasks id := by
      simp [markers, List.countP_append, hmarks]
    have hbooked := h.booked id
    unfold State.Booked at hbooked ⊢
    rw [hcarriers, hmarkers]
    exact hbooked
  · rcases List.mem_append.mp hother with hold | hnew
    · exact h.known other hold id hid
    · rw [List.mem_singleton.mp hnew, hsubjects] at hid
      cases hid
  · rcases List.mem_append.mp hother with hold | hnew
    · exact h.expected other hold id row hrow
    · rw [List.mem_singleton.mp hnew]
      exact expects_of_free (hcarries id) (hmarks id)

-- A failure outside the worker and the updates of rows changes nothing that is shared.
theorem scheduled_fault (h : Scheduled s ns) (hstage : s.tasks[i]? = some stage) (hfault : x.isFault = true)
    (hassumed : asAssumed s (.move i x) = true) (hresume : stage.resume s.shared x = some (next, shared)) :
    Scheduled ⟨shared, s.tasks.set i next⟩ ns := by
  have hmem := List.mem_of_getElem? hstage
  have hturn : ∀ pending : List Target, ∀ id row, s.shared.deliveries.find id = some row →
      (Stage.turn pending).expects id row :=
    fun pending id _ _ => expects_of_free (carries_turn id pending) (marks_turn id pending)
  cases x with
  | fault message =>
      cases stage with
      | inserting | polling | reading =>
          cases hresume
          exact h.drop hstage rfl (fun _ => rfl) (fun _ => rfl) (fun _ _ _ hcarries => by cases hcarries)
            (fun _ hid => by cases hid) (fun _ _ _ => trivial)
      | waiting | returned => cases hresume
      | handling | resetting | marking =>
          simp only [asAssumed, hstage] at hassumed
          cases hassumed
      | fetching publisher target =>
          cases publisher with
          | createAndPublishWebhook => cases hresume
          | pollRetries pending =>
              cases hresume
              refine h.drop hstage rfl (carries_turn · pending) (marks_turn · pending)
                (fun _ _ _ hcarries => by cases hcarries) (fun id hid => ?_) (hturn pending)
              rw [subjects_turn] at hid
              exact h.known _ hmem id (List.mem_cons_of_mem _ hid)
          | retryDLQ =>
              cases hresume
              have hknown : ∀ id ∈ (Stage.fetching .retryDLQ target).subjects, _ := h.known _ hmem
              have hexpected := h.expected (.fetching .retryDLQ target) hmem
              exact h.idle hstage rfl (fun _ => rfl) (fun _ => rfl) hknown hexpected rfl rfl
      | publishing publisher e =>
          cases hresume
          have hpending : ∀ id row, s.shared.deliveries.find id = some row →
              (Stage.publishing publisher e).carries id = true → row.status = .pending := by
            intro id row hfind hcarries
            simp only [Stage.carries, Bool.and_eq_true, decide_eq_true_eq] at hcarries
            exact h.expected _ hmem id row hfind hcarries.1 hcarries.2
          cases publisher with
          | pollRetries pending =>
              refine h.drop hstage rfl (carries_turn · pending) (marks_turn · pending) hpending (fun id hid => ?_)
                (hturn pending)
              rw [Publisher.failed, subjects_turn] at hid
              exact h.known _ hmem id (List.mem_cons_of_mem _ hid)
          | createAndPublishWebhook | retryDLQ =>
              exact h.drop hstage rfl (fun _ => rfl) (fun _ => rfl) hpending (fun _ hid => by cases hid)
                (fun _ _ _ => trivial)
  | done | inserted | received | redelivered | due | secret | requestError | httpError | response => cases hfault

theorem failuresAfter_same (hstage : s.tasks[i]? = some stage)
    (hhandling : ∀ e lastError interval, stage ≠ .handling e (.scheduling lastError interval))
    (hresetting : ∀ target, stage ≠ .resetting target) :
    (fun id => failuresAfter id s (.move i x) (ns id)) = ns :=
  funext fun id => failuresAfter_other hstage hhandling hresetting id (ns id)

-- A worker's failure is one more, and the sixth one sends the row to the dead letters.
theorem scheduled_failure (h : Scheduled s ns) {e : WebhookEvent} {lastError : String} {interval : Duration}
    {now time : Time} (hstage : s.tasks[i]? = some (.handling e (.scheduling lastError interval))) :
    Scheduled ⟨{ s.shared with
        deliveries := s.shared.deliveries.update e.deliveryID (Delivery.recordFailure interval lastError now)
          (recordFailure_id interval lastError now) }, s.tasks.set i (.returned (.ok ()))⟩
      (fun id => failuresAfter id s (.move i (.done time)) (ns id)) := by
  have hown : failuresAfter e.deliveryID s (.move i (.done time)) (ns e.deliveryID) = ns e.deliveryID + 1 := by
    simp [failuresAfter, hstage]
  refine h.handledUpdate hstage (.inl rfl) (recordFailure_id interval lastError now) (fun other hother => ?_)
    (fun row hexpects hhandled => ?_) (fun _ _ => trivial)
  · simp [failuresAfter, hstage, Ne.symm hother]
  · obtain ⟨hstatus, rfl⟩ := hexpects
    obtain ⟨hbound, ⟨hpending, -⟩ | ⟨-, hattempts⟩⟩ := hhandled
    · rw [hstatus] at hpending
      cases hpending
    · rw [hown, hattempts]
      by_cases hlast : ns e.deliveryID = 5
      · simp [hlast, Delivery.recordFailure, retryIntervalForAttempt_last, Delivery.Standing, hattempts, Stage.carries]
      · have hpos := @retryIntervalForAttempt_pos (ns e.deliveryID + 1) (by omega) (by omega)
        rw [Nat.cast_add, Nat.cast_one] at hpos
        simp only [Delivery.recordFailure, if_pos hpos, Delivery.Standing, hattempts, Nat.cast_add, Nat.cast_one,
          Stage.carries, Bool.toNat_false, true_and]
        omega

theorem scheduled_move (h : Scheduled s ns) (hstage : s.tasks[i]? = some stage)
    (hassumed : asAssumed s (.move i x) = true) (hcurrent : actsOnCurrent s (.move i x) = true)
    (hresume : stage.resume s.shared x = some (next, shared)) :
    Scheduled ⟨shared, s.tasks.set i next⟩ (fun id => failuresAfter id s (.move i x) (ns id)) := by
  have hmem := List.mem_of_getElem? hstage
  have hsubjects := h.known stage hmem
  cases hfault : x.isFault with
  | true =>
      have hsame : (fun id => failuresAfter id s (.move i x) (ns id)) = ns := by
        refine failuresAfter_same hstage ?_ ?_
        · rintro e lastError interval rfl
          simp [asAssumed, hstage, hfault] at hassumed
        · rintro target rfl
          simp [asAssumed, hstage, hfault] at hassumed
      rw [hsame]
      exact scheduled_fault h hstage hfault hassumed hresume
  | false =>
      have hmoves := resume_moves hresume
      cases hmoves with
      | insert hinsert => exact h.insert hstage hinsert (failuresAfter_same hstage (by simp) (by simp))
      | @publish publisher e text hencode =>
          have hns := @failuresAfter_same s i _ x ns hstage (by simp) (by simp)
          cases publisher with
          | createAndPublishWebhook | retryDLQ => exact h.publishOwn hstage hencode rfl hns
          | pollRetries pending =>
              simp only [actsOnCurrent, hstage, hfault, Bool.false_or, Bool.and_eq_true, Bool.not_eq_true',
                Option.all_eq_true, decide_eq_true_eq] at hcurrent
              have hmarkers : markers s.tasks e.deliveryID = 0 := by
                rw [markers, List.countP_eq_zero]
                simpa using hcurrent.2
              exact h.publishPolled hstage hencode hcurrent.1 hmarkers hns
      | @receive k text e hx htext hdecode =>
          subst hx
          have hmarkers : markers s.tasks e.deliveryID = 0 := by
            rw [markers, List.countP_eq_zero]
            simpa [asAssumed, hstage, htext, hdecode] using hassumed
          exact h.receive hstage htext hdecode hmarkers (failuresAfter_same hstage (by simp) (by simp))
      | redeliver hx =>
          subst hx
          simp [asAssumed, hstage] at hassumed
      | begin e =>
          rw [failuresAfter_same hstage (by simp) (by simp)]
          refine h.handledUpdate hstage (.inr rfl) beginAttempt_id (fun _ _ => rfl) (fun row hexpects hhandled => ?_)
            (fun _ _ _ => rfl)
          have hpending : row.status = .pending := hexpects
          obtain ⟨hbound, ⟨-, hattempts⟩ | ⟨hdelivering, -⟩⟩ := hhandled
          · simp [Delivery.Standing, Delivery.beginAttempt, hattempts, hbound, Stage.carries]
          · rw [hpending] at hdelivering
            cases hdelivering
      | post e | accept e =>
          exact h.idle hstage (failuresAfter_same hstage (by simp) (by simp)) (fun _ => rfl) (fun _ => rfl)
            (fun id hid => hsubjects id hid) (fun id row hrow => h.expected _ hmem id row hrow) rfl rfl
      | @refuse e phase lastError hphase hx =>
          have hns : (fun id => failuresAfter id s (.move i x) (ns id)) = ns := by
            obtain rfl | rfl := hphase <;> exact failuresAfter_same hstage (by simp) (by simp)
          refine h.idle hstage hns (fun _ => rfl) (fun _ => rfl) (fun id hid => hsubjects id hid)
            (fun id row hrow => ?_)
            rfl rfl
          obtain rfl | rfl := hphase <;> exact h.expected _ hmem id row hrow
      | record e now hx =>
          rw [failuresAfter_same hstage (by simp) (by simp)]
          refine h.handledUpdate hstage (.inl rfl) (recordDelivered_id now) (fun _ _ => rfl)
            (fun row hexpects hhandled => ?_) (fun _ _ => trivial)
          have hdelivering : row.status = .delivering := hexpects
          obtain ⟨hbound, ⟨hpending, -⟩ | ⟨-, hattempts⟩⟩ := hhandled
          · rw [hdelivering] at hpending
            cases hpending
          · simp [Delivery.Standing, Delivery.recordDelivered, hattempts, hbound, Stage.carries]
      | @count e lastError row hfind =>
          refine h.idle hstage (failuresAfter_same hstage (by simp) (by simp)) (fun _ => rfl) (fun _ => rfl)
            (fun id hid => hsubjects id hid) (fun id other hother hid => ?_) rfl rfl
          subst hid
          cases hfind.symm.trans hother
          exact ⟨h.expected _ hmem _ _ hfind rfl, rfl⟩
      | missing e lastError hfind =>
          obtain ⟨row, hrow⟩ := h.known _ hmem e.deliveryID (List.mem_singleton_self _)
          cases hfind.symm.trans hrow
      | schedule e lastError interval now =>
          obtain ⟨time, rfl⟩ : ∃ time, x = .done time := by
            obtain ⟨_, hexec, -⟩ := Option.map_eq_some_iff.mp hresume
            obtain ⟨_, hexec, -⟩ := Option.map_eq_some_iff.mp hexec
            obtain ⟨time, hx, -⟩ | ⟨hx, -⟩ := exec_eq_some.mp hexec
            · exact ⟨time, hx⟩
            · rw [hfault] at hx
              cases hx
          exact scheduled_failure h hstage
      | poll rows hrows =>
          refine h.drop hstage (failuresAfter_same hstage (by simp) (by simp)) (carries_turn · _) (marks_turn · _)
            (fun _ _ _ hcarries => by cases hcarries) (fun id hid => ?_)
            (fun id _ _ => expects_of_free (carries_turn id _) (marks_turn id _))
          rw [subjects_turn, List.map_map, List.mem_map] at hid
          obtain ⟨row, hrow, rfl⟩ := hid
          exact ⟨row, (Table.find_eq_some).mpr ⟨(hrows row hrow).1, rfl⟩⟩
      | fetch publisher target secret =>
          exact h.idle hstage (failuresAfter_same hstage (by simp) (by simp)) (fun _ => rfl) (fun _ => rfl)
            (fun id hid => hsubjects id hid) (fun id row hrow => h.expected _ hmem id row hrow) rfl rfl
      | mark id pending now hx => exact h.mark hstage (failuresAfter_same hstage (by simp) (by simp))
      | @read id row hfind hdlq =>
          refine h.drop hstage (failuresAfter_same hstage (by simp) (by simp)) (fun _ => rfl) (fun _ => rfl)
            (fun _ _ _ hcarries => by cases hcarries) (fun other hother => ?_) (fun _ _ _ => trivial)
          rw [List.mem_singleton.mp hother]
          exact ⟨row, Table.find_eq_some.mpr ⟨(Table.find_eq_some.mp hfind).1, rfl⟩⟩
      | reset target now hx =>
          subst hx
          simp only [actsOnCurrent, hstage, Option.all_eq_true, decide_eq_true_eq] at hcurrent
          refine h.reset hstage hcurrent ?_ fun other hother => ?_
          · simp [failuresAfter, hstage]
          · simp [failuresAfter, hstage, Ne.symm hother]
      | ignoreBegin _ hx | ignoreReset _ hx | skip _ _ hx =>
          rw [hfault] at hx
          cases hx
      | fail stage outcome hx =>
          obtain hx | ⟨id, rfl⟩ := hx
          · rw [hfault] at hx
            cases hx
          · exact h.drop hstage (failuresAfter_same hstage (by simp) (by simp)) (fun _ => rfl) (fun _ => rfl)
              (fun _ _ _ hcarries => by cases hcarries) (fun _ hid => by cases hid) (fun _ _ _ => trivial)

theorem scheduled_step {l : Label} (h : Scheduled s ns) (hassumed : asAssumed s l = true)
    (hcurrent : actsOnCurrent s l = true) (hstep : step s l = some t) :
    Scheduled t (fun id => failuresAfter id s l (ns id)) := by
  cases l with
  | spawn request =>
      cases hstep
      exact scheduled_spawn h request
  | move i x =>
      obtain ⟨stage, next, shared, hstage, hresume, rfl⟩ := Pool.step_move.mp hstep
      exact scheduled_move h hstage hassumed hcurrent hresume

end Step

theorem scheduled_init : Scheduled initService fun _ => 0 where
  booked := fun _ => ⟨rfl, rfl, rfl, rfl⟩
  known := fun _ hstage => by cases hstage
  expected := fun _ hstage => by cases hstage

theorem scheduled_run {s t : State} {ns : Int64 → Nat} {labels : List Label} (h : Scheduled s ns)
    (hrun : Machine.run (Machine.restrict (fun s l => asAssumed s l && actsOnCurrent s l) step) s labels = some t) :
    Scheduled t fun id => failuresAlong id s (ns id) labels := by
  induction labels generalizing s ns with
  | nil =>
      cases hrun
      exact h
  | cons l rest ih =>
      obtain ⟨next, hfirst, hrest⟩ := Option.bind_eq_some_iff.mp hrun
      obtain ⟨hallowed, hstep⟩ := Machine.restrict_eq_some.mp hfirst
      rw [Bool.and_eq_true] at hallowed
      have hlast := ih (scheduled_step h hallowed.1 hallowed.2 hstep) hrest
      simp only [failuresAlong, hstep]
      exact hlast

-- 30 s, 1 min, 5 min, 15 min and 1 h.
def delays : List Int := [30, 60, 300, 900, 3600]

-- The row after another failure at a time: the next delay, or the dead letters.
def Delivery.FailedAgain (row : Delivery) (n : Nat) (now : Time) : Prop :=
  match delays[n]? with
  | some delay => row.status = .retrying ∧ row.nextRetryAt = some (now + delay * second.toInt)
  | none => row.status = .dlq

structure FollowsSchedule (s : State) (failures : Int64 → Nat) : Prop where
  attempts : ∀ row ∈ s.shared.deliveries.rows, 0 ≤ row.attemptCount ∧ row.attemptCount ≤ 6 ∧
    (row.status = .retrying → 1 ≤ row.attemptCount ∧ row.attemptCount ≤ 5) ∧
    (row.status = .dlq → row.attemptCount = 6)
  oneMessage : ∀ id, messages s.shared.inFlight id ≤ 1
  -- an attempt that does not bring a 2xx ends in the update for one more failure
  refused : ∀ i e x t, s.tasks[i]? = some (.handling e .posting) ∨ s.tasks[i]? = some (.handling e .awaiting) →
    x.accepts = false → (∀ now, x ≠ .done now) → step s (.move i x) = some t →
    ∃ lastError, t.tasks[i]? = some (.handling e (.counting lastError))
  counted : ∀ i e lastError x t, s.tasks[i]? = some (.handling e (.counting lastError)) → x.isFault = false →
    step s (.move i x) = some t → ∃ interval, t.tasks[i]? = some (.handling e (.scheduling lastError interval))
  failed : ∀ i e lastError interval now t, s.tasks[i]? = some (.handling e (.scheduling lastError interval)) →
    step s (.move i (.done now)) = some t → failures e.deliveryID ≤ 5 ∧
    ∃ row, t.shared.deliveries.find e.deliveryID = some row ∧ row.FailedAgain (failures e.deliveryID) now
  accepted : ∀ i e x t, s.tasks[i]? = some (.handling e .awaiting) → x.accepts = true →
    step s (.move i x) = some t → t.tasks[i]? = some (.handling e .recording)
  delivered : ∀ i e now t, s.tasks[i]? = some (.handling e .recording) → step s (.move i (.done now)) = some t →
    ∃ row, t.shared.deliveries.find e.deliveryID = some row ∧ row.status = .delivered

theorem delays_eq {n : Nat} (hn : n < 5) :
    delays[n]? = some (seconds (retryIntervalForAttempt ((n : Int) + 1))).toInt := by
  interval_cases n <;> decide

theorem failedAgain_recordFailure {row : Delivery} {n : Nat} (hbound : n ≤ 5) (hattempts : row.attemptCount = n + 1)
    (lastError : String) (now : Time) :
    (row.recordFailure (retryIntervalForAttempt row.attemptCount) lastError now).FailedAgain n now := by
  rw [hattempts]
  by_cases hlast : n = 5
  · subst hlast
    exact rfl
  · have hpos := @retryIntervalForAttempt_pos (n + 1) (by omega) (by omega)
    rw [Nat.cast_add, Nat.cast_one] at hpos
    simp [Delivery.FailedAgain, delays_eq (show n < 5 by omega), Delivery.recordFailure, hpos]

theorem Scheduled.attempts {s : State} {ns : Int64 → Nat} (h : Scheduled s ns) {row : Delivery}
    (hrow : row ∈ s.shared.deliveries.rows) : 0 ≤ row.attemptCount ∧ row.attemptCount ≤ 6 ∧
      (row.status = .retrying → 1 ≤ row.attemptCount ∧ row.attemptCount ≤ 5) ∧
      (row.status = .dlq → row.attemptCount = 6) := by
  have hstanding := h.standing (Table.find_eq_some.mpr ⟨hrow, rfl⟩)
  simp only [Delivery.Standing] at hstanding
  cases hstatus : row.status <;> simp only [hstatus] at hstanding <;> simp <;> omega

theorem Scheduled.messages_le {s : State} {ns : Int64 → Nat} (h : Scheduled s ns) (id : Int64) :
    messages s.shared.inFlight id ≤ 1 := by
  have hbooked := h.booked id
  unfold State.Booked at hbooked
  cases hfind : s.shared.deliveries.find id with
  | none =>
      simp only [hfind] at hbooked
      omega
  | some row =>
      simp only [hfind, Delivery.Standing] at hbooked
      cases hstatus : row.status <;> simp only [hstatus] at hbooked <;> omega

-- What a step of a worker makes of its stage, and of the row it handles.
theorem handling_step {s t : State} {i : Nat} {e : WebhookEvent} {phase : Phase} {x : Answer}
    (hstage : s.tasks[i]? = some (.handling e phase)) (hstep : step s (.move i x) = some t) :
    ∃ phase' shared, deliverWebhook s.shared e phase x = some (phase', shared) ∧ t.shared = shared ∧
      t.tasks[i]? = some (phase'.elim (.returned (.ok ())) (.handling e)) := by
  obtain ⟨stage, next, shared, hsome, hresume, rfl⟩ := Pool.step_move.mp hstep
  rw [hstage] at hsome
  cases hsome
  obtain ⟨⟨phase', _⟩, hdeliver, heq⟩ := Option.map_eq_some_iff.mp hresume
  cases heq
  obtain ⟨hi, -⟩ := List.getElem?_eq_some_iff.mp hstage
  exact ⟨phase', shared, hdeliver, rfl, by simp [hi]⟩

theorem Scheduled.followsSchedule {s : State} {ns : Int64 → Nat} (h : Scheduled s ns) : FollowsSchedule s ns where
  attempts := fun _ hrow => h.attempts hrow
  oneMessage := h.messages_le
  refused := by
    intro i e x t hstage hrefused hdone hstep
    obtain hstage | hstage := hstage <;> obtain ⟨phase, shared, hdeliver, -, hnext⟩ := handling_step hstage hstep
    · cases x with
      | done now => exact absurd rfl (hdone now)
      | requestError message =>
          cases hdeliver
          exact ⟨_, hnext⟩
      | _ => cases hdeliver
    · cases x with
      | httpError message =>
          cases hdeliver
          exact ⟨_, hnext⟩
      | response statusCode body =>
          simp only [Answer.accepts, decide_eq_false_iff_not] at hrefused
          simp only [deliverWebhook, if_neg hrefused] at hdeliver
          cases hdeliver
          exact ⟨_, hnext⟩
      | _ => cases hdeliver
  counted := by
    intro i e lastError x t hstage hfault hstep
    obtain ⟨phase, shared, hdeliver, -, hnext⟩ := handling_step hstage hstep
    obtain ⟨row, hfind⟩ := h.known _ (List.mem_of_getElem? hstage) e.deliveryID (List.mem_singleton_self _)
    cases x with
    | done now =>
        simp only [deliverWebhook, hfind] at hdeliver
        cases hdeliver
        exact ⟨_, hnext⟩
    | fault message => cases hfault
    | _ => cases hdeliver
  failed := by
    intro i e lastError interval now t hstage hstep
    obtain ⟨row, hfind, ⟨hstatus, hinterval⟩, -, -, -, hbound, ⟨hpending, -⟩ | ⟨-, hattempts⟩⟩ :=
      h.handled hstage
    · rw [hstatus] at hpending
      cases hpending
    · obtain ⟨phase, shared, hdeliver, hshared, -⟩ := handling_step hstage hstep
      cases hdeliver
      refine ⟨hbound, row.recordFailure interval lastError now, ?_, ?_⟩
      · rw [hshared]
        simp [Table.find_update, hfind]
      · rw [hinterval]
        exact failedAgain_recordFailure hbound hattempts lastError now
  accepted := by
    intro i e x t hstage haccepts hstep
    obtain ⟨phase, shared, hdeliver, -, hnext⟩ := handling_step hstage hstep
    cases x with
    | response statusCode body =>
        simp only [Answer.accepts, decide_eq_true_eq] at haccepts
        simp only [deliverWebhook, if_pos haccepts] at hdeliver
        cases hdeliver
        exact hnext
    | _ => cases haccepts
  delivered := by
    intro i e now t hstage hstep
    obtain ⟨row, hfind, -⟩ := h.handled hstage
    obtain ⟨phase, shared, hdeliver, hshared, -⟩ := handling_step hstage hstep
    cases hdeliver
    refine ⟨row.recordDelivered now, ?_, rfl⟩
    rw [hshared]
    simp [Table.find_update, hfind]

-- Unless two polls, or two requests of RetryDLQ, have the same row in hand, every
-- delivery is retried by the schedule, with one message at a time.
theorem schedule_followed {labels : List Label} {s : State}
    (hrun : Machine.run (Machine.restrict (fun s l => asAssumed s l && actsOnCurrent s l) step) initService labels =
      some s) : FollowsSchedule s fun id => failuresAlong id initService 0 labels :=
  (scheduled_run scheduled_init hrun).followsSchedule

theorem schedule_followed_retry : ∃ s, Machine.run (Machine.restrict (fun s l => asAssumed s l && actsOnCurrent s l)
    step) initService (published ++ refused 1 0 ++ polled 2 30000000000 ++ [.move 2 (.done 30000000000)] ++
      refused 3 30000000000) = some s ∧
    FollowsSchedule s fun id => failuresAlong id initService 0 (published ++ refused 1 0 ++ polled 2 30000000000 ++
      [.move 2 (.done 30000000000)] ++ refused 3 30000000000) := by
  obtain ⟨s, hs⟩ := Option.isSome_iff_exists.mp (show (Machine.run (Machine.restrict
    (fun s l => asAssumed s l && actsOnCurrent s l) step) initService (published ++ refused 1 0 ++
      polled 2 30000000000 ++ [.move 2 (.done 30000000000)] ++ refused 3 30000000000)).isSome = true by
    decide +kernel)
  exact ⟨s, hs, schedule_followed hs⟩

-- Two polls select the row, and each publishes and updates it in its turn.
def overlappingPolls : List Label :=
  published ++ refused 1 0 ++
    [.spawn .pollRetries, .spawn .pollRetries, .move 2 (.due 30000000000 [refusedOnce]),
     .move 3 (.due 30000000000 [refusedOnce]), .move 2 (.secret ""), .move 2 (.done 30000000000),
     .move 2 (.done 30000000000), .move 3 (.secret ""), .move 3 (.done 30000000000), .move 3 (.done 30000000000)]

theorem not_followsSchedule_overlappingPolls : ∃ s,
    Machine.run (Machine.restrict asAssumed step) initService overlappingPolls = some s ∧
      ¬ FollowsSchedule s fun id => failuresAlong id initService 0 overlappingPolls := by
  have hcheck : (Machine.run (Machine.restrict asAssumed step) initService overlappingPolls).any (fun s =>
      messages s.shared.inFlight 1 = 2) = true := by
    decide +kernel
  obtain ⟨s, hs, htwo⟩ := (Option.any_eq_true ..).mp hcheck
  refine ⟨s, hs, fun hfollows => ?_⟩
  have hone := hfollows.oneMessage 1
  rw [of_decide_eq_true htwo] at hone
  omega

end Bos3000.Webhook
