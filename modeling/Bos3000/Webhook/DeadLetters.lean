import Bos3000.Webhook.Retries
import Bos3000.Webhook.Schedule
import Mathlib.Logic.Function.Basic

-- Whether an operation that returns an error has lost a delivery, and how often
-- RetryDLQ publishes one that is in the dead letters.
namespace Bos3000.Webhook

def Service.isDead (s : Service) (id : Int64) : Bool :=
  (s.deliveries.find id).any fun row => row.status = .dlq

-- What the executions have done: the delivery that each has inserted or reset, how
-- often each delivery has entered the dead letters, the stay there in which each
-- RetryDLQ came to reset it, and the messages of RetryDLQ with their stays.
structure History where
  inserted : Nat → Option Int64
  reset : Nat → Option Int64
  entered : Int64 → Nat
  stay : Nat → Nat
  sent : List (Int64 × Nat)

def initHistory : History := ⟨fun _ => none, fun _ => none, fun _ => 0, fun _ => 0, []⟩

def History.record (h : History) (x : Answer) (i : Nat) (stage : Stage) : History :=
  match stage, x with
  | .inserting _, .inserted id _ _ => { h with inserted := Function.update h.inserted i (some id) }
  | .resetting target, .done _ =>
      { h with
        reset := Function.update h.reset i (some target.id)
        stay := Function.update h.stay i (h.entered target.id) }
  | .resetting target, .fault _ => { h with stay := Function.update h.stay i (h.entered target.id) }
  | .publishing .retryDLQ e, .done _ => { h with sent := (e.deliveryID, h.stay i) :: h.sent }
  | _, _ => h

-- The deliveries that a step takes into the dead letters.
def History.enter (h : History) (s t : Service) : History :=
  { h with entered := fun id => if !s.isDead id && t.isDead id then h.entered id + 1 else h.entered id }

def History.next (h : History) (s t : State) : Label → History
  | .spawn _ =>
      { h with
        inserted := Function.update h.inserted s.tasks.length none
        reset := Function.update h.reset s.tasks.length none }
  | .move i x => ((s.tasks[i]?).elim h (h.record x i)).enter s.shared t.shared

def trackedStep (w : State × History) (l : Label) : Option (State × History) :=
  (step w.1 l).map fun t => (t, w.2.next w.1 t l)

-- A row inserted by a CreateAndPublishWebhook that failed will be picked up, one that
-- a RetryDLQ that failed has reset is still in the dead letters, and RetryDLQ
-- publishes one message for each stay there.
structure Atomic (s : State) (h : History) : Prop where
  created : ∀ i e id, s.tasks[i]? = some (.returned (.error e)) → h.inserted i = some id →
    ∃ row, s.shared.deliveries.find id = some row ∧ (row.status = .retrying ∨ row.status = .dlq)
  dead : ∀ i e id, s.tasks[i]? = some (.returned (.error e)) → h.reset i = some id → s.shared.isDead id = true
  once : h.sent.Nodup

-- CreateAndPublishWebhook and RetryDLQ get their message published, and RetryDLQ
-- resets a row that is still in the dead letters.
def completes (s : State) : Label → Bool
  | .spawn _ => true
  | .move i x =>
      match s.tasks[i]? with
      | some (.publishing publisher _) => !publisher.owns || !x.isFault
      | some (.resetting target) => !x.isFault && s.shared.isDead target.id
      | _ => true

-- The row that RetryDLQ has reset and is about to publish.
def Stage.retries : Stage → Option Int64
  | .fetching .retryDLQ target => some target.id
  | .publishing .retryDLQ e => some e.deliveryID
  | _ => none

-- It may have inserted or reset a row.
def Stage.mayHaveWritten : Stage → Bool
  | .fetching _ _ | .publishing _ _ | .marking _ _ | .handling _ _ | .returned (.ok ()) => true
  | _ => false

section Move

variable {s t : Service} {x : Answer} {stage next : Stage}

theorem retries_turn (pending : List Target) : (Stage.turn pending).retries = none := by
  cases pending <;> rfl

theorem Moves.retries (h : Moves s x stage next t) {id : Int64} (hnext : next.retries = some id) :
    stage.retries = some id ∨ ∃ target, stage = .resetting target ∧ target.id = id := by
  cases h with
  | publish publisher => cases publisher <;> cases hnext
  | fetch publisher target secret =>
      cases publisher with
      | retryDLQ => exact .inl hnext
      | createAndPublishWebhook | pollRetries => cases hnext
  | poll | mark | skip =>
      rw [retries_turn] at hnext
      cases hnext
  | reset target | ignoreReset target => exact .inr ⟨target, rfl, Option.some.inj hnext⟩
  | insert | receive | redeliver | begin | post | accept | refuse | record | count | missing | schedule | read
  | ignoreBegin | fail => cases hnext

-- An execution that returns an error has written nothing, unless Publish failed.
theorem mayHaveWritten_resume (hresume : stage.resume s x = some (next, t)) (hnext : next.mayHaveWritten = false) :
    stage.mayHaveWritten = false ∧
        (∀ id payload now, x = .inserted id payload now → ∀ new, stage ≠ .inserting new) ∧
        (∀ target, stage ≠ .resetting target) ∨
      ∃ publisher e, stage = .publishing publisher e ∧ publisher.owns = true ∧ x.isFault = true := by
  cases stage with
  | inserting new =>
      cases x with
      | fault message => exact .inl ⟨rfl, by simp, by simp⟩
      | inserted id payload now =>
          obtain ⟨_, _, heq⟩ := Option.map_eq_some_iff.mp hresume
          cases heq
          cases hnext
      | _ => cases hresume
  | waiting | polling | reading => exact .inl ⟨rfl, by simp, by simp⟩
  | handling e phase =>
      obtain ⟨⟨phase', _⟩, _, heq⟩ := Option.map_eq_some_iff.mp hresume
      cases heq
      cases phase' <;> cases hnext
  | resetting target =>
      obtain ⟨_, _, heq⟩ := Option.map_eq_some_iff.mp hresume
      cases heq
      cases hnext
  | fetching publisher target =>
      cases x with
      | secret secret => cases publisher <;> cases hresume <;> cases hnext
      | fault message =>
          cases publisher with
          | createAndPublishWebhook => cases hresume
          | pollRetries pending =>
              cases hresume
              cases pending <;> cases hnext
          | retryDLQ =>
              cases hresume
              cases hnext
      | _ => cases publisher <;> cases hresume
  | publishing publisher e =>
      cases x with
      | done now =>
          obtain ⟨_, _, heq⟩ := Option.map_eq_some_iff.mp hresume
          cases heq
          cases publisher <;> cases hnext
      | fault message =>
          cases publisher with
          | createAndPublishWebhook | retryDLQ => exact .inr ⟨_, e, rfl, rfl, rfl⟩
          | pollRetries pending =>
              cases hresume
              cases pending <;> cases hnext
      | _ => cases hresume
  | marking id pending =>
      obtain ⟨_, _, heq⟩ := Option.map_eq_some_iff.mp hresume
      cases heq
      cases pending <;> cases hnext
  | returned outcome => cases x <;> cases hresume

end Move

section Run

variable {s t : State} {h h' : History} {l : Label}

-- A stay that RetryDLQ has taken up is one that the delivery has entered, and has
-- left again.
def History.Past (h : History) (s : Service) (id : Int64) (stay : Nat) : Prop :=
  stay ≤ h.entered id ∧ (s.isDead id = true → stay < h.entered id)

structure Kept (s : State) (h : History) : Prop where
  unwritten : ∀ i stage, s.tasks[i]? = some stage → stage.mayHaveWritten = false →
    h.inserted i = none ∧ h.reset i = none
  sent : ∀ id stay, (id, stay) ∈ h.sent → h.Past s.shared id stay
  retried : ∀ i stage id, s.tasks[i]? = some stage → stage.retries = some id →
    h.Past s.shared id (h.stay i) ∧ (id, h.stay i) ∉ h.sent
  distinct : ∀ i j stage other id, i ≠ j → s.tasks[i]? = some stage → s.tasks[j]? = some other →
    stage.retries = some id → other.retries = some id → h.stay i ≠ h.stay j
  once : h.sent.Nodup

@[simp] theorem record_entered (h : History) (x : Answer) (i : Nat) (stage : Stage) :
    (h.record x i stage).entered = h.entered := by
  unfold History.record
  split <;> rfl

theorem record_other (h : History) (x : Answer) {i j : Nat} (hj : j ≠ i) (stage : Stage) :
    (h.record x i stage).inserted j = h.inserted j ∧ (h.record x i stage).reset j = h.reset j ∧
      (h.record x i stage).stay j = h.stay j := by
  unfold History.record
  split <;> simp [Function.update_of_ne hj]

theorem record_unwritten (h : History) {x : Answer} (i : Nat) {stage : Stage}
    (hinserting : ∀ id payload now, x = .inserted id payload now → ∀ new, stage ≠ .inserting new)
    (hresetting : ∀ target, stage ≠ .resetting target) :
    (h.record x i stage).inserted i = h.inserted i ∧ (h.record x i stage).reset i = h.reset i := by
  unfold History.record
  split
  · exact absurd rfl (hinserting _ _ _ rfl _)
  · exact absurd rfl (hresetting _)
  · exact absurd rfl (hresetting _)
  · exact ⟨rfl, rfl⟩
  · exact ⟨rfl, rfl⟩

-- A stay that was taken up is not the one that a delivery enters next.
theorem past_enter {shared next : Service} {id : Int64} {stay : Nat} (hpast : h.Past shared id stay)
    (hentered : h'.entered = h.entered) : (h'.enter shared next).Past next id stay := by
  obtain ⟨hle, hlt⟩ := hpast
  unfold History.Past History.enter
  rw [hentered]
  cases hbefore : shared.isDead id with
  | true =>
      have hless := hlt hbefore
      simp only [hbefore, Bool.not_true, Bool.false_and, Bool.false_eq_true, if_false]
      exact ⟨hle, fun _ => hless⟩
  | false => cases hafter : next.isDead id <;> simp [hbefore, hafter] <;> omega

variable {i : Nat} {x : Answer} {stage next : Stage} {shared : Service}

theorem Kept.unwritten_move (hkept : Kept s h) (hstage : s.tasks[i]? = some stage)
    (hcompletes : completes s (.move i x) = true) (hresume : stage.resume s.shared x = some (next, shared)) :
    ∀ j other, (s.tasks.set i next)[j]? = some other → other.mayHaveWritten = false →
      (h.record x i stage).inserted j = none ∧ (h.record x i stage).reset j = none := by
  intro j other hother hwritten
  obtain ⟨rfl, rfl⟩ | ⟨hj, hsome⟩ := Pool.getElem?_set_cases hother
  · obtain ⟨hbefore, hinserting, hresetting⟩ | ⟨publisher, e, rfl, howns, hfault⟩ :=
      mayHaveWritten_resume hresume hwritten
    · obtain ⟨hinserted, hreset⟩ := record_unwritten h j hinserting hresetting
      rw [hinserted, hreset]
      exact hkept.unwritten j stage hstage hbefore
    · simp [completes, hstage, howns, hfault] at hcompletes
  · obtain ⟨hinserted, hreset, -⟩ := record_other h x hj stage
    rw [hinserted, hreset]
    exact hkept.unwritten j other hsome hwritten

-- Who is about to publish for RetryDLQ was so before.
theorem retries_before (hstage : s.tasks[i]? = some stage)
    (hretries : ∀ id, next.retries = some id → stage.retries = some id) {j : Nat} {other : Stage} {id : Int64}
    (hother : (s.tasks.set i next)[j]? = some other) (hid : other.retries = some id) :
    ∃ before, s.tasks[j]? = some before ∧ before.retries = some id := by
  obtain ⟨rfl, rfl⟩ | ⟨-, hsome⟩ := Pool.getElem?_set_cases hother
  · exact ⟨stage, hstage, hretries id hid⟩
  · exact ⟨other, hsome, hid⟩

-- A move that neither resets a row nor publishes for RetryDLQ.
theorem Kept.move_aside (hkept : Kept s h) (hstage : s.tasks[i]? = some stage)
    (hunwritten : ∀ j other, (s.tasks.set i next)[j]? = some other → other.mayHaveWritten = false →
      h'.inserted j = none ∧ h'.reset j = none)
    (hretries : ∀ id, next.retries = some id → stage.retries = some id)
    (hentered : h'.entered = h.entered) (hstay : h'.stay = h.stay) (hsent : h'.sent = h.sent) :
    Kept ⟨shared, s.tasks.set i next⟩ (h'.enter s.shared shared) where
  unwritten := hunwritten
  sent := by
    intro id stay (hmem : (id, stay) ∈ h'.sent)
    rw [hsent] at hmem
    exact past_enter (hkept.sent id stay hmem) hentered
  retried := by
    intro j other id hother hid
    obtain ⟨before, hbefore, hid'⟩ := retries_before hstage hretries hother hid
    obtain ⟨hpast, hnot⟩ := hkept.retried j before id hbefore hid'
    rw [← hstay] at hpast hnot
    rw [← hsent] at hnot
    exact ⟨past_enter hpast hentered, hnot⟩
  distinct := by
    intro j k first second id hjk hfirst hsecond hfirst' hsecond'
    obtain ⟨_, hj, hjid⟩ := retries_before hstage hretries hfirst hfirst'
    obtain ⟨_, hk, hkid⟩ := retries_before hstage hretries hsecond hsecond'
    have hne := hkept.distinct j k _ _ id hjk hj hk hjid hkid
    rw [← hstay] at hne
    exact hne
  once := by
    have honce := hkept.once
    rw [← hsent] at honce
    exact honce

-- RetryDLQ resets a row that is in the dead letters.
theorem Kept.move_reset (hkept : Kept s h) {target : Target} {now : Time}
    (hstage : s.tasks[i]? = some (.resetting target)) (hdead : s.shared.isDead target.id = true)
    (hleft : shared.isDead target.id = false)
    (hunwritten : ∀ j other, (s.tasks.set i (.fetching .retryDLQ target))[j]? = some other →
      other.mayHaveWritten = false → (h.record (.done now) i (.resetting target)).inserted j = none ∧
        (h.record (.done now) i (.resetting target)).reset j = none) :
    Kept ⟨shared, s.tasks.set i (.fetching .retryDLQ target)⟩
      ((h.record (.done now) i (.resetting target)).enter s.shared shared) where
  unwritten := hunwritten
  sent := fun id stay hmem => past_enter (hkept.sent id stay hmem) rfl
  retried := by
    intro j other id hother hid
    obtain ⟨rfl, rfl⟩ | ⟨hj, hsome⟩ := Pool.getElem?_set_cases hother
    · cases hid
      have hstay : ((h.record (.done now) j (.resetting target)).enter s.shared shared).stay j =
          h.entered target.id := by
        simp [History.record, History.enter]
      rw [hstay]
      refine ⟨⟨?_, fun hdead' => ?_⟩, fun hmem => ?_⟩
      · simp [History.enter, hdead]
      · rw [hleft] at hdead'
        cases hdead'
      · have hless := (hkept.sent _ _ hmem).2 hdead
        exact absurd hless (lt_irrefl _)
    · obtain ⟨hpast, hnot⟩ := hkept.retried j other id hsome hid
      have hstay := (record_other h (.done now) hj (.resetting target)).2.2
      rw [← hstay] at hpast hnot
      exact ⟨past_enter hpast rfl, hnot⟩
  distinct := by
    -- the stay taken up last is later than those taken up before it
    have hlater : ∀ j other, j ≠ i → s.tasks[j]? = some other → other.retries = some target.id →
        (h.record (.done now) i (.resetting target)).stay j < (h.record (.done now) i (.resetting target)).stay i := by
      intro j other hj hsome hid
      rw [(record_other h (.done now) hj (.resetting target)).2.2]
      have hless := (hkept.retried j other target.id hsome hid).1.2 hdead
      simpa [History.record] using hless
    intro j k first second id hjk hfirst hsecond hfirst' hsecond'
    obtain ⟨rfl, rfl⟩ | ⟨hj, hj'⟩ := Pool.getElem?_set_cases hfirst <;>
      obtain ⟨rfl, rfl⟩ | ⟨hk, hk'⟩ := Pool.getElem?_set_cases hsecond
    · exact absurd rfl hjk
    · cases hfirst'
      exact (hlater k second hk hk' hsecond').ne'
    · cases hsecond'
      exact (hlater j first hj hj' hfirst').ne
    · have hne := hkept.distinct j k first second id hjk hj' hk' hfirst' hsecond'
      rw [← (record_other h (.done now) hj (.resetting target)).2.2,
        ← (record_other h (.done now) hk (.resetting target)).2.2] at hne
      exact hne
  once := hkept.once

-- RetryDLQ publishes the message of the stay that it took up.
theorem Kept.move_publish (hkept : Kept s h) {e : WebhookEvent} {now : Time}
    (hstage : s.tasks[i]? = some (.publishing .retryDLQ e)) (hretries : next.retries = none)
    (hunwritten : ∀ j other, (s.tasks.set i next)[j]? = some other → other.mayHaveWritten = false →
      (h.record (.done now) i (.publishing .retryDLQ e)).inserted j = none ∧
        (h.record (.done now) i (.publishing .retryDLQ e)).reset j = none) :
    Kept ⟨shared, s.tasks.set i next⟩
      ((h.record (.done now) i (.publishing .retryDLQ e)).enter s.shared shared) where
  unwritten := hunwritten
  sent := by
    intro id stay hmem
    obtain heq | hold := List.mem_cons.mp hmem
    · cases heq
      exact past_enter (hkept.retried i _ _ hstage rfl).1 rfl
    · exact past_enter (hkept.sent id stay hold) rfl
  retried := by
    intro j other id hother hid
    obtain ⟨rfl, rfl⟩ | ⟨hj, hsome⟩ := Pool.getElem?_set_cases hother
    · rw [hretries] at hid
      cases hid
    · obtain ⟨hpast, hnot⟩ := hkept.retried j other id hsome hid
      refine ⟨past_enter hpast rfl, fun hmem => ?_⟩
      obtain heq | hold := List.mem_cons.mp hmem
      · obtain ⟨rfl, hstay⟩ := Prod.mk.inj heq
        exact hkept.distinct j i other _ e.deliveryID hj hsome hstage hid rfl hstay
      · exact hnot hold
  distinct := by
    intro j k first second id hjk hfirst hsecond hfirst' hsecond'
    have hnone : ∀ id, next.retries = some id → (Stage.publishing .retryDLQ e).retries = some id := by
      intro id hid
      rw [hretries] at hid
      cases hid
    obtain ⟨_, hj, hjid⟩ := retries_before hstage hnone hfirst hfirst'
    obtain ⟨_, hk, hkid⟩ := retries_before hstage hnone hsecond hsecond'
    exact hkept.distinct j k _ _ id hjk hj hk hjid hkid
  once := List.nodup_cons.mpr ⟨(hkept.retried i _ _ hstage rfl).2, hkept.once⟩

theorem isDead_update (service : Service) (id : Int64) {assign : Delivery → Delivery}
    (hassign : ∀ row, (assign row).id = row.id) (hstatus : ∀ row, (assign row).status ≠ .dlq) :
    Service.isDead { service with deliveries := service.deliveries.update id assign hassign } id = false := by
  simp only [Service.isDead, Table.find_update, Option.any_map, Option.any_eq_false]
  simp [hstatus]

theorem kept_move (hkept : Kept s h) (hstage : s.tasks[i]? = some stage)
    (hcompletes : completes s (.move i x) = true) (hresume : stage.resume s.shared x = some (next, shared)) :
    Kept ⟨shared, s.tasks.set i next⟩ ((h.record x i stage).enter s.shared shared) := by
  have hunwritten := hkept.unwritten_move hstage hcompletes hresume
  have haside : (∀ target, stage ≠ .resetting target) → (h.record x i stage).stay = h.stay →
      (h.record x i stage).sent = h.sent →
      Kept ⟨shared, s.tasks.set i next⟩ ((h.record x i stage).enter s.shared shared) := by
    intro hresetting hstay hsent
    refine hkept.move_aside hstage hunwritten (fun id hid => ?_) (record_entered h x i stage) hstay hsent
    obtain hbefore | ⟨target, rfl, -⟩ := (resume_moves hresume).retries hid
    · exact hbefore
    · exact absurd rfl (hresetting target)
  cases stage with
  | resetting target =>
      obtain ⟨service, hexec, heq⟩ := Option.map_eq_some_iff.mp hresume
      cases heq
      simp only [completes, hstage, Bool.and_eq_true, Bool.not_eq_true'] at hcompletes
      obtain ⟨time, rfl, rfl⟩ | ⟨hfault, -⟩ := exec_eq_some.mp hexec
      · exact hkept.move_reset hstage hcompletes.2
          (isDead_update _ _ (resetForRetry_id time) (by simp [Delivery.resetForRetry])) hunwritten
      · rw [hfault] at hcompletes
        cases hcompletes.1
  | publishing publisher e =>
      cases publisher with
      | retryDLQ =>
          cases x with
          | done time =>
              refine hkept.move_publish hstage ?_ hunwritten
              obtain ⟨_, _, heq⟩ := Option.map_eq_some_iff.mp hresume
              cases heq
              rfl
          | fault message => simp [completes, hstage, Publisher.owns, Answer.isFault] at hcompletes
          | _ => cases hresume
      | createAndPublishWebhook | pollRetries => exact haside (by simp) rfl rfl
  | inserting new =>
      cases x with
      | inserted id payload time => exact haside (by simp) rfl rfl
      | _ => exact haside (by simp) rfl rfl
  | waiting | handling | polling | reading | fetching | marking | returned => exact haside (by simp) rfl rfl

theorem kept_spawn (hkept : Kept s h) (request : Request) :
    Kept ⟨s.shared, s.tasks ++ [request.start]⟩ (h.next s t (.spawn request)) := by
  have hretries : request.start.retries = none := by
    obtain ⟨_, hstart⟩ | hstart | hstart | ⟨_, hstart⟩ | ⟨_, hstart⟩ :=
      start_cases request <;> rw [hstart] <;> rfl
  have hold : ∀ (j : Nat) (other : Stage) (id : Int64), (s.tasks ++ [request.start])[j]? = some other →
      other.retries = some id →
      s.tasks[j]? = some other := by
    intro j other id hother hid
    obtain ⟨-, hsome⟩ | ⟨-, rfl⟩ := Pool.getElem?_concat_cases hother
    · exact hsome
    · rw [hretries] at hid
      cases hid
  refine ⟨fun j other hother hwritten => ?_, hkept.sent, fun j other id hother hid => ?_, ?_, hkept.once⟩
  · obtain ⟨hlt, hsome⟩ | ⟨rfl, -⟩ := Pool.getElem?_concat_cases hother
    · simp only [History.next, Function.update_of_ne (Nat.ne_of_lt hlt)]
      exact hkept.unwritten j other hsome hwritten
    · simp [History.next]
  · exact hkept.retried j other id (hold j other id hother hid) hid
  · intro j k first second id hjk hfirst hsecond hfirst' hsecond'
    exact hkept.distinct j k first second id hjk (hold j first id hfirst hfirst') (hold k second id hsecond hsecond')
      hfirst' hsecond'

theorem kept_step (hkept : Kept s h) (hcompletes : completes s l = true)
    (hstep : trackedStep (s, h) l = some (t, h')) : Kept t h' := by
  obtain ⟨after, hnext, heq⟩ := Option.map_eq_some_iff.mp hstep
  cases heq
  cases l with
  | spawn request =>
      cases hnext
      exact kept_spawn hkept request
  | move i x =>
      obtain ⟨stage, next, shared, hstage, hresume, rfl⟩ := Pool.step_move.mp hnext
      have hkept' := kept_move hkept hstage hcompletes hresume
      simp only [History.next, hstage, Option.elim_some]
      exact hkept'

end Run

theorem kept_init : Kept initService initHistory where
  unwritten := fun _ _ _ _ => ⟨rfl, rfl⟩
  sent := fun _ _ hmem => by cases hmem
  retried := fun _ _ _ hstage => by cases hstage
  distinct := fun _ _ _ _ _ _ hstage => by cases hstage
  once := List.nodup_nil

-- Where every message is published and RetryDLQ resets dead letters only, nothing is
-- lost by an operation that fails, and no stay in the dead letters has two messages.
theorem retries_atomic {labels : List Label} {s : State} {h : History}
    (hrun : Machine.run (Machine.restrict (fun w l => completes w.1 l) trackedStep) (initService, initHistory)
      labels = some (s, h)) : Atomic s h := by
  have hkept : Kept s h := by
    refine Machine.restrict_invariant (P := fun w => Kept w.1 w.2) ?_ kept_init hrun
    exact fun _ _ _ hkept hcompletes hstep => kept_step hkept hcompletes hstep
  have hnone : ∀ i e, s.tasks[i]? = some (.returned (.error e)) → h.inserted i = none ∧ h.reset i = none :=
    fun i e hstage => hkept.unwritten i _ hstage rfl
  refine ⟨fun i e id hstage hinserted => ?_, fun i e id hstage hreset => ?_, hkept.once⟩
  · rw [(hnone i e hstage).1] at hinserted
    cases hinserted
  · rw [(hnone i e hstage).2] at hreset
    cases hreset

-- A new worker is handed the delivery's message once more, and the endpoint refuses it.
def refusedAgain (i : Nat) : List Label :=
  [.spawn .deliverWebhook, .move i (.redelivered 0), .move i (.done 0), .move i (.done 0),
   .move i (.response 500 ""), .move i (.done 0), .move i (.done 0)]

-- Six attempts, and RetryDLQ.
def retriedDeadLetter : List Label :=
  published ++ refused 1 0 ++ refusedAgain 2 ++ refusedAgain 3 ++ refusedAgain 4 ++ refusedAgain 5 ++
    refusedAgain 6 ++ [.spawn (.retryDLQ (some { userID := 1, role := "admin" }) 1), .move 7 (.done 0),
      .move 7 (.done 0),
      .move 7 (.secret ""), .move 7 (.done 0)]

theorem retries_atomic_retriedDeadLetter : ∃ s h,
    Machine.run (Machine.restrict (fun w l => completes w.1 l) trackedStep)
    (initService, initHistory) retriedDeadLetter = some (s, h) ∧ h.sent = [(1, 1)] ∧ Atomic s h := by
  have hcheck : (Machine.run (Machine.restrict (fun w l => completes w.1 l) trackedStep) (initService, initHistory)
      retriedDeadLetter).any (fun w => w.2.sent = [(1, 1)]) = true := by
    decide +kernel
  obtain ⟨⟨s, h⟩, hrun, hsent⟩ := (Option.any_eq_true ..).mp hcheck
  exact ⟨s, h, hrun, of_decide_eq_true hsent, retries_atomic hrun⟩

-- CreateAndPublishWebhook cannot publish the delivery that it has inserted.
def publishFails : List Label :=
  [.spawn (.createAndPublishWebhook "call-1" 7 "https://example.com/hook" "" "call.finished" (.ok "[1]")),
   .move 0 (.inserted 1 "[1]" 0), .move 0 (.fault "unavailable")]

theorem not_atomic_publishFails : ∃ s h, Machine.run trackedStep (initService, initHistory) publishFails =
    some (s, h) ∧
    ¬ Atomic s h := by
  refine ⟨_, _, rfl, fun hatomic => ?_⟩
  obtain ⟨row, hfind, hstatus⟩ := hatomic.created 0 _ 1 rfl rfl
  cases hfind
  obtain hstatus | hstatus := hstatus <;> cases hstatus

end Bos3000.Webhook
