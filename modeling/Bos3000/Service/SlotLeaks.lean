import Bos3000.Service.Slots

-- A slot that is not given back when its request or its call ends is lost.
namespace Bos3000.Service

open Callback

-- No decrement of a slot counter fails, and a restart finds no slot taken.
def Keeps (s : System) : Label → Bool
  | .move i m => s.sessions[i]?.all fun x => !x.failsDecrement m
  | .restart => s.sessions.all fun x => !x.alive || !x.holdsSlot && !x.rollsBack
  | _ => true

theorem Keeps.decrements {s : System} {l : Label} (h : Keeps s l) : Decrements s l := by
  cases l with
  | move => exact h
  | _ => rfl

theorem Keeps.restart {s : System} (h : Keeps s .restart) {x : Session} (hx : x ∈ s.sessions)
    (halive : x.alive = true) : x.holdsSlot = false ∧ x.rollsBack = false := by
  have hx := List.all_eq_true.mp h x hx
  simpa [halive] using hx

-- Its InitiateCallback has returned, and the body of finalizeCall is not running.
def Session.resting (x : Session) : Bool :=
  match x.phase with
  | .initiating stage => stage.response.isSome
  | .active w => w.finalized = .unused ∨ w.finalized = .done

-- No InitiateCallback and no finalizeCall is executing.
def System.resting (s : System) : Prop := ∀ x ∈ s.sessions, x.alive → x.resting

instance (s : System) : Decidable s.resting := inferInstanceAs (Decidable (∀ x ∈ s.sessions, _))

def Session.inActiveCalls (x : Session) : Bool :=
  match x.phase with
  | .initiating _ => false
  | .active w => x.alive && w.inMap

-- The user's calls in activeCalls.
def System.activeCalls (s : System) (userID : UserID) : Nat :=
  s.sessions.countP fun x => x.request.userID = userID ∧ x.inActiveCalls

theorem dead_run {labels : List Label} {s : System} (hrun : runUnder Keeps labels = some s) :
    ∀ x ∈ s.sessions, x.alive = false → x.holdsSlot = false ∧ x.rollsBack = false := by
  refine invariant_under (P := fun s => ∀ x ∈ s.sessions, x.alive = false →
    x.holdsSlot = false ∧ x.rollsBack = false) ?_ ?_ hrun
  · intro x hx
    cases hx
  · intro s l t _ h hallowed hstep
    cases System.changes hstep with
    | created | topped | deducted | refused => exact h
    | requested auth params request hfresh =>
        intro x hx hdead
        rcases List.mem_append.mp hx with hx | hx
        · exact h x hx hdead
        · rw [List.mem_singleton.mp hx] at hdead
          cases hdead
    | moved i m x phase access shared hx halive hmove happly =>
        intro y hy hdead
        rcases List.mem_or_eq_of_mem_set hy with hy | rfl
        · exact h y hy hdead
        · exact absurd halive (ne_true_of_eq_false hdead)
    | restarted =>
        intro x hx _
        obtain ⟨y, hy, rfl⟩ := List.mem_map.mp hx
        by_cases halive : y.alive = true
        · have hnone := Keeps.restart hallowed hy halive
          exact hnone
        · exact h y hy (by simpa using halive)

-- In a session at rest, the slot is held by the call in activeCalls.
theorem Session.resting_slots {x : Session} (hvalid : x.Valid)
    (hdead : x.alive = false → x.holdsSlot = false ∧ x.rollsBack = false) (hresting : x.alive → x.resting) :
    x.holdsSlot = x.inActiveCalls ∧ x.rollsBack = false := by
  obtain ⟨request, phase, alive⟩ := x
  cases alive with
  | false =>
      obtain ⟨hholds, hrolls⟩ := hdead rfl
      refine ⟨?_, hrolls⟩
      rw [hholds]
      cases phase <;> rfl
  | true =>
      have hrest := hresting rfl
      cases phase with
      | initiating stage =>
          cases stage with
          | stored call => exact absurd rfl (hvalid.stored call)
          | failed e => exact ⟨rfl, rfl⟩
          | _ => cases hrest
      | active w =>
          refine ⟨?_, rfl⟩
          have hbody := (hvalid.admitted w rfl).settling.body
          have hexecuted := hbody.executed
          have hmap := hbody.inMap
          simp only [Session.holdsSlot, Session.inActiveCalls, ActiveCall.released, Bool.true_and]
          obtain hunused | hdone : w.finalized = .unused ∨ w.finalized = .done := of_decide_eq_true hrest
          · rw [hunused] at hexecuted hmap
            simp only [hexecuted]
            simpa using hmap
          · rw [hdone] at hexecuted
            rw [hmap.mpr hdone]
            simp only [hexecuted]
            decide

theorem Session.step_releases {x : Session} (hvalid : x.Valid) {m : Move} (hreleases : x.releases m)
    (hm : ¬ x.failsDecrement m) {phase : Phase} {access : Access} (hstep : x.step m = some (phase, access)) :
    ∃ n, access = .increment x.request.userID (-1) n := by
  obtain ⟨stage, r, next, hstage, rfl, hresume, _⟩ | ⟨w, l, v, hw, rfl, hv, _, rfl⟩ :=
    Session.step_eq_some hstep
  · simp only [Session.releases, hstage] at hreleases
    obtain ⟨e, rfl⟩ | haccess := resume_releases hresume hreleases
    · exact absurd (by simp [Session.failsDecrement, hstage, hreleases]) hm
    · exact haccess
  · simp only [Session.releases, hw] at hreleases
    obtain rfl | haccess := Callback.step_releases hv hreleases
    · exact absurd (by simp [Session.failsDecrement, hw, ActiveCall.failsRelease, hreleases]) hm
    · rw [← (hvalid.admitted w hw).callID.2]
      exact haccess

-- While no decrement of the counter fails and no restart finds a slot taken, the
-- counter at rest is the number of active calls, and every ReleaseSlot gives its
-- slot back.
theorem slots_returned {labels : List Label} {s : System} (hrun : runUnder Keeps labels = some s) :
    (s.resting → ∀ userID, s.shared.slots userID = s.activeCalls userID) ∧
    ∀ i m x t, s.sessions[i]? = some x → x.releases m →
      Machine.restrict Keeps System.step s (.move i m) = some t →
      t.shared.slots x.request.userID = s.shared.slots x.request.userID - 1 := by
  have hcalls := calls_run (run_of_runUnder hrun)
  constructor
  · intro hresting userID
    have hcounted := counted_run (Machine.restrict_mono (fun _ _ => Keeps.decrements) hrun)
    have hslots : ∀ x ∈ s.sessions, x.holdsSlot = x.inActiveCalls ∧ x.rollsBack = false := fun x hx =>
      Session.resting_slots (hcalls.valid x hx) (dead_run hrun x hx) (hresting x hx)
    have hholders : s.holders userID = s.activeCalls userID :=
      List.countP_congr fun x hx => by rw [(hslots x hx).1]
    have hrolling : s.rollingBack userID = 0 :=
      List.countP_eq_zero.mpr fun x hx => by simp [(hslots x hx).2]
    rw [hcounted.counter, hholders, hrolling]
    simp
  · intro i m x t hx hreleases hstep
    obtain ⟨hallowed, hstep⟩ := Machine.restrict_eq_some.mp hstep
    cases System.changes hstep with
    | moved _ _ y phase access shared hy halive hmove happly =>
        rw [hx] at hy
        cases hy
        obtain ⟨n, rfl⟩ :=
          Session.step_releases (hcalls.valid x (List.mem_of_getElem? hx)) hreleases
            (Decrements.move (Keeps.decrements hallowed) hx) hmove
        obtain ⟨hn, hslots, _⟩ := apply_increment happly
        change shared.slots _ = _
        omega

theorem slots_returned_rejected :
    ∃ s, runUnder Keeps (admitted ++ rejected) = some s ∧
      s.resting ∧ (s.resting → ∀ userID, s.shared.slots userID = s.activeCalls userID) ∧
      ∀ i m x t, s.sessions[i]? = some x → x.releases m →
        Machine.restrict Keeps System.step s (.move i m) = some t →
        t.shared.slots x.request.userID = s.shared.slots x.request.userID - 1 := by
  have hrun : ∃ s, runUnder Keeps (admitted ++ rejected) = some s ∧ s.resting := ⟨_, rfl, by decide⟩
  obtain ⟨s, hrun, hresting⟩ := hrun
  exact ⟨s, hrun, hresting, @slots_returned _ s hrun⟩

-- No gateway is free, and the cache fails in the ReleaseSlot that follows.
def leaked : List Label :=
  admitted.take 9 ++ ([.fault ⟨.Unavailable, "no gateway available"⟩,
    .fault ⟨.Unavailable, "cache unavailable"⟩,
    .ok] : List Reply).map fun r => .move 0 (.reply r)

theorem slot_leaked :
    ¬ ∀ labels s, run labels = some s → s.resting →
      ∀ userID, s.shared.slots userID = s.activeCalls userID := by
  intro h
  have hrun : ∃ s, run leaked = some s ∧ s.resting ∧ s.shared.slots 1 = 1 ∧ s.activeCalls 1 = 0 :=
    ⟨_, rfl, by decide, by decide, by decide⟩
  obtain ⟨s, hrun, hresting, hslots, hcalls⟩ := hrun
  have hequal := h leaked s hrun hresting 1
  rw [hslots, hcalls] at hequal
  cases hequal

end Bos3000.Service
