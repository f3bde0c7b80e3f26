import Bos3000.Callback.AnswerFirst
import Bos3000.Callback.BridgeFields
import Bos3000.Callback.Dispatch
import Bos3000.Lib.Pool

-- Whether the times of a record come in the order of what they are the times of.
namespace Bos3000.Callback

-- The first is not after the second, where both are set.
def Before (t u : Option Time) : Prop := ∀ a ∈ t, ∀ b ∈ u, a ≤ b

structure Chronological (times : Times) : Prop where
  ordered : [times.aDialAt, times.aAnswerAt, times.bDialAt, times.bAnswerAt, times.bridgeAt,
    times.bridgeEndAt].Pairwise Before
  aHangup : Before times.aDialAt times.aHangupAt
  bHangup : Before times.bDialAt times.bHangupAt

theorem before_some {a b : Time} : Before (some a) (some b) ↔ a ≤ b := by
  simp [Before]

theorem before_of_none {t u : Option Time} (h : u = none) : Before t u := by
  simp [Before, h]

-- The times as their columns keep them.
def Times.stored (times : Times) : Times :=
  ⟨times.aDialAt.map timestamptz, times.aAnswerAt.map timestamptz, times.aHangupAt.map timestamptz,
    times.bDialAt.map timestamptz, times.bAnswerAt.map timestamptz, times.bHangupAt.map timestamptz,
    times.bridgeAt.map timestamptz, times.bridgeEndAt.map timestamptz⟩

theorem timestamptz_mono {t u : Time} (h : t ≤ u) : timestamptz t ≤ timestamptz u :=
  Int.mul_le_mul_of_nonneg_right (Int.ediv_le_ediv (by decide) h) (by decide)

theorem Before.stored {t u : Option Time} (h : Before t u) : Before (t.map timestamptz) (u.map timestamptz) := by
  intro _ ha _ hb
  obtain ⟨a, hat, rfl⟩ := Option.map_eq_some_iff.mp ha
  obtain ⟨b, hbu, rfl⟩ := Option.map_eq_some_iff.mp hb
  exact timestamptz_mono (h a hat b hbu)

theorem Chronological.stored {times : Times} (h : Chronological times) : Chronological times.stored where
  ordered := h.ordered.map (Option.map timestamptz) fun _ _ => Before.stored
  aHangup := h.aHangup.stored
  bHangup := h.bHangup.stored

-- What the clock and the order of the events say of those stamped so far.
structure Ordered (stamped : List CallEvent) (clock : Time) : Prop where
  past : ∀ e ∈ stamped, e.timestamp ≤ clock
  answered : ∀ e ∈ stamped, e.isBridge = true → ∃ f ∈ stamped, f.isAnswer .B = true ∧
    f.timestamp ≤ e.timestamp
  answers : ∀ e ∈ stamped, e.isBridge = true → ∀ f ∈ stamped, ∀ leg, f.isAnswer leg = true →
    f.timestamp ≤ e.timestamp
  hangups : ∀ e ∈ stamped, e.isBridge = true → ∀ f ∈ stamped, f.isHangup = true →
    e.timestamp ≤ f.timestamp

-- What the times of the shared record are, against the events stamped so far.
structure Dated (times : Times) (stamped : List CallEvent) (clock : Time) : Prop where
  dial : ∀ leg, Before (times.dialAt leg) (some clock)
  dialled : ∀ e ∈ stamped, ∃ t ∈ times.dialAt e.leg, t ≤ e.timestamp
  aDial : Before times.aDialAt times.bDialAt
  aAnswer : Before times.aAnswerAt times.bDialAt
  aAnswerAt : ∀ t ∈ times.aAnswerAt, ∃ e ∈ stamped, e.isAnswer .A = true ∧ t = e.timestamp
  bAnswerAt : ∀ t ∈ times.bAnswerAt, ∃ e ∈ stamped, e.isAnswer .B = true ∧ t = e.timestamp
  bridgeAt : ∀ t ∈ times.bridgeAt, ∃ e ∈ stamped, e.isBridge = true ∧ t = e.timestamp
  bridgeEndAt : ∀ t ∈ times.bridgeEndAt, ∃ e ∈ stamped, e.isHangup = true ∧ t = e.timestamp
  aHangup : Before times.aDialAt times.aHangupAt
  bHangup : Before times.bDialAt times.bHangupAt

section Events

variable {stamped : List CallEvent} {clock now : Time} {times : Times}

theorem Ordered.later (h : Ordered stamped clock) (hclock : clock ≤ now) : Ordered stamped now :=
  ⟨fun e he => (h.past e he).trans hclock, h.answered, h.answers, h.hangups⟩

theorem inOrder_answer {e : CallEvent} {leg : Leg} (h : inOrder stamped e = true) (he : e.isAnswer leg = true) :
    ∀ f ∈ stamped, f.isBridge = false := by
  have hname : e.eventName = .CHANNEL_ANSWER := by
    simp only [CallEvent.isAnswer, decide_eq_true_eq] at he
    exact he.1
  simp only [inOrder, hname, List.all_eq_true, Bool.and_eq_true, Bool.not_eq_true'] at h
  exact fun f hf => (h f hf).1

theorem inOrder_bridge {e : CallEvent} (h : inOrder stamped e = true) (he : e.isBridge = true) :
    (∃ f ∈ stamped, f.isAnswer .B = true) ∧ ∀ f ∈ stamped, f.isHangup = false := by
  have hname : e.eventName = .CHANNEL_BRIDGE := by
    simpa only [CallEvent.isBridge, decide_eq_true_eq] using he
  simp only [inOrder, hname, Bool.and_eq_true, List.any_eq_true, List.all_eq_true, Bool.not_eq_true'] at h
  exact ⟨h.1.2, h.2⟩

theorem Ordered.dispatch (h : Ordered stamped clock) {e : CallEvent} (hclock : clock ≤ e.timestamp)
    (horder : inOrder stamped e = true) : Ordered (stamped ++ [e]) e.timestamp := by
  have hpast : ∀ f ∈ stamped, f.timestamp ≤ e.timestamp := fun f hf => (h.past f hf).trans hclock
  refine ⟨?_, ?_, ?_, ?_⟩
  · intro f hf
    rcases List.mem_append.mp hf with hf | hf
    · exact hpast f hf
    · rw [List.mem_singleton.mp hf]
  · intro f hf hbridge
    rcases List.mem_append.mp hf with hf | hf
    · obtain ⟨g, hg, hanswer⟩ := h.answered f hf hbridge
      exact ⟨g, List.mem_append_left _ hg, hanswer⟩
    · cases List.mem_singleton.mp hf
      obtain ⟨⟨g, hg, hanswer⟩, _⟩ := inOrder_bridge horder hbridge
      exact ⟨g, List.mem_append_left _ hg, hanswer, hpast g hg⟩
  · intro f hf hbridge g hg leg hanswer
    rcases List.mem_append.mp hf with hf | hf <;> rcases List.mem_append.mp hg with hg | hg
    · exact h.answers f hf hbridge g hg leg hanswer
    · cases List.mem_singleton.mp hg
      rw [inOrder_answer horder hanswer f hf] at hbridge
      cases hbridge
    · rw [List.mem_singleton.mp hf]
      exact hpast g hg
    · rw [List.mem_singleton.mp hf, List.mem_singleton.mp hg]
  · intro f hf hbridge g hg hhangup
    rcases List.mem_append.mp hf with hf | hf <;> rcases List.mem_append.mp hg with hg | hg
    · exact h.hangups f hf hbridge g hg hhangup
    · rw [List.mem_singleton.mp hg]
      exact hpast f hf
    · cases List.mem_singleton.mp hf
      rw [(inOrder_bridge horder hbridge).2 g hg] at hhangup
      cases hhangup
    · rw [List.mem_singleton.mp hf, List.mem_singleton.mp hg]

theorem Before.later {t : Option Time} (h : Before t (some clock)) (hclock : clock ≤ now) : Before t (some now) := by
  intro a ha b hb
  cases hb
  exact (h a ha clock rfl).trans hclock

theorem Dated.later (h : Dated times stamped clock) (hclock : clock ≤ now) : Dated times stamped now :=
  { h with dial := fun leg => (h.dial leg).later hclock }

-- A is dialled before every event.
theorem Dated.aDial_le (h : Dated times stamped clock) {e : CallEvent} (he : e ∈ stamped) :
    Before times.aDialAt (some e.timestamp) := by
  intro a ha t ht
  cases ht
  obtain ⟨dialAt, hdialAt, hle⟩ := h.dialled e he
  cases hleg : e.leg with
  | A =>
      rw [hleg] at hdialAt
      cases Option.mem_unique ha hdialAt
      exact hle
  | B =>
      rw [hleg] at hdialAt
      exact (h.aDial a ha dialAt hdialAt).trans hle

theorem Dated.bDial_le (h : Dated times stamped clock) {e : CallEvent} (he : e ∈ stamped) (hleg : e.leg = .B) :
    Before times.bDialAt (some e.timestamp) := by
  obtain ⟨dialAt, hdialAt, hle⟩ := h.dialled e he
  rw [hleg] at hdialAt
  intro b hb t ht
  cases ht
  cases Option.mem_unique hb hdialAt
  exact hle

-- What comes after an answer of B comes after the times that runCall takes on its
-- way to the event loop.
theorem Dated.opened_le (h : Dated times stamped clock) {e : CallEvent} (he : e ∈ stamped)
    (hanswer : e.isAnswer .B = true) {t : Time} (hle : e.timestamp ≤ t) (o : Opening) :
    Before (times.opening o) (some t) := by
  have hleg : e.leg = .B := by
    simp only [CallEvent.isAnswer, decide_eq_true_eq] at hanswer
    exact hanswer.2
  cases o with
  | aDial => exact (h.aDial_le he).later hle
  | aAnswer =>
      obtain ⟨dialAt, hdialAt, hdialled⟩ := h.dialled e he
      rw [hleg] at hdialAt
      intro a ha b hb
      cases hb
      exact (h.aAnswer a ha dialAt hdialAt).trans (hdialled.trans hle)
  | bDial => exact (h.bDial_le he hleg).later hle

theorem Dated.dispatch (h : Dated times stamped clock) {e : CallEvent} (hclock : clock ≤ e.timestamp)
    (hdialled : (times.dialAt e.leg).isSome = true) : Dated times (stamped ++ [e]) e.timestamp := by
  have hkept : ∀ {P : CallEvent → Prop}, (∃ f ∈ stamped, P f) → ∃ f ∈ stamped ++ [e], P f := by
    rintro P ⟨f, hf, hP⟩
    exact ⟨f, List.mem_append_left _ hf, hP⟩
  refine { h.later hclock with
    dialled := ?_
    aAnswerAt := fun t ht => hkept (h.aAnswerAt t ht)
    bAnswerAt := fun t ht => hkept (h.bAnswerAt t ht)
    bridgeAt := fun t ht => hkept (h.bridgeAt t ht)
    bridgeEndAt := fun t ht => hkept (h.bridgeEndAt t ht) }
  intro f hf
  rcases List.mem_append.mp hf with hf | hf
  · exact h.dialled f hf
  · cases List.mem_singleton.mp hf
    obtain ⟨t, ht⟩ := Option.isSome_iff_exists.mp hdialled
    exact ⟨t, ht, (h.later hclock).dial e.leg t ht _ rfl⟩

-- Where a bridge has an end there was one.
theorem Dated.chronological (h : Dated times stamped clock) (hordered : Ordered stamped clock)
    (hends : times.bridgeEndAt.isSome = true → ∃ e ∈ stamped, e.isBridge = true) : Chronological times := by
  -- the bridge is after an answer of B, the end of a bridge is after a bridge
  have hbridge : ∀ e ∈ stamped, e.isBridge = true → ∀ o, Before (times.opening o) (some e.timestamp) := by
    intro e he hbridge
    obtain ⟨f, hf, hanswer, hle⟩ := hordered.answered e he hbridge
    exact h.opened_le hf hanswer hle
  have hbAnswer : ∀ o, Before (times.opening o) times.bAnswerAt := by
    intro o a ha b hb
    obtain ⟨e, he, hanswer, rfl⟩ := h.bAnswerAt b hb
    exact h.opened_le he hanswer (Int.le_refl _) o a ha _ rfl
  have hbridgeAt : ∀ o, Before (times.opening o) times.bridgeAt := by
    intro o a ha b hb
    obtain ⟨e, he, hkind, rfl⟩ := h.bridgeAt b hb
    exact hbridge e he hkind o a ha _ rfl
  have hbridgeEndAt : ∀ t ∈ times.bridgeEndAt, ∃ e ∈ stamped, e.isBridge = true ∧ e.timestamp ≤ t := by
    intro t ht
    obtain ⟨e, he, hkind⟩ := hends (Option.isSome_iff_exists.mpr ⟨t, ht⟩)
    obtain ⟨f, hf, hhangup, rfl⟩ := h.bridgeEndAt t ht
    exact ⟨e, he, hkind, hordered.hangups e he hkind f hf hhangup⟩
  have hend : ∀ o, Before (times.opening o) times.bridgeEndAt := by
    intro o a ha b hb
    obtain ⟨e, he, hkind, hle⟩ := hbridgeEndAt b hb
    exact (hbridge e he hkind o).later hle a ha b rfl
  refine ⟨?_, h.aHangup, h.bHangup⟩
  simp only [List.pairwise_cons, List.mem_cons, List.not_mem_nil, or_false, forall_eq_or_imp, forall_eq,
    List.Pairwise.nil, and_true, false_implies, implies_true]
  refine ⟨⟨?_, h.aDial, hbAnswer .aDial, hbridgeAt .aDial, hend .aDial⟩,
    ⟨h.aAnswer, hbAnswer .aAnswer, hbridgeAt .aAnswer, hend .aAnswer⟩,
    ⟨hbAnswer .bDial, hbridgeAt .bDial, hend .bDial⟩, ⟨?_, ?_⟩, ?_⟩
  · intro a ha b hb
    obtain ⟨e, he, _, rfl⟩ := h.aAnswerAt b hb
    exact h.aDial_le he a ha _ rfl
  · intro a ha b hb
    obtain ⟨e, he, hanswer, rfl⟩ := h.bAnswerAt a ha
    obtain ⟨f, hf, hkind, rfl⟩ := h.bridgeAt b hb
    exact hordered.answers f hf hkind e he .B hanswer
  · intro a ha b hb
    obtain ⟨e, he, hanswer, rfl⟩ := h.bAnswerAt a ha
    obtain ⟨f, hf, hkind, hle⟩ := hbridgeEndAt b hb
    exact (hordered.answers f hf hkind e he .B hanswer).trans hle
  · intro a ha b hb
    obtain ⟨e, he, hkind, rfl⟩ := h.bridgeAt a ha
    obtain ⟨f, hf, hhangup, rfl⟩ := h.bridgeEndAt b hb
    exact hordered.hangups e he hkind f hf hhangup

end Events

-- None of the times from this one on is taken, and no leg has hung up.
def Times.unopened (times : Times) (o : Opening) : Prop :=
  (∀ other, o.rank ≤ other.rank → times.opening other = none) ∧ times.aHangupAt = none ∧
    times.bHangupAt = none

def ActiveCall.hungUp (w : ActiveCall) : Prop :=
  w.call.aHangupAt.isSome = true ∨ w.call.bHangupAt.isSome = true ∨ ∃ a ∈ w.pending, a.hangsUp = true

-- runCall takes each of the times once, in their order, and a hangup only when it
-- returns.
structure Phased (w : ActiveCall) : Prop where
  later : ∀ o, w.stage.opened ≤ o.rank → w.call.times.opening o = none
  pending : ∀ a ∈ w.pending, ∀ o, a.opens = some o →
    o.rank + 1 = w.stage.opened ∧ w.call.times.opening o = none
  once : (w.pending.countP fun a => a.opens.isSome) ≤ 1
  hungUp : w.hungUp → w.stage = .returned

section Phases

variable {w v : ActiveCall} {a : Action} {now : Time} {call : CallbackCall}

theorem onCall_opening (now : Time) (call : CallbackCall) {o : Opening} (h : a.opens ≠ some o) :
    (a.onCall now call).times.opening o = call.times.opening o := by
  cases a with
  | assign a => cases a <;> cases o <;> first | rfl | exact absurd rfl h
  | _ => rfl

theorem onCall_hangup (now : Time) (call : CallbackCall) (h : a.hangsUp = false) :
    (a.onCall now call).aHangupAt = call.aHangupAt ∧ (a.onCall now call).bHangupAt = call.bHangupAt := by
  cases a with
  | assign a => cases a <;> first | exact ⟨rfl, rfl⟩ | cases h
  | _ => exact ⟨rfl, rfl⟩

theorem Opening.rank_le (o : Opening) : o.rank ≤ 2 := by
  cases o <;> decide

theorem Phased.unopened (h : Phased w) (ha : a ∈ w.pending) {o : Opening} (hopens : a.opens = some o) :
    w.call.times.unopened o := by
  obtain ⟨hrank, hnone⟩ := h.pending a ha o hopens
  have hrunning : w.stage ≠ .returned := by
    intro hreturned
    rw [hreturned] at hrank
    have := o.rank_le
    simp only [Stage.opened] at hrank
    omega
  have hstill : ∀ t : Option Time, (t.isSome = true → w.hungUp) → t = none := by
    intro t ht
    by_contra hsome
    exact hrunning (h.hungUp (ht (Option.isSome_iff_ne_none.mpr hsome)))
  refine ⟨?_, hstill _ .inl, hstill _ fun ht => .inr (.inl ht)⟩
  intro other hle
  by_cases hsame : other.rank = o.rank
  · have : other = o := by
      cases other <;> cases o <;> first | rfl | cases hsame
    rw [this]
    exact hnone
  · exact h.later other (by omega)

theorem Phased.same (h : Phased w) (htimes : v.call.times = w.call.times) (hpending : v.pending = w.pending)
    (hstage : v.stage = w.stage) : Phased v := by
  have haHangup : v.call.aHangupAt = w.call.aHangupAt := congrArg Times.aHangupAt htimes
  have hbHangup : v.call.bHangupAt = w.call.bHangupAt := congrArg Times.bHangupAt htimes
  refine ⟨?_, ?_, ?_, ?_⟩ <;> simp only [ActiveCall.hungUp, htimes, hpending, hstage, haHangup, hbHangup]
  · exact h.later
  · exact h.pending
  · exact h.once
  · exact h.hungUp

theorem Phased.resume (h : Phased w) {i : Input} (hstep : w.resumeRun i = some v) : Phased v := by
  obtain ⟨stage, script, next, hrun, hresume, _, eventCh, rfl⟩ := resumeRun_eq_some hstep
  have hstage : w.stage = stage := by simp [ActiveCall.stage, hrun]
  have hrunning : stage ≠ .returned := by
    rintro rfl
    cases hresume
  obtain ⟨hle, honce, hopens⟩ := resume_opens hresume
  refine ⟨?_, ?_, honce, ?_⟩
  · intro o ho
    exact h.later o (hstage ▸ hle.trans ho)
  · intro a ha o ho
    obtain ⟨hrank, hbefore⟩ := hopens a ha o ho
    exact ⟨hrank, h.later o (hstage ▸ hbefore)⟩
  · rintro (haHangup | hbHangup | ⟨a, ha, hhangs⟩)
    · exact absurd (hstage ▸ h.hungUp (.inl haHangup)) hrunning
    · exact absurd (hstage ▸ h.hungUp (.inr (.inl hbHangup))) hrunning
    · refine (resume_hangsUp hresume).resolve_left fun hnone => ?_
      rw [hnone a ha] at hhangs
      cases hhangs

theorem Phased.assign (h : Phased w) (hpending : w.pending = a :: v.pending) (hcall : v.call = a.onCall now w.call)
    (hstage : v.stage = w.stage) : Phased v := by
  have ha : a ∈ w.pending := by simp [hpending]
  have hmem : ∀ b ∈ v.pending, b ∈ w.pending := fun b hb => by simp [hpending, hb]
  have honce := h.once
  rw [hpending, List.countP_cons] at honce
  refine ⟨?_, ?_, by omega, ?_⟩
  · intro o ho
    rw [hstage] at ho
    have hopens : a.opens ≠ some o := by
      intro hopens
      have := (h.pending a ha o hopens).1
      omega
    rw [hcall, onCall_opening now w.call hopens]
    exact h.later o ho
  · intro b hb o ho
    obtain ⟨hrank, hnone⟩ := h.pending b (hmem b hb) o ho
    -- the statement that was executed is not a second one that takes the time
    have hopens : a.opens ≠ some o := by
      intro hopens
      have hmore : 0 < v.pending.countP fun a => a.opens.isSome := List.countP_pos_iff.mpr ⟨b, hb, by simp [ho]⟩
      simp only [hopens, Option.isSome_some, if_true] at honce
      omega
    rw [hstage, hcall, onCall_opening now w.call hopens]
    exact ⟨hrank, hnone⟩
  · intro hhung
    rw [hstage]
    cases hhangs : a.hangsUp with
    | true => exact h.hungUp (.inr (.inr ⟨a, ha, hhangs⟩))
    | false =>
        obtain ⟨haHangup, hbHangup⟩ := onCall_hangup now w.call hhangs
        rw [ActiveCall.hungUp, hcall, haHangup, hbHangup] at hhung
        exact h.hungUp (hhung.imp_right (Or.imp_right fun ⟨b, hb, hbhangs⟩ => ⟨b, hmem b hb, hbhangs⟩))

end Phases

section Assign

variable {stamped : List CallEvent} {clock now : Time} {times : Times} {call : CallbackCall} {a : Action}

-- runCall takes the dial time of A before anything has happened.
theorem Dated.dialA (h : Dated times stamped now) (hunopened : times.unopened .aDial) :
    Dated { times with aDialAt := some now } stamped now := by
  obtain ⟨hnone, haHangupAt, _⟩ := hunopened
  have haDialAt : times.aDialAt = none := hnone .aDial (by decide)
  have hbDialAt : times.bDialAt = none := hnone .bDial (by decide)
  refine { h with dial := ?_, dialled := ?_, aDial := before_of_none hbDialAt, aHangup := before_of_none haHangupAt }
  · rintro (_ | _)
    · exact before_some.mpr (Int.le_refl now)
    · exact h.dial .B
  · intro e he
    obtain ⟨t, ht, _⟩ := h.dialled e he
    cases hleg : e.leg <;> rw [hleg] at ht
    · cases haDialAt.symm.trans ht
    · cases hbDialAt.symm.trans ht

-- And that of B once A has answered, before any event of B.
theorem Dated.dialB (h : Dated times stamped now) (hpast : ∀ e ∈ stamped, e.timestamp ≤ now)
    (hunopened : times.unopened .bDial) : Dated { times with bDialAt := some now } stamped now := by
  obtain ⟨hnone, _, hbHangupAt⟩ := hunopened
  have hbDialAt : times.bDialAt = none := hnone .bDial (by decide)
  refine { h with dial := ?_, dialled := ?_, aDial := h.dial .A, aAnswer := ?_, bHangup := before_of_none hbHangupAt }
  · rintro (_ | _)
    · exact h.dial .A
    · exact before_some.mpr (Int.le_refl now)
  · intro e he
    obtain ⟨t, ht, hle⟩ := h.dialled e he
    cases hleg : e.leg <;> rw [hleg] at ht
    · exact ⟨t, ht, hle⟩
    · cases hbDialAt.symm.trans ht
  · intro t ht b hb
    cases hb
    obtain ⟨e, he, _, rfl⟩ := h.aAnswerAt t ht
    exact hpast e he

theorem time_of_event {P : CallEvent → Prop} {e : CallEvent} (he : e ∈ stamped) (hP : P e) :
    ∀ t ∈ some e.timestamp, ∃ f ∈ stamped, P f ∧ t = f.timestamp := by
  intro t ht
  cases ht
  exact ⟨e, he, hP, rfl⟩

-- A statement of runCall is executed.
theorem Dated.assign (h : Dated call.times stamped clock) (hordered : Ordered stamped clock) (hclock : clock ≤ now)
    (hsourced : a.sourced stamped) (hunopened : ∀ o, a.opens = some o → call.times.unopened o) :
    Dated (a.onCall now call).times stamped now := by
  have hnow := h.later hclock
  cases a with
  | assign a =>
      cases a with
      | aDialAt t =>
          cases hsourced
          exact hnow.dialA (hunopened .aDial rfl)
      | bDialAt t =>
          cases hsourced
          exact hnow.dialB (hordered.later hclock).past (hunopened .bDial rfl)
      | aAnswerAt t =>
          obtain ⟨e, he, hanswer, rfl⟩ := hsourced
          have hbDialAt : call.bDialAt = none := (hunopened .aAnswer rfl).1 .bDial (by decide)
          exact { hnow with aAnswer := before_of_none hbDialAt, aAnswerAt := time_of_event he hanswer }
      | bAnswerAt t =>
          obtain ⟨e, he, hanswer, rfl⟩ := hsourced
          exact { hnow with bAnswerAt := time_of_event he hanswer }
      | bridgeAt t =>
          obtain ⟨e, he, hbridge, rfl⟩ := hsourced
          exact { hnow with bridgeAt := time_of_event he hbridge }
      | bridgeEndAt t =>
          obtain ⟨e, he, hhangup, rfl⟩ := hsourced
          exact { hnow with bridgeEndAt := time_of_event he hhangup }
      | aHangupAt t =>
          obtain rfl | ⟨e, he, rfl⟩ := hsourced
          · exact { hnow with aHangup := hnow.dial .A }
          · exact { hnow with aHangup := h.aDial_le he }
      | bHangupAt t =>
          obtain ⟨e, he, hleg, rfl⟩ := hsourced
          exact { hnow with bHangup := h.bDial_le he hleg }
      | _ => exact hnow
  | _ => exact hnow

end Assign

theorem exec_times {call row call' row' : CallbackCall} {body next : Body} {stmt : Stmt} {o : Outcome}
    (h : stmt.exec call row body o = some (call', row', next)) :
    call'.times = call.times ∧ (row'.times = row.times ∨ row'.times = call.times.stored) := by
  revert h
  fun_cases Stmt.exec call row body stmt o <;> intro h <;> cases h <;>
    first
      | exact ⟨rfl, .inl rfl⟩
      | exact ⟨rfl, .inr rfl⟩
      | exact ⟨by unfold recordWastage; split <;> rfl, .inl rfl⟩
      | exact ⟨by unfold mergeRecording; split <;> rfl, .inl rfl⟩

theorem onRow_times (row : CallbackCall) (a : Action) : (a.onRow row).times = row.times := by
  cases a <;> rfl

-- A step is a wait's end or a statement of runCall, or it sets no time but those of
-- the row, from the shared record.
theorem step_times {w v : ActiveCall} {l : Label} (hstep : w.step l = some v) :
    (∃ i, l = .resume i ∧ w.resumeRun i = some v) ∨
    (∃ now ok a, l = .exec now ok ∧ w.pending = a :: v.pending ∧ v.call = a.onCall now w.call ∧
      v.stage = w.stage ∧ v.row.times = w.row.times) ∨
    v.call.times = w.call.times ∧ v.pending = w.pending ∧ v.stage = w.stage ∧
      (v.row.times = w.row.times ∨ v.row.times = w.call.times.stored) := by
  obtain ⟨i, rfl, hresume⟩ | ⟨now, ok, rfl, hexec⟩ | ⟨rfl, hfin⟩ | ⟨o, rfl, hbody⟩ |
    ⟨_, haside⟩ := step_cases hstep
  · exact .inl ⟨i, rfl, hresume⟩
  · obtain ⟨a, hpending, hstage, hcall, hrow⟩ := execRun_next hexec
    refine .inr (.inl ⟨now, ok, a, rfl, hpending, hcall, hstage, ?_⟩)
    rw [hrow]
    cases ok with
    | true => exact onRow_times w.row a
    | false => rfl
  · refine .inr (.inr ⟨?_, finalizeRun_pending hfin, (step_history (l := .finalize) (by simp) hstep).1, .inl ?_⟩)
    all_goals
      obtain ⟨_, _, rfl, _⟩ := finalizeRun_starts hfin
      rfl
  · obtain ⟨_, _, _, _, _, _, hexec, rfl⟩ := bodyStep_eq_some hbody
    obtain ⟨htimes, hrow⟩ := exec_times hexec
    exact .inr (.inr ⟨htimes, rfl, rfl, hrow⟩)
  · obtain ⟨_, _, hcall⟩ := haside.call
    exact .inr (.inr ⟨by rw [hcall]; rfl, haside.pending, haside.stage, .inl (by rw [haside.row])⟩)

theorem Timed.step_cases {s t : Timed} {l : TimedLabel} (h : s.step l = some t) :
    (∃ m active, l = .call m ∧ (∀ e, m ≠ .event e) ∧ s.active.step m = some active ∧
      t = { s with active, clock := m.readClock s.clock }) ∨
    (∃ e, l = .emit e ∧ t = { s with emitted := s.emitted ++ [e], unstamped := s.unstamped ++ [e] }) ∨
    (∃ k now e, l = .dispatch k now ∧ s.unstamped[k]? = some e ∧
      t = { s with clock := now, unstamped := s.unstamped.eraseIdx k, stamped := s.stamped ++ [e.stamp now],
                   inHand := s.inHand ++ [e.stamp now] }) ∨
    ∃ k e active, l = .handle k ∧ e ∈ s.inHand ∧ s.active.step (.event e) = some active ∧
      t = { s with active, inHand := s.inHand.eraseIdx k } := by
  revert h
  fun_cases Timed.step s l <;> intro h
  case case1 => cases h
  case case2 m hevent =>
      obtain ⟨active, hstep, rfl⟩ := Option.map_eq_some_iff.mp h
      exact .inl ⟨m, active, rfl, fun e he => hevent e he, hstep, rfl⟩
  case case3 e _ =>
      cases h
      exact .inr (.inl ⟨e, rfl, rfl⟩)
  case case4 => cases h
  case case5 k now =>
      obtain ⟨e, he, rfl⟩ := Option.map_eq_some_iff.mp h
      exact .inr (.inr (.inl ⟨k, now, e, rfl, he, rfl⟩))
  case case6 k =>
      obtain ⟨e, he, h⟩ := Option.bind_eq_some_iff.mp h
      obtain ⟨active, hstep, rfl⟩ := Option.map_eq_some_iff.mp h
      exact .inr (.inr (.inr ⟨k, e, active, rfl, List.mem_of_getElem? he, hstep, rfl⟩))

-- The events were emitted in their order, and stamped as they were emitted.
structure InTurn (s : Timed) : Prop where
  emitted : ∀ k e, s.emitted[k]? = some e → inOrder (s.emitted.take k) e = true
  stamped : ∃ earlier, s.emitted = earlier ++ s.unstamped ∧
    s.stamped.map (CallEvent.stamp · 0) = earlier.map (CallEvent.stamp · 0)

section Turns

variable {s : Timed} {e : CallEvent}

-- The order does not depend on the stamps.
theorem inOrder_stamp (earlier : List CallEvent) (e : CallEvent) (now : Time) :
    inOrder (earlier.map (CallEvent.stamp · 0)) e = inOrder earlier (e.stamp now) := by
  simp only [inOrder, List.all_map, List.any_map]
  rfl

theorem InTurn.emit (h : InTurn s) (horder : inOrder s.emitted e = true) :
    InTurn { s with emitted := s.emitted ++ [e], unstamped := s.unstamped ++ [e] } := by
  obtain ⟨earlier, hemitted, hstamped⟩ := h.stamped
  refine ⟨?_, earlier, by simp [hemitted], hstamped⟩
  intro k f hf
  obtain ⟨hk, hf⟩ | ⟨rfl, rfl⟩ := Pool.getElem?_concat_cases hf
  · rw [List.take_append_of_le_length (Nat.le_of_lt hk)]
    exact h.emitted k f hf
  · rw [List.take_left]
    exact horder

-- The next event to be stamped is in order with those stamped so far.
theorem InTurn.next (h : InTurn s) (hnext : s.unstamped.head? = some e) (now : Time) :
    inOrder s.stamped (e.stamp now) = true := by
  obtain ⟨earlier, hemitted, hstamped⟩ := h.stamped
  obtain ⟨rest, hrest⟩ := List.head?_eq_some_iff.mp hnext
  have horder : inOrder (s.emitted.take earlier.length) e = true := by
    apply h.emitted earlier.length e
    simp [hemitted, hrest]
  rw [hemitted, List.take_left] at horder
  rw [← inOrder_stamp, hstamped, inOrder_stamp earlier e now]
  exact horder

theorem InTurn.dispatch (h : InTurn s) (hnext : s.unstamped.head? = some e) (now : Time) :
    InTurn { s with clock := now, unstamped := s.unstamped.eraseIdx 0, stamped := s.stamped ++ [e.stamp now],
                    inHand := s.inHand ++ [e.stamp now] } := by
  obtain ⟨earlier, hemitted, hstamped⟩ := h.stamped
  obtain ⟨rest, hrest⟩ := List.head?_eq_some_iff.mp hnext
  refine ⟨h.emitted, earlier ++ [e], by simp [hemitted, hrest], ?_⟩
  simp only [List.map_append, hstamped]
  rfl

end Turns

-- What is so between the steps of a call whose legs are dialled before their events
-- are stamped.
structure Timeline (s : Timed) : Prop where
  inTurn : InTurn s
  phased : Phased s.active
  ordered : Ordered s.stamped s.clock
  dated : Dated s.active.call.times s.stamped s.clock
  sourced : ∀ a ∈ s.active.pending, a.sourced s.stamped
  bridged : s.active.stage.isBridged = true ∨ s.active.endsBridge → ∃ e ∈ s.stamped, e.isBridge = true
  eventCh : ∀ e ∈ s.active.eventCh, e ∈ s.stamped
  inHand : ∀ e ∈ s.inHand, e ∈ s.stamped
  row : Chronological s.active.row.times

section Timeline

variable {s t : Timed} {v : ActiveCall}

theorem Timeline.chronological (h : Timeline s) : Chronological s.active.call.times :=
  h.dated.chronological h.ordered fun hends => h.bridged (.inr (.inl hends))

-- A step that takes no time.
theorem Timeline.same (h : Timeline s) (hactive : t.active.call.times = s.active.call.times ∧
      t.active.pending = s.active.pending ∧ t.active.stage = s.active.stage ∧
      (t.active.row.times = s.active.row.times ∨ t.active.row.times = s.active.call.times.stored))
    (hclock : s.clock ≤ t.clock) (hstamped : t.stamped = s.stamped) (hinTurn : InTurn t)
    (heventCh : ∀ e ∈ t.active.eventCh, e ∈ s.stamped) (hinHand : ∀ e ∈ t.inHand, e ∈ s.inHand) :
    Timeline t := by
  obtain ⟨htimes, hpending, hstage, hrow⟩ := hactive
  have hbridgeEndAt : t.active.call.bridgeEndAt = s.active.call.bridgeEndAt := congrArg Times.bridgeEndAt htimes
  refine ⟨hinTurn, h.phased.same htimes hpending hstage, ?_, ?_, ?_, ?_, ?_, ?_, ?_⟩
  · rw [hstamped]
    exact h.ordered.later hclock
  · rw [htimes, hstamped]
    exact h.dated.later hclock
  · rw [hpending, hstamped]
    exact h.sourced
  · rw [hstage, ActiveCall.endsBridge, hbridgeEndAt, hpending, hstamped]
    exact h.bridged
  · rw [hstamped]
    exact heventCh
  · rw [hstamped]
    exact fun e he => h.inHand e (hinHand e he)
  · obtain hrow | hrow := hrow
    · rw [hrow]
      exact h.row
    · rw [hrow]
      exact h.chronological.stored

theorem Timeline.resume (h : Timeline s) {i : Input} (hstep : s.active.resumeRun i = some v) :
    Timeline { s with active := v } := by
  have hphased := h.phased.resume hstep
  have htaken : ∀ e ∈ v.eventCh, e ∈ s.active.eventCh := by
    intro e he
    obtain he | ⟨hevent, _⟩ := step_eventCh (l := .resume i) hstep e he
    · exact he
    · cases hevent
  obtain ⟨stage, script, next, hrun, hresume, hoffers, eventCh, rfl⟩ := resumeRun_eq_some hstep
  have hstage : s.active.stage = stage := by simp [ActiveCall.stage, hrun]
  have hevents : ∀ e ∈ i.event?.toList, e ∈ s.stamped := by
    intro e he
    cases i with
    | event f =>
        cases List.mem_singleton.mp he
        simp only [ActiveCall.offers, decide_eq_true_eq] at hoffers
        exact h.eventCh e (List.mem_of_head? hoffers)
    | _ => cases he
  have hsourced : ∀ a ∈ script, a.sourced s.stamped := fun a ha =>
    sourced_mono hevents (resume_sourced hresume a ha)
  obtain ⟨hbridges, _, hends, _⟩ := resume_bridge hresume
  refine ⟨⟨h.inTurn.emitted, h.inTurn.stamped⟩, hphased, h.ordered, h.dated, hsourced, ?_,
    fun e he => h.eventCh e (htaken e he), h.inHand, h.row⟩
  rintro (hbridged | hend | hend)
  · obtain hbefore | ⟨t, ht⟩ := hbridges hbridged
    · exact h.bridged (.inl (hstage ▸ hbefore))
    · obtain ⟨e, he, hbridge, _⟩ := hsourced _ ht
      exact ⟨e, he, hbridge⟩
  · exact h.bridged (.inr (.inl hend))
  · exact h.bridged (.inl (hstage ▸ hends hend))

theorem Timeline.exec (h : Timeline s) {a : Action} {now : Time} (hclock : s.clock ≤ now)
    (hpending : s.active.pending = a :: v.pending) (hcall : v.call = a.onCall now s.active.call)
    (hstage : v.stage = s.active.stage) (hrow : v.row.times = s.active.row.times)
    (heventCh : ∀ e ∈ v.eventCh, e ∈ s.active.eventCh) : Timeline { s with active := v, clock := now } := by
  have ha : a ∈ s.active.pending := by simp [hpending]
  refine ⟨⟨h.inTurn.emitted, h.inTurn.stamped⟩, h.phased.assign hpending hcall hstage, h.ordered.later hclock,
    ?_, ?_, ?_, ?_, h.inHand, ?_⟩
  · simp only [hcall]
    exact h.dated.assign h.ordered hclock (h.sourced a ha) fun o ho => h.phased.unopened ha ho
  · exact fun b hb => h.sourced b (by simp [hpending, hb])
  · intro hbridged
    rw [hstage, (bridges_exec now hpending hcall).2.1] at hbridged
    exact h.bridged hbridged
  · exact fun e he => h.eventCh e (heventCh e he)
  · rw [hrow]
    exact h.row

theorem Timeline.dispatch (h : Timeline s) {e : CallEvent} {now : Time} (hclock : s.clock ≤ now)
    (hnext : s.unstamped.head? = some e) (hdialled : (s.active.call.times.dialAt e.leg).isSome = true) :
    Timeline { s with clock := now, unstamped := s.unstamped.eraseIdx 0, stamped := s.stamped ++ [e.stamp now],
                      inHand := s.inHand ++ [e.stamp now] } := by
  have hkept : ∀ f ∈ s.stamped, f ∈ s.stamped ++ [e.stamp now] := fun f hf => List.mem_append_left _ hf
  refine ⟨h.inTurn.dispatch hnext now, h.phased,
    h.ordered.dispatch (e := e.stamp now) hclock (h.inTurn.next hnext now),
    h.dated.dispatch (e := e.stamp now) hclock hdialled, ?_, ?_, ?_, ?_, h.row⟩
  · exact fun a ha => sourced_mono hkept (h.sourced a ha)
  · intro hbridged
    obtain ⟨f, hf, hbridge⟩ := h.bridged hbridged
    exact ⟨f, hkept f hf, hbridge⟩
  · exact fun f hf => hkept f (h.eventCh f hf)
  · intro f hf
    rcases List.mem_append.mp hf with hf | hf
    · exact hkept f (h.inHand f hf)
    · exact List.mem_append_right _ hf

theorem natural_readClock {m : Label} (hnatural : s.natural (.call m) = true) : s.clock ≤ m.readClock s.clock := by
  cases m with
  | exec now ok => simpa [Timed.natural, Label.readClock] using hnatural
  | _ => exact Int.le_refl s.clock

theorem Timeline.step (h : Timeline s) {l : TimedLabel} (hnatural : s.natural l = true)
    (hdials : s.dialsFirst l = true) (hstep : s.step l = some t) : Timeline t := by
  have hturn := h.inTurn
  obtain ⟨m, v, rfl, hevent, hactive, rfl⟩ | ⟨e, rfl, rfl⟩ | ⟨k, now, e, rfl, he, rfl⟩ |
      ⟨k, e, v, rfl, he, hactive, rfl⟩ := Timed.step_cases hstep
  · have heventCh : ∀ e ∈ v.eventCh, e ∈ s.active.eventCh := by
      intro e he
      exact (step_eventCh hactive e he).resolve_right fun hsame => hevent e hsame.1
    obtain ⟨i, rfl, hresume⟩ | ⟨now, ok, a, rfl, hpending, hcall, hstage, hrow⟩ | hsame := step_times hactive
    · exact h.resume hresume
    · exact h.exec (natural_readClock hnatural) hpending hcall hstage hrow heventCh
    · exact h.same hsame (natural_readClock hnatural) rfl ⟨hturn.emitted, hturn.stamped⟩
        (fun e he => h.eventCh e (heventCh e he)) fun _ he => he
  · exact h.same ⟨rfl, rfl, rfl, .inl rfl⟩ (Int.le_refl s.clock) rfl (hturn.emit hnatural) h.eventCh fun _ he => he
  · simp only [Timed.dialsFirst, Bool.and_eq_true, decide_eq_true_eq] at hdials
    obtain ⟨rfl, hdialled⟩ := hdials
    have hnext : s.unstamped.head? = some e := List.head?_eq_getElem?.trans he
    rw [hnext] at hdialled
    exact h.dispatch (by simpa [Timed.natural] using hnatural) hnext hdialled
  · obtain ⟨i, hi, _⟩ | ⟨now, ok, a, hexec, _⟩ | hsame := step_times hactive
    · cases hi
    · cases hexec
    · refine h.same hsame (Int.le_refl s.clock) rfl ⟨hturn.emitted, hturn.stamped⟩ ?_
        fun _ hf => List.mem_of_mem_eraseIdx hf
      intro f hf
      obtain hf | ⟨hsame, _⟩ := step_eventCh hactive f hf
      · exact h.eventCh f hf
      · cases hsame
        exact h.inHand e he

-- No time of a new call is set.
theorem timeline_init {call : CallbackCall} (hcall : call.times = ⟨none, none, none, none, none, none, none, none⟩)
    (start : Time) : Timeline (.init call start) := by
  have hdated : Dated call.times [] start := by
    rw [hcall]
    refine ⟨?_, by simp, before_of_none rfl, before_of_none rfl, by simp, by simp, by simp, by simp,
      before_of_none rfl, before_of_none rfl⟩
    rintro (_ | _) t ht <;> cases ht
  have hordered : Ordered [] start := ⟨by simp, by simp, by simp, by simp⟩
  obtain ⟨_, _, haHangupAt, _, _, hbHangupAt, _, hbridgeEndAt⟩ := Times.mk.inj hcall
  have hends : ¬ (ActiveCall.init call).endsBridge := by
    simp [ActiveCall.endsBridge, ActiveCall.init, ActiveCall.pending, hbridgeEndAt]
  refine ⟨⟨by simp [Timed.init], [], rfl, rfl⟩,
    ⟨?_, by simp [Timed.init, ActiveCall.init, ActiveCall.pending], Nat.zero_le _, ?_⟩, hordered, hdated,
    by simp [Timed.init, ActiveCall.init, ActiveCall.pending], ?_, by simp [Timed.init, ActiveCall.init],
    by simp [Timed.init], ?_⟩
  · intro o _
    simp only [Timed.init, ActiveCall.init, hcall]
    cases o <;> rfl
  · simp [ActiveCall.hungUp, Timed.init, ActiveCall.init, ActiveCall.pending, haHangupAt, hbHangupAt]
  · rintro (hbridged | hend)
    · cases hbridged
    · exact absurd hend hends
  · refine hdated.chronological hordered fun hend => ?_
    rw [hcall] at hend
    cases hend

end Timeline

-- In every run of a call with a clock that does not go back and events in their
-- order, in which the events are stamped in turn and none of a leg before runCall has
-- taken the leg's dial time, the times of the row are chronological.
theorem row_chronological {r : Request} {hold : Hold} {aGateway bGateway callerID : String} {start : Time}
    {labels : List TimedLabel} {s : Timed}
    (hrun : Machine.run (Machine.restrict (fun s l => s.natural l && s.dialsFirst l) Timed.step)
      (.init (callRecord r hold aGateway bGateway callerID) start) labels = some s) :
    Chronological s.active.row.times := by
  have htimeline : Timeline s := by
    refine Machine.restrict_invariant (P := Timeline) ?_ (timeline_init rfl start) hrun
    intro s l t h hallowed hstep
    rw [Bool.and_eq_true] at hallowed
    exact h.step hallowed.1 hallowed.2 hstep
  exact htimeline.row

-- The dispatcher stamps each event as it is emitted, and its handler takes it at once.
def dispatched (labels : List Label) : List TimedLabel :=
  labels.flatMap fun
    | .event e => [.emit e, .dispatch 0 e.timestamp, .handle 0]
    | l => [.call l]

theorem row_chronological_hangsUp :
    ∃ s, Machine.run (Machine.restrict (fun s l => s.natural l && s.dialsFirst l) Timed.step)
        (.init (callRecord sampleRequest ⟨2, 60, 120⟩ "gw-a" "gw-b" "4001") 0) (dispatched (bridges ++ hangsUp)) =
          some s ∧
      s.active.persisted ∧ s.active.row.times =
        ⟨some 10000000, some 100000000, some 400000000, some 120000000, some 200000000, none,
          some 210000000, some 400000000⟩ ∧
      Chronological s.active.row.times := by
  have hcheck : (Machine.run (Machine.restrict (fun s l => s.natural l && s.dialsFirst l) Timed.step)
      (.init (callRecord sampleRequest ⟨2, 60, 120⟩ "gw-a" "gw-b" "4001") 0)
      (dispatched (bridges ++ hangsUp))).any (fun s => decide (s.active.persisted ∧ s.active.row.times =
        ⟨some 10000000, some 100000000, some 400000000, some 120000000, some 200000000, none,
          some 210000000, some 400000000⟩)) = true := by
    decide +kernel
  obtain ⟨s, hrun, htimes⟩ := (Option.any_eq_true ..).mp hcheck
  obtain ⟨hpersisted, htimes⟩ := of_decide_eq_true htimes
  exact ⟨s, hrun, hpersisted, htimes, row_chronological hrun⟩

-- A answers while the originate command is still under way: its answer is stamped
-- before runCall takes the dial time.
def answersFirst : List TimedLabel :=
  [TimedLabel.call (.resume (.load true)), .call (.exec 0 true), .call (.exec 0 true),
    .emit ⟨"c1", .A, .CHANNEL_ANSWER, "", 0⟩, .dispatch 0 5000000, .handle 0,
    .call (.resume (.originated .A true))] ++
  List.replicate 5 (TimedLabel.call (.exec 10000000 true)) ++
  [TimedLabel.call (.resume (.event ⟨"c1", .A, .CHANNEL_ANSWER, "", 5000000⟩))] ++
  List.replicate 5 (TimedLabel.call (.exec 10000000 true)) ++ [TimedLabel.call (.resume (.originated .B false))] ++
  List.replicate 4 (TimedLabel.call (.exec 20000000 true)) ++ dispatched concludes

theorem not_chronological_answersFirst :
    ∃ s, Machine.run (Machine.restrict Timed.natural Timed.step)
        (.init (callRecord sampleRequest ⟨2, 60, 120⟩ "gw-a" "gw-b" "4001") 0) answersFirst = some s ∧
      s.active.persisted ∧ s.active.row.aDialAt = some 10000000 ∧ s.active.row.aAnswerAt = some 5000000 ∧
      ¬ Chronological s.active.row.times := by
  refine ⟨_, rfl, by decide, rfl, rfl, fun h => ?_⟩
  have hbefore : Before (some 10000000) (some 5000000) := (List.pairwise_cons.mp h.ordered).1 (some 5000000) (by decide)
  exact absurd (before_some.mp hbefore) (by decide)

end Bos3000.Callback
