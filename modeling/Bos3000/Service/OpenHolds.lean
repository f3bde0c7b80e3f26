import Bos3000.Service.Holds

-- A hold that is open when its request or its call ends stays open for good.
namespace Bos3000.Service

open Billing (Transaction)
open Callback

-- Nobody else will settle the hold of an open session.
def Session.open (x : Session) : Bool :=
  match x.phase with
  | .initiating stage => (stage.held x.request).isSome
  | .active w => ¬ w.billed

-- The move is the failure of a Finalize: the compensating one, or the one in the
-- body of finalizeCall. Both callers discard the error.
def Session.failsFinalize (x : Session) (m : Move) : Bool :=
  match x.phase, m with
  | .initiating (.refund _ _), .reply (.fault _) => true
  | .active w, .call (.body .fault) =>
      match w.finalized with
      | .running body => body.todo.head? = some .billingFinalize
      | _ => false
  | _, _ => false

-- Every Finalize succeeds, and a restart finds no hold open.
def Settles (s : System) : Label → Bool
  | .move i m => s.sessions[i]?.all fun x => !x.failsFinalize m
  | .restart => s.sessions.all fun x => !x.alive || !x.open
  | _ => true

theorem Settles.move {s : System} {i : Nat} {m : Move} (h : Settles s (.move i m)) {x : Session}
    (hx : s.sessions[i]? = some x) : ¬ x.failsFinalize m := by
  simpa [Settles, hx] using h

theorem Settles.restart {s : System} (h : Settles s .restart) {x : Session} (hx : x ∈ s.sessions)
    (halive : x.alive = true) : ¬ x.open := by
  have hx := List.all_eq_true.mp h x hx
  simpa [halive] using hx

-- Its InitiateCallback has returned, and no call of it is in activeCalls.
def Session.ended (x : Session) : Bool :=
  match x.phase with
  | .initiating stage => stage.response.isSome
  | .active w => !w.inMap

-- No InitiateCallback is executing and activeCalls is empty.
def System.idle (s : System) : Prop := ∀ x ∈ s.sessions, x.alive → x.ended

instance (s : System) : Decidable s.idle := inferInstanceAs (Decidable (∀ x ∈ s.sessions, _))

def System.noOrphan (s : System) : Prop :=
  ∀ callID, (∃ tx ∈ s.rowsOf callID, tx.type = .pre_deduct) →
    (s.rowsOf callID).countP Transaction.settles = 1

-- A session that has ended has settled its hold.
structure Closes (x : Session) (rows : List Transaction) : Prop where
  hold : HoldInv x rows
  failed : ∀ e, x.phase = .initiating (.failed e) → rows = [] ∨ ∃ p, Settled p rows
  finalize : ∀ w o, x.phase = .active w → .body .billingFinalize o ∈ w.log → o = .ok
  dead : x.alive = false → ¬ x.open

theorem Phase.of_eq_active {stage : InitiateStage} {w : ActiveCall} (h : Phase.of stage = .active w) :
    w.log = [] := by
  cases stage <;> cases h
  rfl

theorem Closes.step {x : Session} {rows new : List Transaction} (h : Closes x rows) (hvalid : x.Valid)
    (halive : x.alive = true) {m : Move} (hm : ¬ x.failsFinalize m) {phase : Phase} {access : Access}
    (hstep : x.step m = some (phase, access)) (hwrites : Writes access new) :
    Closes { x with phase } (rows ++ new) := by
  refine ⟨h.hold.step hvalid hstep hwrites, ?_, ?_, fun hdead => absurd halive (ne_true_of_eq_false hdead)⟩
  · rintro e rfl
    obtain ⟨stage, r, next, hstage, rfl, hresume, hnext⟩ | ⟨_, _, _, _, _, _, hactive, _⟩ :=
      Session.step_eq_some hstep
    · have heq := Phase.of_eq_initiating hnext.symm
      subst heq
      have hinv : StageInv x.request stage rows := by simpa only [HoldInv, hstage] using h.hold
      obtain ⟨hold, _, hnext, _⟩ | ⟨hold, e', rfl, _, hfailed, rfl⟩ | ⟨hno, hkept⟩ := resume_cases hresume
      · cases hnext
      · -- the compensating Finalize succeeded
        cases hwrites with
        | nothing hno => exact absurd rfl (hno _)
        | row hop => exact .inr ⟨_, Held.settle (p := hold.refundParams x.request) hinv hop⟩
      · rw [hwrites.eq_nil hno, List.append_nil]
        have hnone : stage.held x.request = none := by
          obtain ⟨_, _, hnone | ⟨_, f, hrefund, rfl⟩⟩ | hheld := hkept
          · exact hnone
          · exact absurd (by simp [Session.failsFinalize, hstage, hrefund]) hm
          · exact hheld.symm
        simp only [StageInv, hnone] at hinv
        refine .inl (hinv.resolve_right ?_)
        rintro ⟨⟨f, rfl⟩, _⟩
        cases hresume
    · cases hactive
  · rintro v o rfl hlog
    obtain ⟨stage, r, next, _, _, _, hnext⟩ | ⟨w, l, u, hw, rfl, hu, hactive, _⟩ :=
      Session.step_eq_some hstep
    · rw [Phase.of_eq_active hnext.symm] at hlog
      cases hlog
    · cases hactive
      by_cases hl : ∃ o, l = .body o
      · obtain ⟨result, rfl⟩ := hl
        obtain ⟨stmt, body, call, row, next, hrunning, hexec, rfl⟩ := bodyStep_eq_some hu
        simp only [List.mem_append, List.mem_singleton, Effect.body.injEq] at hlog
        obtain hlog | ⟨rfl, rfl⟩ := hlog
        · exact h.finalize w o hw hlog
        · cases o with
          | ok => rfl
          | fault => exact absurd (by simp [Session.failsFinalize, hw, hrunning]) hm
          | time | config | count => cases hexec
      · obtain ⟨_, _, hsame⟩ := step_costs (fun o ho => hl ⟨o, ho⟩) hu
        exact h.finalize w o hw ((hsame _ _).mp hlog)

theorem closes_run {labels : List Label} {s : System} (hrun : runUnder Settles labels = some s) :
    ∀ x ∈ s.sessions, Closes x (s.rowsOf x.request.callID) := by
  refine invariant_under (P := fun s => ∀ x ∈ s.sessions, Closes x (s.rowsOf x.request.callID)) ?_ ?_ hrun
  · intro x hx
    cases hx
  · intro s l t hcalls hP hallowed hstep
    refine hcalls.each_step hstep ?_ ?_ ?_ hP
    · intro request
      refine ⟨.inl rfl, fun _ _ => .inl rfl, ?_, ?_⟩
      · intro w o hactive
        cases hactive
      · intro hdead
        cases hdead
    · rintro rfl x hx rows h
      refine ⟨h.hold, h.failed, h.finalize, fun _ => ?_⟩
      by_cases halive : x.alive = true
      · have hclosed := Settles.restart hallowed hx halive
        exact hclosed
      · exact h.dead (by simpa using halive)
    · rintro i m x phase access rows new rfl hx halive hmove hwrites h
      exact h.step (hcalls.valid x (List.mem_of_getElem? hx)) halive (Settles.move hallowed hx) hmove hwrites

theorem Settled.countP {p : Billing.FinalizeParams} {rows : List Transaction} (h : Settled p rows) :
    rows.countP Transaction.settles = 1 := by
  obtain ⟨hold, account, rfl, htype, _⟩ := h
  have hkind := (Billing.finalize_signed p account).1
  simp [Transaction.settles, htype, hkind]

-- In an idle system no session has an open hold.
theorem Closes.closed {x : Session} {rows : List Transaction} (h : Closes x rows) (hvalid : x.Valid)
    (hidle : x.alive → x.ended) : rows = [] ∨ ∃ p, Settled p rows := by
  obtain ⟨request, phase, alive⟩ := x
  cases phase with
  | initiating stage =>
      have hnone : stage.held request = none := by
        cases alive with
        | false => simpa [Session.open] using h.dead rfl
        | true =>
            have hresponse : stage.response.isSome := hidle rfl
            cases stage with
            | stored call => exact absurd rfl (hvalid.stored call)
            | failed e => rfl
            | _ => cases hresponse
      have hinv : StageInv request stage rows := h.hold
      simp only [StageInv, hnone] at hinv
      obtain hnil | ⟨⟨e, rfl⟩, _⟩ := hinv
      · exact .inl hnil
      · exact h.failed e rfl
  | active w =>
      refine .inr ⟨finalizeParams w.call, h.hold.2 ?_⟩
      cases alive with
      | false => simpa [Session.open] using h.dead rfl
      | true =>
          have hdone := (hvalid.admitted w rfl).settling.gone (by simpa [Session.ended] using hidle rfl)
          obtain ⟨o, hlog⟩ := mem_executed_iff.mp (show .billingFinalize ∈ w.executed by rw [hdone]; decide)
          rw [h.finalize w o rfl hlog] at hlog
          exact hlog

-- In every run in which each Finalize succeeds and no restart finds a hold open,
-- an idle system has settled every hold exactly once.
theorem holds_settled {labels : List Label} {s : System} (hrun : runUnder Settles labels = some s)
    (hidle : s.idle) : s.noOrphan := by
  intro callID ⟨tx, htx, htype⟩
  have hcalls := calls_run (run_of_runUnder hrun)
  obtain ⟨entry, hentry, hreference⟩ : ∃ entry ∈ s.shared.ledger.log, entry.2.referenceID = some callID := by
    obtain ⟨hmem, hreference⟩ := List.mem_filter.mp htx
    obtain ⟨entry, hentry, rfl⟩ := List.mem_map.mp hmem
    exact ⟨entry, hentry, by simpa using hreference⟩
  obtain ⟨x, hx, rfl⟩ := List.mem_map.mp (hcalls.owned entry hentry callID hreference)
  obtain hnil | ⟨p, hsettled⟩ := (closes_run hrun x hx).closed (hcalls.valid x hx) (hidle x hx)
  · rw [hnil] at htx
    cases htx
  · exact hsettled.countP

theorem holds_settled_rejected :
    ∃ s, runUnder Settles (admitted ++ rejected) = some s ∧ s.idle ∧ s.noOrphan := by
  have hrun : ∃ s, runUnder Settles (admitted ++ rejected) = some s ∧ s.idle := ⟨_, rfl, by decide⟩
  obtain ⟨s, hrun, hidle⟩ := hrun
  exact ⟨s, hrun, hidle, @holds_settled _ s hrun hidle⟩

-- The context of a request is cancelled after its PreDeduct: AcquireSlot fails,
-- and so does the Finalize that would give the hold back.
def cancelled : List Label :=
  admitted.take 8 ++ [.move 0 (.reply (.fault ⟨.Unknown, "context canceled"⟩)),
    .move 0 (.reply (.fault ⟨.Unknown, "context canceled"⟩))]

theorem orphaned_cancelled :
    ¬ ∀ labels s, run labels = some s → s.idle → s.noOrphan := by
  intro h
  have hrun : ∃ s, run cancelled = some s ∧ s.idle ∧
      (∃ tx ∈ s.rowsOf "c1", tx.type = .pre_deduct) ∧ (s.rowsOf "c1").countP Transaction.settles = 0 :=
    ⟨_, rfl, by decide, by decide, by decide⟩
  obtain ⟨s, hrun, hidle, hhold, hnone⟩ := hrun
  have hone := h cancelled s hrun hidle "c1" hhold
  rw [hnone] at hone
  cases hone

end Bos3000.Service
