import Bos3000.Callback.Costs
import Bos3000.Callback.Initiate

-- What requests and active calls do to the slot counter of their user.
namespace Bos3000.Callback

-- The access leaves the slot counters alone.
def Access.sparesSlots : Access → Bool
  | .increment .. | .setSlot .. => false
  | _ => true

-- AcquireSlot succeeded, and ReleaseSlot has not decremented the counter.
def InitiateStage.holdsSlot : InitiateStage → Bool
  | .pickALeg _ | .pickBLeg _ _ | .selectDID _ _ _ | .insertCall _ _ _ _ | .releaseSlot _ _
  | .store _ _ _ _ | .stored _ => true
  | _ => false

-- AcquireSlot is between its increment above the limit and the rollback.
def InitiateStage.rollsBack : InitiateStage → Bool
  | .rollbackSlot _ => true
  | _ => false

def InitiateStage.releases : InitiateStage → Bool
  | .releaseSlot _ _ => true
  | _ => false

def InitiateStage.floors : InitiateStage → Bool
  | .floorSlot _ _ => true
  | _ => false

-- What a request does about its slot. A decrement that fails gives nothing back,
-- and the error is dropped.
theorem resume_slots {r : Request} {stage next : InitiateStage} {x : Reply} {access : Access}
    (h : stage.resume r x = some (next, access)) :
    (∃ hold n, stage = .acquireSlot hold ∧ access = .increment r.userID 1 n ∧
      (hold.maxConcurrent < n ∧ next = .rollbackSlot hold ∨ n ≤ hold.maxConcurrent ∧ next = .pickALeg hold)) ∨
    (∃ hold n e, stage = .rollbackSlot hold ∧ access = .increment r.userID (-1) n ∧ next = .refund hold e) ∨
    (∃ hold n e, stage = .releaseSlot hold e ∧ access = .increment r.userID (-1) n ∧
      (n < 0 ∧ next = .floorSlot hold e ∨ 0 ≤ n ∧ next = .refund hold e)) ∨
    (∃ e, x = .fault e ∧ (stage.rollsBack ∨ stage.releases)) ∨
    stage.floors ∨
    access.sparesSlots ∧ next.holdsSlot = stage.holdsSlot ∧ next.rollsBack = stage.rollsBack ∧
      ¬ next.floors := by
  revert h
  fun_cases InitiateStage.resume r stage x <;> intro h <;> cases h <;>
    simp_all [InitiateStage.holdsSlot, InitiateStage.rollsBack, InitiateStage.releases,
      InitiateStage.floors, Access.sparesSlots]

theorem resume_setSlot {r : Request} {stage next : InitiateStage} {x : Reply} {userID : UserID} {n : Int}
    (h : stage.resume r x = some (next, .setSlot userID n)) : stage.floors := by
  revert h
  fun_cases InitiateStage.resume r stage x <;> intro h <;> cases h
  rfl

theorem resume_releases {r : Request} {stage next : InitiateStage} {x : Reply} {access : Access}
    (h : stage.resume r x = some (next, access)) (hreleases : stage.releases) :
    (∃ e, x = .fault e) ∨ ∃ n, access = .increment r.userID (-1) n := by
  revert h hreleases
  fun_cases InitiateStage.resume r stage x <;> intro h hreleases <;> cases h <;>
    simp_all [InitiateStage.releases]

-- The limit that AcquireSlot is called with, from the account the request read.
def InitiateStage.limit : InitiateStage → Option Int
  | .countDaily m | .resolveRate m => some m
  | .preDeduct hold | .acquireSlot hold | .rollbackSlot hold | .pickALeg hold | .pickBLeg hold _
  | .selectDID hold _ _ | .insertCall hold _ _ _ | .releaseSlot hold _ | .floorSlot hold _
  | .refund hold _ | .store hold _ _ _ => some hold.maxConcurrent
  | _ => none

theorem resume_limit {r : Request} {stage next : InitiateStage} {x : Reply} {access : Access}
    (h : stage.resume r x = some (next, access)) :
    (∀ m, next.limit = some m →
      stage.limit = some m ∨ ∃ a, access = .account r.userID a ∧ a.maxConcurrent = m) ∧
    (∀ call, next = .stored call → ∃ m, stage.limit = some m) := by
  revert h
  fun_cases InitiateStage.resume r stage x <;> intro h <;> cases h <;> simp [InitiateStage.limit]

-- ReleaseSlot of the body has been executed.
def ActiveCall.released (w : ActiveCall) : Prop := .releaseSlot ∈ w.executed

instance (w : ActiveCall) : Decidable w.released := inferInstanceAs (Decidable (_ ∈ _))

-- The body is about to set the counter to 0.
def ActiveCall.floors (w : ActiveCall) : Prop :=
  ∃ body n, w.finalized = .running body ∧ body.slots = some n ∧ n < 0

theorem exec_slots {call row call' row' : CallbackCall} {body next : Body} {stmt : Stmt} {o : Outcome}
    (h : stmt.exec call row body o = some (call', row', next)) :
    next.slots = body.slots ∧ stmt ≠ .releaseSlot ∨
      stmt = .releaseSlot ∧ (o = .fault ∧ next.slots = none ∨ ∃ n, o = .count n ∧ next.slots = some n) := by
  revert h
  fun_cases Stmt.exec call row body stmt o <;> intro h <;> cases h <;> simp

theorem access_spares {call : CallbackCall} {slots : Option Int} {stmt : Stmt} {o : Outcome}
    (hstmt : stmt ≠ .releaseSlot) (hslots : ∀ n, slots = some n → 0 ≤ n) :
    (stmt.access call slots o).sparesSlots := by
  fun_cases Stmt.access call slots stmt o
  case case2 => exact absurd rfl hstmt
  case case3 hneg =>
      cases slots with
      | none => cases hneg
      | some n =>
          have hn := hslots n rfl
          simp at hneg
          omega
  all_goals rfl

theorem access_setSlot {w v : ActiveCall} {l : Label} {userID : UserID} {n : Int}
    (hstep : w.step l = some v) (h : w.access l = .setSlot userID n) : w.floors := by
  obtain ⟨o, stmt, body, rfl, hrunning, haccess⟩ := access_body hstep (by simp [h])
  rw [h] at haccess
  revert haccess
  fun_cases Stmt.access w.call body.slots stmt o <;> intro haccess <;> cases haccess
  rename_i hneg
  cases hslots : body.slots with
  | none => simp [hslots] at hneg
  | some m => exact ⟨_, m, hrunning, hslots, by simpa [hslots] using hneg⟩

section Step

variable {w v : ActiveCall} {l : Label}

-- The step is ReleaseSlot of the body.
def ActiveCall.releases (w : ActiveCall) : Label → Bool
  | .body _ =>
      match w.finalized with
      | .running body => body.todo.head? = some .releaseSlot
      | _ => false
  | _ => false

-- Its decrement fails.
def ActiveCall.failsRelease (w : ActiveCall) (l : Label) : Bool := w.releases l && l = .body .fault

theorem step_releases (hstep : w.step l = some v) (hreleases : w.releases l) :
    l = .body .fault ∨ ∃ n, w.access l = .increment w.call.userID (-1) n := by
  cases l with
  | body o =>
      obtain ⟨stmt, body, call, row, next, hrunning, hexec, _⟩ := bodyStep_eq_some hstep
      have hstmt : stmt = .releaseSlot := by simpa [ActiveCall.releases, hrunning] using hreleases
      subst hstmt
      obtain ⟨_, hother⟩ | ⟨_, ⟨rfl, _⟩ | ⟨n, rfl, _⟩⟩ := exec_slots hexec
      · exact absurd rfl hother
      · exact .inl rfl
      · exact .inr ⟨n, access_running hrunning _⟩
  | resume | exec | finalize | event | fsLost | shutdown | forceHangup | thread => cases hreleases

theorem floors_of_starts (hfloors : ¬ w.floors) (hstarts : w.finalized.Starts v.finalized) :
    ¬ v.floors := by
  rintro ⟨body, n, hrunning, hslots, hneg⟩
  obtain hsame | ⟨_, s, hstart⟩ := hstarts
  · exact hfloors ⟨body, n, by rw [← hsame, hrunning], hslots, hneg⟩
  · rw [hrunning] at hstart
    cases hstart
    cases hslots

-- What an active call does about its slot.
theorem step_slots (hsettling : Settling w) (hfloors : ¬ w.floors) (hl : ¬ w.failsRelease l)
    (hstep : w.step l = some v) :
    (∃ n, w.access l = .increment w.call.userID (-1) n ∧ ¬ w.released ∧ v.released ∧
      (0 ≤ n → ¬ v.floors)) ∨
    (w.access l).sparesSlots ∧ (v.released ↔ w.released) ∧ ¬ v.floors := by
  by_cases hbody : ∃ o, l = .body o
  · obtain ⟨o, rfl⟩ := hbody
    obtain ⟨stmt, body, call, row, next, hrunning, hexec, hv⟩ := bodyStep_eq_some hstep
    have hexecuted := bodyStep_executed hstep hrunning
    have hfinalized : v.finalized = if body.todo = [] then .done else .running next := by rw [hv]
    rw [access_running hrunning]
    obtain ⟨hslots, hstmt⟩ | ⟨rfl, ⟨rfl, _⟩ | ⟨n, rfl, hslots⟩⟩ := exec_slots hexec
    · refine .inr ⟨access_spares hstmt ?_, ?_, ?_⟩
      · intro n hn
        by_contra hneg
        exact hfloors ⟨_, n, hrunning, hn, by omega⟩
      · simp [ActiveCall.released, hexecuted, Ne.symm hstmt]
      · rintro ⟨after, n, hafter, hn, hneg⟩
        rw [hfinalized] at hafter
        split at hafter <;> cases hafter
        exact hfloors ⟨_, n, hrunning, hslots.symm.trans hn, hneg⟩
    · exact absurd (by simp [ActiveCall.failsRelease, ActiveCall.releases, hrunning]) hl
    · refine .inl ⟨n, rfl, ?_, ?_, ?_⟩
      · intro hreleased
        exact absurd (hsettling.before hrunning hreleased) (Nat.lt_irrefl _)
      · simp [ActiveCall.released, hexecuted]
      · rintro hn ⟨after, m, hafter, hm, hneg⟩
        rw [hfinalized] at hafter
        split at hafter <;> cases hafter
        rw [hslots] at hm
        cases hm
        omega
  · have hnone : w.access l = .none := by
      cases l <;> first | rfl | exact absurd ⟨_, rfl⟩ hbody
    obtain ⟨_, _, hlog⟩ := step_costs (fun o ho => hbody ⟨o, ho⟩) hstep
    refine .inr ⟨by rw [hnone]; rfl, ?_, floors_of_starts hfloors ?_⟩
    · simp only [ActiveCall.released, mem_executed_iff, hlog]
    · exact step_starts (fun o ho => hbody ⟨o, ho⟩) hstep

-- A decrement of the body that fails.
theorem failsRelease_slots (hsettling : Settling w) (hl : w.failsRelease l = true) (hstep : w.step l = some v) :
    (w.access l).sparesSlots ∧ ¬ w.released ∧ v.released ∧ ¬ v.floors := by
  simp only [ActiveCall.failsRelease, Bool.and_eq_true, decide_eq_true_eq] at hl
  obtain ⟨hreleases, rfl⟩ := hl
  obtain ⟨stmt, body, call, row, next, hrunning, hexec, hv⟩ := bodyStep_eq_some hstep
  obtain rfl : stmt = .releaseSlot := by simpa [ActiveCall.releases, hrunning] using hreleases
  have hexecuted := bodyStep_executed hstep hrunning
  refine ⟨?_, ?_, ?_, ?_⟩
  · rw [access_running hrunning]
    rfl
  · intro hreleased
    exact absurd (hsettling.before hrunning hreleased) (Nat.lt_irrefl _)
  · simp [ActiveCall.released, hexecuted]
  · rintro ⟨after, n, hafter, hslots, _⟩
    rw [hv] at hafter
    dsimp only at hafter
    split at hafter <;> cases hafter
    obtain ⟨_, hother⟩ | ⟨_, ⟨_, hnone⟩ | ⟨n, hcount, _⟩⟩ := exec_slots hexec
    · exact hother rfl
    · rw [hnone] at hslots
      cases hslots
    · cases hcount

end Step

end Bos3000.Callback
