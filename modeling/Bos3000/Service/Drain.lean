import Bos3000.Callback.Ending
import Bos3000.Service.OpenHolds
import Bos3000.Service.SlotLeaks

-- The service drains: when no more requests and events come, each request is answered
-- and each call ends, its hold settled and its slot given back.
namespace Bos3000.Service

open Billing (Transaction)
open Callback

def Move.own : Move → Bool
  | .reply _ => true
  | .call l => l.own

-- The steps of the service's goroutines.
def Label.own : Label → Bool
  | .move _ m => m.own
  | .createAccount _ | .topup .. | .deduct .. | .initiate .. | .restart => false

-- The most that a request does from a stage on, its call included.
def stageWork : InitiateStage → Nat
  | .checkBlacklist => 105
  | .getAccount => 104
  | .countDaily _ => 103
  | .resolveRate _ => 102
  | .preDeduct _ => 101
  | .acquireSlot _ => 100
  | .pickALeg _ => 99
  | .pickBLeg .. => 98
  | .selectDID .. => 97
  | .insertCall .. => 96
  | .store .. => 95
  | .stored call => (ActiveCall.init call).work
  | .rollbackSlot _ => 4
  | .releaseSlot .. => 3
  | .floorSlot .. => 2
  | .refund .. | .uncountDaily _ => 1
  | .failed _ => 0

def Phase.work : Phase → Nat
  | .initiating stage => stageWork stage
  | .active w => w.work

def Session.work (x : Session) : Nat := if x.alive then x.phase.work else 0

def System.work (s : System) : Nat := (s.sessions.map Session.work).sum

def Phase.Over : Phase → Prop
  | .initiating stage => stage.response.isSome
  | .active w => w.Over

-- Each request is answered, and each call is over.
def System.Over (s : System) : Prop := ∀ x ∈ s.sessions, x.alive = true → x.phase.Over

section Work

theorem resume_stageWork {r : Request} {stage next : InitiateStage} {x : Reply} {access : Access}
    (h : stage.resume r x = some (next, access)) : stageWork next < stageWork stage := by
  revert h
  fun_cases InitiateStage.resume r stage x <;> intro h <;> cases h <;> simp only [stageWork, init_work] <;> decide

theorem work_of (stage : InitiateStage) : (Phase.of stage).work = stageWork stage := by
  cases stage <;> rfl

theorem Session.step_work {x : Session} {m : Move} {phase : Phase} {access : Access}
    (hstep : x.step m = some (phase, access)) :
    (m.own = true → phase.work < x.phase.work) ∧ phase.work ≤ x.phase.work + 20 := by
  obtain ⟨stage, r, next, hx, rfl, hresume, rfl⟩ | ⟨w, l, v, hx, rfl, hv, rfl, _⟩ := Session.step_eq_some hstep
  · have hwork := resume_stageWork hresume
    rw [work_of, hx]
    exact ⟨fun _ => hwork, Nat.le_add_right_of_le (Nat.le_of_lt hwork)⟩
  · rw [hx]
    cases hown : l.own with
    | true =>
        have hwork := own_work hown hv
        exact ⟨fun _ => hwork, Nat.le_add_right_of_le (Nat.le_of_lt hwork)⟩
    | false => exact ⟨fun h => (by rw [Move.own, hown] at h; cases h), outside_work hown hv⟩

theorem work_moved {s : System} {i : Nat} {x : Session} (hx : s.sessions[i]? = some x) (halive : x.alive = true)
    (shared : Shared) (phase : Phase) :
    System.work ⟨shared, s.sessions.set i { x with phase }⟩ + x.phase.work = s.work + phase.work := by
  have hset := @Machine.sum_set _ Session.work s.sessions i x { x with phase } hx
  have hold : x.work = x.phase.work := if_pos halive
  have hnew : Session.work { x with phase } = phase.work := if_pos halive
  rwa [hold, hnew] at hset

theorem work_restarted (sessions : List Session) :
    ((sessions.map fun x => { x with alive := false }).map Session.work).sum = 0 := by
  induction sessions with
  | nil => rfl
  | cons x rest ih =>
      rw [List.map_cons, List.map_cons, List.sum_cons, ih]
      rfl

-- A goroutine's step takes from the work that is left, and only requests and events
-- add to it.
theorem system_ranked : Machine.Ranked System.step Label.own Calls System.work 105 where
  keeps _ _ _ h hstep := h.step hstep
  falls s l t _ hown hstep := by
    cases System.changes hstep with
    | moved i m x phase access shared hx halive hmove happly =>
        have hwork := (Session.step_work hmove).1 hown
        have hmoved := work_moved hx halive shared phase
        omega
    | created | topped | deducted | requested | refused | restarted => cases hown
  grows s l t _ _ hstep := by
    cases System.changes hstep with
    | moved i m x phase access shared hx halive hmove happly =>
        have hwork := (Session.step_work hmove).2
        have hmoved := work_moved hx halive shared phase
        omega
    | requested auth params request hfresh =>
        have hnew : (Session.new request).work = 105 := rfl
        simp only [System.work, List.map_append, List.sum_append, List.map_singleton, List.sum_singleton, hnew]
        omega
    | restarted =>
        simp only [System.work, work_restarted]
        omega
    | created | topped | deducted | refused => exact Nat.le_add_right _ _

end Work

-- No Finalize and no decrement of a slot counter fails, and a restart finds nothing open.
def Clean (s : System) (l : Label) : Bool := Settles s l && Keeps s l

-- The session has taken its hold.
def Session.charged (x : Session) : Bool :=
  match x.phase with
  | .initiating stage => (stage.held x.request).isSome
  | .active _ => true

-- Its user has an account.
def System.Funded (s : System) : Prop :=
  ∀ x ∈ s.sessions, x.charged = true → (s.shared.ledger.rows x.request.userID).isSome

section Funded

theorem charged_of (r : Request) (stage : InitiateStage) (alive : Bool) :
    Session.charged ⟨r, Phase.of stage, alive⟩ = (stage.held r).isSome := by
  cases stage <;> rfl

theorem apply_isSome {s t : Shared} {access : Access} (happly : s.apply access = some t) {userID : UserID}
    (h : (s.ledger.rows userID).isSome) : (t.ledger.rows userID).isSome := by
  obtain ⟨account, haccount⟩ := Option.isSome_iff_exists.mp h
  obtain ⟨new, hnew, _⟩ := apply_account happly haccount
  exact Option.isSome_of_eq_some hnew

theorem charged_step {s t : Shared} {x : Session} {m : Move} {phase : Phase} {access : Access}
    (hstep : x.step m = some (phase, access)) (happly : s.apply access = some t)
    (h : x.charged = true → (s.ledger.rows x.request.userID).isSome)
    (hcharged : Session.charged { x with phase } = true) : (t.ledger.rows x.request.userID).isSome := by
  obtain ⟨stage, r, next, hx, rfl, hresume, rfl⟩ | ⟨w, l, v, hx, rfl, hv, rfl, _⟩ := Session.step_eq_some hstep
  · rw [charged_of] at hcharged
    obtain ⟨hold, rfl, rfl, rfl⟩ | ⟨hold, e, rfl, _, rfl, rfl⟩ | ⟨_, ⟨e, rfl, _⟩ | hheld⟩ :=
      resume_cases hresume
    · obtain ⟨ledger, hrun, rfl⟩ := Option.map_eq_some_iff.mp happly
      obtain ⟨_, new, _, _, _, rfl⟩ := RowLock.Store.exec_eq_some.mp hrun
      exact Option.isSome_of_eq_some (Function.update_self ..)
    · cases hcharged
    · cases hcharged
    · refine apply_isSome happly (h ?_)
      simp only [Session.charged, hx, ← hheld, hcharged]
  · refine apply_isSome happly (h ?_)
    simp only [Session.charged, hx]

theorem System.Funded.step {s t : System} {l : Label} (h : s.Funded) (hstep : s.step l = some t) : t.Funded := by
  have hchanges := System.changes hstep
  have hkept : ∀ userID, (s.shared.ledger.rows userID).isSome → (t.shared.ledger.rows userID).isSome := by
    intro userID hsome
    obtain ⟨account, haccount⟩ := Option.isSome_iff_exists.mp hsome
    obtain ⟨new, hnew, _⟩ := hchanges.account haccount
    exact Option.isSome_of_eq_some hnew
  cases hchanges with
  | created | topped | deducted | refused => exact fun x hx hcharged => hkept _ (h x hx hcharged)
  | requested auth params request hfresh =>
      intro x hx hcharged
      rcases List.mem_append.mp hx with hx | hx
      · exact hkept _ (h x hx hcharged)
      · rw [List.mem_singleton.mp hx] at hcharged
        cases hcharged
  | moved i m x phase access shared hx halive hmove happly =>
      intro y hy hcharged
      rcases List.mem_or_eq_of_mem_set hy with hy | rfl
      · exact hkept _ (h y hy hcharged)
      · have hnew := charged_step hmove happly (h x (List.mem_of_getElem? hx)) hcharged
        exact hnew
  | restarted =>
      intro x hx hcharged
      obtain ⟨y, hy, rfl⟩ := List.mem_map.mp hx
      exact h y hy hcharged

theorem funded_run {labels : List Label} {s : System} (hrun : run labels = some s) : s.Funded :=
  Machine.invariant (fun _ _ _ h hstep => h.step hstep) (fun _ hx => (by cases hx)) hrun

end Funded

section Progress

variable {s : Shared} {r : Request}

theorem transact_isSome {op : Billing.Op} (hrow : (s.ledger.rows op.userID).isSome)
    (hop : ∀ account, ∃ new, op.apply account = .ok new) : (s.apply (.transact op)).isSome := by
  obtain ⟨account, haccount⟩ := Option.isSome_iff_exists.mp hrow
  obtain ⟨⟨new, tx⟩, hnew⟩ := hop account
  have hrun : s.ledger.run op = some ⟨_, _⟩ :=
    RowLock.Store.exec_eq_some.mpr ⟨account, new, tx, haccount, Billing.Op.effect_eq_some.mpr hnew, rfl⟩
  simp only [Shared.apply, hrun, Option.map_some, Option.isSome_some]

theorem increment_isSome (userID : UserID) (delta : Int) :
    (s.apply (.increment userID delta (s.slots userID + delta))).isSome := by
  simp [Shared.apply]

-- A request that is not answered goes on: an operation fails, or it gives back what it
-- has taken.
theorem stage_progress {stage : InitiateStage} (hresponse : stage.response = none)
    (hrow : (stage.held r).isSome → (s.ledger.rows r.userID).isSome) :
    ∃ x next access, stage.resume r x = some (next, access) ∧ (s.apply access).isSome ∧
      ∀ alive, Session.failsFinalize ⟨r, .initiating stage, alive⟩ (.reply x) = false ∧
        Session.failsDecrement ⟨r, .initiating stage, alive⟩ (.reply x) = false := by
  have e : APIError := ⟨.Unavailable, ""⟩
  cases stage with
  | checkBlacklist | getAccount | countDaily | uncountDaily | resolveRate | preDeduct | acquireSlot | pickALeg
  | pickBLeg | selectDID | insertCall | floorSlot => exact ⟨.fault e, _, _, rfl, rfl, fun _ => ⟨rfl, rfl⟩⟩
  | rollbackSlot hold => exact ⟨.count _, _, _, rfl, increment_isSome _ _, fun _ => ⟨rfl, rfl⟩⟩
  | releaseSlot hold f =>
      have hincrement := @increment_isSome s r.userID (-1)
      by_cases hneg : s.slots r.userID + -1 < 0
      · exact ⟨.count (s.slots r.userID + -1), _, _, if_pos hneg, hincrement, fun _ => ⟨rfl, rfl⟩⟩
      · exact ⟨.count (s.slots r.userID + -1), _, _, if_neg hneg, hincrement, fun _ => ⟨rfl, rfl⟩⟩
  | refund hold f => exact ⟨.ok, _, _, rfl, transact_isSome (hrow rfl) fun _ => ⟨_, rfl⟩,
      fun _ => ⟨rfl, rfl⟩⟩
  | store hold a b callerID => exact ⟨.ok, _, _, rfl, rfl, fun _ => ⟨rfl, rfl⟩⟩
  | failed | stored => cases hresponse

-- A body that runs goes on, with nothing failing.
theorem body_progress {w : ActiveCall} {stmt : Stmt} {body : Body}
    (hrunning : w.finalized = .running { body with todo := stmt :: body.todo })
    (hrow : (s.ledger.rows w.call.userID).isSome) :
    ∃ o v, w.bodyStep o = some v ∧ (s.apply (w.access (.body o))).isSome ∧
      ∀ r alive, Session.failsFinalize ⟨r, .active w, alive⟩ (.call (.body o)) = false ∧
        Session.failsDecrement ⟨r, .active w, alive⟩ (.call (.body o)) = false := by
  have hgoes : ∃ o call row next, o ≠ .fault ∧ stmt.exec w.call w.row body o = some (call, row, next) ∧
      (s.apply (stmt.access w.call body.slots o)).isSome := by
    cases stmt with
    | now => exact ⟨.time 0, _, _, _, by decide, rfl, rfl⟩
    | wastage => exact ⟨.config none, _, _, _, by decide, rfl, rfl⟩
    | billingFinalize => exact ⟨.ok, _, _, _, by decide, rfl, transact_isSome hrow fun _ => ⟨_, rfl⟩⟩
    | releaseSlot => exact ⟨.count _, _, _, _, Outcome.noConfusion, rfl, increment_isSome _ _⟩
    | floorSlot =>
        refine ⟨.ok, _, _, _, by decide, rfl, ?_⟩
        simp only [Stmt.access]
        split <;> rfl
    | _ => exact ⟨.ok, _, _, _, by decide, rfl, rfl⟩
  obtain ⟨o, call, row, next, hfault, hexec, happly⟩ := hgoes
  have hsome : (w.bodyStep o).isSome := by
    simp only [ActiveCall.bodyStep, hrunning, Option.isSome_map]
    exact Option.isSome_of_eq_some hexec
  obtain ⟨v, hv⟩ := Option.isSome_iff_exists.mp hsome
  refine ⟨o, v, hv, ?_, fun r alive => ⟨?_, ?_⟩⟩
  · rw [access_running hrunning]
    exact happly
  · cases o <;> first | rfl | exact absurd rfl hfault
  · cases o <;> first | exact absurd rfl hfault | simp [Session.failsDecrement, ActiveCall.failsRelease]

end Progress

theorem Admitted.awaitsBody {request : Request} {w : ActiveCall} (h : Admitted request w) : AwaitsBody w := by
  obtain ⟨_, _, _, _, _, hrun⟩ := h
  exact awaitsBody_run hrun

-- A system whose goroutines can do nothing without a failure is over.
theorem over_of_drained {s : System} (hcalls : Calls s) (hfunded : s.Funded)
    (h : Machine.Drained (Machine.restrict Clean System.step) Label.own s) : s.Over := by
  intro x hx halive
  obtain ⟨i, hi⟩ := List.getElem?_of_mem hx
  by_contra hover
  have hmove : ∀ m phase access, m.own = true → x.step m = some (phase, access) →
      (s.shared.apply access).isSome →
      x.failsFinalize m = false ∧ x.failsDecrement m = false → False := by
    rintro m phase access hown hstep happly ⟨hfinalize, hdecrement⟩
    obtain ⟨shared, hshared⟩ := Option.isSome_iff_exists.mp happly
    have hclean : Clean s (.move i m) = true := by simp [Clean, Settles, Keeps, hi, hfinalize, hdecrement]
    have hnext : s.step (.move i m) = some ⟨shared, s.sessions.set i { x with phase }⟩ := by
      simp only [System.step, hi, halive, if_true, hstep, Option.bind_some, hshared, Option.map_some]
    have hnone := h (.move i m) hown
    rw [Machine.restrict_eq_some.mpr ⟨hclean, hnext⟩] at hnone
    cases hnone
  obtain ⟨request, phase, alive⟩ := x
  cases phase with
  | initiating stage =>
      have hresponse : stage.response = none := by simpa [Phase.Over] using hover
      obtain ⟨r, next, access, hresume, happly, hclean⟩ :=
        @stage_progress s.shared request stage hresponse (hfunded _ hx)
      exact hmove (.reply r) _ _ rfl (by simp only [Session.step, hresume]; rfl) happly (hclean alive)
  | active w =>
      have hadmitted := (hcalls.valid _ hx).admitted w rfl
      obtain ⟨stmt, body, hrunning⟩ | ⟨l, v, hown, hbody, hstep⟩ :=
        progress hadmitted.settling hadmitted.awaitsBody hover
      · have hrow : (s.shared.ledger.rows w.call.userID).isSome := by
          rw [hadmitted.callID.2]
          exact hfunded _ hx rfl
        obtain ⟨o, v, hv, happly, hclean⟩ := body_progress hrunning hrow
        have hstep : w.step (.body o) = some v := hv
        exact hmove (.call (.body o)) _ _ rfl (by simp only [Session.step, hstep]; rfl) happly (hclean request alive)
      · have hnone : w.access l = .none := by
          cases l <;> first | rfl | exact absurd rfl (hbody _)
        refine hmove (.call l) _ _ hown (by simp only [Session.step, hstep]; rfl) (by rw [hnone]; rfl) ⟨?_, ?_⟩
        · cases l <;> first | rfl | exact absurd rfl (hbody _)
        · have hfault := hbody .fault
          simp [Session.failsDecrement, ActiveCall.failsRelease, hfault]

section Over

variable {s : System}

theorem System.Over.ended (h : s.Over) (hcalls : Calls s) : ∀ x ∈ s.sessions, x.alive = true →
    x.ended = true := by
  intro x hx halive
  have hover := h x hx halive
  obtain ⟨request, phase, alive⟩ := x
  cases phase with
  | initiating stage => exact hover
  | active w =>
      have hsettling := ((hcalls.valid _ hx).admitted w rfl).settling
      simpa [Session.ended] using hsettling.body.inMap.mpr hover.finalized

theorem System.Over.resting (h : s.Over) : s.resting := by
  intro x hx halive
  have hover := h x hx halive
  obtain ⟨request, phase, alive⟩ := x
  cases phase with
  | initiating stage => exact hover
  | active w => simp [Session.resting, hover.finalized]

-- Nobody holds a slot any more.
theorem System.Over.slots {labels : List Label} (h : s.Over) (hrun : runUnder Keeps labels = some s) (userID : UserID) :
    s.shared.slots userID = 0 := by
  have hcalls := calls_run (run_of_runUnder hrun)
  have hcounted := counted_run (Machine.restrict_mono (fun _ _ => Keeps.decrements) hrun)
  have hnone : ∀ x ∈ s.sessions, x.holdsSlot = false ∧ x.rollsBack = false := by
    intro x hx
    obtain ⟨hholds, hrolls⟩ := Session.resting_slots (hcalls.valid x hx) (dead_run hrun x hx) (h.resting x hx)
    refine ⟨?_, hrolls⟩
    rw [hholds]
    have hended := h.ended hcalls x hx
    obtain ⟨request, phase, alive⟩ := x
    cases phase with
    | initiating stage => rfl
    | active w =>
        cases alive with
        | false => rfl
        | true => simpa [Session.ended, Session.inActiveCalls] using hended rfl
  have hholders : s.holders userID = 0 := List.countP_eq_zero.mpr fun x hx => by simp [(hnone x hx).1]
  have hrolling : s.rollingBack userID = 0 := List.countP_eq_zero.mpr fun x hx => by simp [(hnone x hx).2]
  rw [hcounted.counter, hholders, hrolling]
  rfl

end Over

-- In every run of the service its goroutines do at most 105 steps for each request and
-- event. A state in which none can go on is one where every request is answered and
-- every call over. From any state they can come to such a state without a failure, and
-- if there was none before either, each call then has its hold with one settlement, or
-- nothing, and every slot counter is 0.
theorem drains {labels : List Label} {s : System} (hrun : run labels = some s) :
    labels.countP Label.own ≤ 105 * labels.countP (fun l => !l.own) ∧
      (Machine.Drained System.step Label.own s → s.Over) ∧
      ∃ more t, (∀ l ∈ more, l.own = true) ∧
        Machine.run (Machine.restrict Clean System.step) s more = some t ∧ t.Over ∧
        (runUnder Clean labels = some s →
          (∀ x ∈ t.sessions, t.rowsOf x.request.callID = [] ∨ ∃ p, Settled p (t.rowsOf x.request.callID)) ∧
            ∀ userID, t.shared.slots userID = 0) := by
  have hcalls := calls_run hrun
  have hfunded := funded_run hrun
  refine ⟨?_, fun h => over_of_drained hcalls hfunded h.restrict, ?_⟩
  · have hcount := system_ranked.count_le calls_empty hrun
    have hempty : System.empty.work = 0 := rfl
    omega
  · obtain ⟨more, t, hown, hmore, hdrained⟩ := (system_ranked.restrict Clean).reach_drained hcalls
    have hall : run (labels ++ more) = some t := by
      rw [run, Machine.run_append, show Machine.run System.step System.empty labels = some s from hrun]
      exact Machine.run_of_restrict hmore
    have hover := over_of_drained (calls_run hall) (funded_run hall) hdrained
    refine ⟨more, t, hown, hmore, hover, fun hclean => ?_⟩
    have hcleanly : runUnder Clean (labels ++ more) = some t := by
      rw [runUnder, Machine.run_append, show Machine.run _ System.empty labels = some s from hclean]
      exact hmore
    have hsettles : runUnder Settles (labels ++ more) = some t :=
      Machine.restrict_mono (fun _ _ h => (Bool.and_eq_true_iff.mp h).1) hcleanly
    have hkeeps : runUnder Keeps (labels ++ more) = some t :=
      Machine.restrict_mono (fun _ _ h => (Bool.and_eq_true_iff.mp h).2) hcleanly
    have hafter := calls_run hall
    exact ⟨fun x hx => (closes_run hsettles x hx).closed (hafter.valid x hx) (hover.ended hafter x hx),
      hover.slots hkeeps⟩

-- A call that was just stored comes to its end, with its slot given back.
theorem drains_admitted : ∃ s more t, run admitted = some s ∧ s.shared.slots 1 = 1 ∧
    Machine.run (Machine.restrict Clean System.step) s more = some t ∧ t.Over ∧ t.shared.slots 1 = 0 := by
  have hrun : ∃ s, runUnder Clean admitted = some s ∧ s.shared.slots 1 = 1 := ⟨_, rfl, by decide⟩
  obtain ⟨s, hclean, hslots⟩ := hrun
  obtain ⟨_, _, more, t, _, hmore, hover, hend⟩ := drains (run_of_runUnder hclean)
  exact ⟨s, more, t, run_of_runUnder hclean, hslots, hmore, hover, (hend hclean).2 1⟩

end Bos3000.Service
