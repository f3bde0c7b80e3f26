import Bos3000.Service.Holds

-- Where the money of an account is: what was paid in and not withdrawn is its
-- balance, the open holds of its calls and the costs of those that were billed.
namespace Bos3000.Service

open Billing (Account FinalizeParams Op Transaction)
open Callback

-- The hold that no second row settles.
def openHold : List Transaction → Money
  | [hold] => hold.amount
  | _ => 0

-- What the Finalize of an active call charged.
def Session.cost (x : Session) : Money :=
  match x.phase with
  | .initiating _ => 0
  | .active w => if w.billed then (finalizeParams w.call).actualCost else 0

def System.charge (s : System) (x : Session) : Money :=
  openHold (s.rowsOf x.request.callID) + x.cost

def System.charges (s : System) (userID : UserID) : Money :=
  (s.sessions.map fun x => if x.request.userID = userID then s.charge x else 0).sum

-- Top-ups less deductions, as the requests of a run name them.
def deposit (userID : UserID) : Label → Money
  | .topup owner amount => if owner = userID then amount.value else 0
  | .deduct owner amount => if owner = userID then -amount.value else 0
  | _ => 0

def deposits (userID : UserID) (labels : List Label) : Money := (labels.map (deposit userID)).sum

-- A user without an account has nothing.
def System.funds (s : System) (userID : UserID) : Money :=
  ((s.shared.ledger.rows userID).map Account.balance).getD 0

theorem deposits_concat (userID : UserID) (labels : List Label) (l : Label) :
    deposits userID (labels ++ [l]) = deposits userID labels + deposit userID l := by
  simp [deposits]

theorem sum_map_set {α : Type*} {l : List α} {i : Nat} {x y : α} {f g : α → Money} (hx : l[i]? = some x)
    (hsame : ∀ j z, l[j]? = some z → j ≠ i → g z = f z) :
    ((l.set i y).map g).sum = (l.map f).sum + (g y - f x) := by
  induction l generalizing i with
  | nil => cases hx
  | cons head tail ih =>
      cases i with
      | zero =>
          simp only [List.getElem?_cons_zero, Option.some.injEq] at hx
          subst hx
          have htail : tail.map g = tail.map f := by
            apply List.map_congr_left
            intro z hz
            obtain ⟨j, hj⟩ := List.getElem?_of_mem hz
            exact hsame (j + 1) z hj (Nat.succ_ne_zero j)
          simp only [List.set_cons_zero, List.map_cons, List.sum_cons, htail]
          grind
      | succ i =>
          have hrest := ih hx fun j z hj hne => hsame (j + 1) z hj (by omega)
          have hhead : g head = f head := hsame 0 head rfl (Nat.zero_ne_add_one i)
          simp only [List.set_cons_succ, List.map_cons, List.sum_cons, hrest, hhead]
          grind

-- What an access adds to the balance of a user.
def moved (userID : UserID) : Access → Money
  | .transact op => if op.userID = userID then op.signed else 0
  | _ => 0

theorem apply_balance {s t : System} {access : Access} (h : s.shared.apply access = some t.shared)
    (userID : UserID) : t.funds userID = s.funds userID + moved userID access := by
  obtain ⟨shared, sessions⟩ := t
  cases access with
  | transact op =>
      obtain ⟨ledger, hrun, rfl⟩ := Option.map_eq_some_iff.mp h
      obtain ⟨account, new, tx, haccount, heffect, rfl⟩ := RowLock.Store.exec_eq_some.mp hrun
      have happlied := Billing.Op.effect_eq_some.mp heffect
      have hrecorded := Billing.Op.recorded happlied
      have hkey : op.operation.key = op.userID := rfl
      rw [hkey] at haccount
      by_cases huser : op.userID = userID
      · subst huser
        simp [System.funds, moved, hkey, haccount, hrecorded.balance, hrecorded.balanceAfter,
          Billing.Op.signed_eq happlied]
      · simp [System.funds, moved, hkey, huser, Function.update_of_ne (Ne.symm huser)]
  | none | account | increment | setSlot | countDaily =>
      simp only [Shared.apply] at h
      try split at h
      all_goals
        cases h
        try simp [System.funds, moved]

theorem moved_of_not_transact {access : Access} (h : ∀ op, access ≠ .transact op) (userID : UserID) :
    moved userID access = 0 := by
  cases access with
  | transact op => exact absurd rfl (h op)
  | none | account | increment | setSlot | countDaily => rfl

theorem moved_of_owner {access : Access} {owner : UserID} (h : ∀ op, access = .transact op → op.userID = owner)
    (userID : UserID) : moved userID access = if owner = userID then moved owner access else 0 := by
  cases access with
  | transact op =>
      rw [← h op rfl]
      simp [moved]
  | none | account | increment | setSlot | countDaily => simp [moved]

theorem moved_transact (op : Op) : moved op.userID (.transact op) = op.signed := if_pos rfl

theorem Held.open {amount : Money} {rows : List Transaction} (h : Held amount rows) : openHold rows = amount := by
  obtain ⟨hold, rfl, _, hamount⟩ := h
  exact hamount

theorem Settled.open {p : FinalizeParams} {rows : List Transaction} (h : Settled p rows) : openHold rows = 0 := by
  obtain ⟨hold, account, rfl, _⟩ := h
  rfl

-- A request has not been billed, nor has a call when it is stored.
theorem cost_of (request : Request) (stage : InitiateStage) (alive : Bool) :
    Session.cost ⟨request, Phase.of stage, alive⟩ = 0 := by
  cases stage <;> rfl

theorem refundParams_diff (hold : Hold) (request : Request) :
    (hold.refundParams request).diff = hold.amount request := by
  have hcost : (hold.refundParams request).actualCost = 0 := rfl
  simp only [FinalizeParams.diff, hcost, Int64.sub_zero]
  rfl

theorem resume_charge {r : Request} {stage next : InitiateStage} {x : Reply} {access : Access}
    {rows new : List Transaction} (h : StageInv r stage rows)
    (hresume : stage.resume r x = some (next, access)) (hwrites : Writes access new) :
    openHold (rows ++ new) + moved r.userID access = openHold rows := by
  obtain ⟨hold, rfl, rfl, rfl⟩ | ⟨hold, e, rfl, _, rfl, rfl⟩ | ⟨hno, _⟩ := resume_cases hresume
  · have hnil : rows = [] := by
      obtain rfl | ⟨⟨_, hfailed⟩, _⟩ := h
      · rfl
      · cases hfailed
    subst hnil
    cases hwrites with
    | nothing hno => exact absurd rfl (hno _)
    | row hop =>
        have hopen := (held_preDeduct hop).open
        have hmoved := moved_transact (.preDeduct (hold.preDeductParams r))
        simp only [List.nil_append, hopen]
        rw [show moved r.userID _ = _ from hmoved]
        simp [Op.signed, openHold, Int64.add_right_neg]
  · cases hwrites with
    | nothing hno => exact absurd rfl (hno _)
    | row hop =>
        have hheld : Held (hold.amount r) rows := h
        have hsettled := Held.settle (p := hold.refundParams r) hheld hop
        have hmoved := moved_transact (.finalize (hold.refundParams r))
        rw [hsettled.open, hheld.open, show moved r.userID _ = _ from hmoved]
        simp [Op.signed, refundParams_diff]
  · rw [hwrites.eq_nil hno, List.append_nil, moved_of_not_transact hno]
    simp

theorem call_charge {w v : ActiveCall} {l : Callback.Label} {rows new : List Transaction} (h : CallInv w rows)
    (hsettling : Settling w) (hstep : w.step l = some v) (hwrites : Writes (w.access l) new) (request : Request)
    (alive : Bool) :
    openHold (rows ++ new) + Session.cost ⟨request, .active v, alive⟩ + moved w.call.userID (w.access l) =
      openHold rows + Session.cost ⟨request, .active w, alive⟩ := by
  by_cases hop : ∃ op, w.access l = .transact op
  · have hbilled := (step_billed hstep).mpr (.inr hop)
    have hparams := step_finalizeParams hsettling hstep (.inr hop)
    obtain ⟨op, haccess⟩ := hop
    obtain ⟨body, _, hrunning, rfl⟩ := access_transact hstep haccess
    have hnot := notBilled_of_running hsettling hrunning
    rw [haccess] at hwrites ⊢
    cases hwrites with
    | nothing hno => exact absurd rfl (hno _)
    | row hop =>
        have hheld := h.1 hnot
        have hsettled := Held.settle (p := finalizeParams w.call) hheld hop
        have hmoved := moved_transact (.finalize (finalizeParams w.call))
        rw [hsettled.open, hheld.open, show moved w.call.userID _ = _ from hmoved]
        simp only [Session.cost, if_pos hbilled, if_neg hnot, hparams, Op.signed, FinalizeParams.diff]
        have hamount : (finalizeParams w.call).preDeductAmount = w.call.preDeductAmount := rfl
        rw [hamount]
        grind
  · have hno : ∀ op, w.access l ≠ .transact op := fun op haccess => hop ⟨op, haccess⟩
    have hsame : Session.cost ⟨request, .active v, alive⟩ = Session.cost ⟨request, .active w, alive⟩ := by
      have hbilled : v.billed ↔ w.billed := by
        rw [step_billed hstep]
        exact or_iff_left hop
      by_cases hw : w.billed
      · simp only [Session.cost, if_pos hw, if_pos (hbilled.mpr hw), step_finalizeParams hsettling hstep (.inl hw)]
      · simp only [Session.cost, if_neg hw, if_neg (mt hbilled.mp hw)]
    rw [hwrites.eq_nil hno, List.append_nil, moved_of_not_transact hno, hsame, Int64.add_zero]

-- What a move takes from the user's account is charged to the session's call.
theorem step_charge {x : Session} (hvalid : x.Valid) {rows new : List Transaction} (h : HoldInv x rows)
    {m : Move} {phase : Phase} {access : Access} (hstep : x.step m = some (phase, access))
    (hwrites : Writes access new) :
    openHold (rows ++ new) + Session.cost { x with phase } + moved x.request.userID access =
      openHold rows + x.cost := by
  obtain ⟨request, current, alive⟩ := x
  obtain ⟨stage, r, next, hstage, _, hresume, rfl⟩ | ⟨w, l, v, hw, _, hv, rfl, rfl⟩ :=
    Session.step_eq_some hstep
  · subst hstage
    have hcharge := resume_charge h hresume hwrites
    have hcost : Session.cost ⟨request, .initiating stage, alive⟩ = 0 := rfl
    rw [cost_of, hcost, Int64.add_zero, Int64.add_zero]
    exact hcharge
  · subst hw
    have hadmitted := hvalid.admitted w rfl
    have hcharge := call_charge h hadmitted.settling hv hwrites request alive
    rw [hadmitted.callID.2] at hcharge
    exact hcharge

-- An account begins with nothing.
theorem insert_balance {s : System} {request : Billing.AccountRequest} {ledger : Billing.Ledger}
    (hinsert : s.shared.ledger.insert (Billing.createAccount request).1 (Billing.createAccount request).2 =
      some ledger) (userID : UserID) :
    System.funds { s with shared := { s.shared with ledger } } userID = s.funds userID := by
  obtain ⟨hnone, rfl⟩ := RowLock.Store.insert_eq_some.mp hinsert
  by_cases huser : userID = (Billing.createAccount request).1
  · subst huser
    simp only [System.funds, Function.update_self, hnone]
    rfl
  · simp only [System.funds, Function.update_of_ne huser]

theorem charges_congr {s t : System} {userID : UserID} (hsessions : t.sessions = s.sessions)
    (hrows : ∀ callID, t.rowsOf callID = s.rowsOf callID) : t.charges userID = s.charges userID := by
  simp only [System.charges, System.charge, hsessions, hrows]

-- The rows of a top-up and of a deduction belong to no call.
theorem rowsOf_unreferenced {s t : System} {op : Op} (hop : op.reference = none)
    (happly : s.shared.apply (.transact op) = some t.shared) (callID : String) :
    t.rowsOf callID = s.rowsOf callID := by
  obtain ⟨rows, owner, hwrites, hlog⟩ := apply_writes happly
  have hnone : (rows.filter fun tx => tx.referenceID = some callID) = [] := by
    apply hwrites.filter_eq_nil
    intro other hother
    cases hother
    rw [hop]
    exact (Option.some_ne_none callID).symm
  rw [rowsOf_append (s := s) hlog, hnone, List.append_nil]

theorem charges_unreferenced {s : System} (op : Op) {shared : Shared} (hop : op.reference = none)
    (happly : s.shared.apply (.transact op) = some shared) (userID : UserID) :
    System.funds { s with shared } userID + System.charges { s with shared } userID =
      s.funds userID + s.charges userID + if op.userID = userID then op.signed else 0 := by
  have hcharges : System.charges { s with shared } userID = s.charges userID :=
    charges_congr rfl (rowsOf_unreferenced hop happly)
  rw [apply_balance (s := s) happly userID, hcharges]
  simp only [moved]
  grind

theorem charges_move {s : System} (hcalls : Calls s) {i : Nat} {m : Move} {x : Session} {phase : Phase}
    {access : Access} {shared : Shared} (hhold : HoldInv x (s.rowsOf x.request.callID))
    (hx : s.sessions[i]? = some x) (hmove : x.step m = some (phase, access))
    (happly : s.shared.apply access = some shared) (userID : UserID) :
    System.funds ⟨shared, s.sessions.set i { x with phase }⟩ userID +
        System.charges ⟨shared, s.sessions.set i { x with phase }⟩ userID =
      s.funds userID + s.charges userID := by
  have hvalid := hcalls.valid x (List.mem_of_getElem? hx)
  obtain ⟨rows, owner, hwrites, hlog⟩ := apply_writes happly
  have hrowsOf := rowsOf_append (s := s) (t := ⟨shared, s.sessions.set i { x with phase }⟩) hlog
  have howner : ∀ op, access = .transact op → op.reference = some x.request.callID :=
    fun op hop => (step_transact hvalid (hop ▸ hmove)).1
  have hother : ∀ j z, s.sessions[j]? = some z → j ≠ i →
      System.charge ⟨shared, s.sessions.set i { x with phase }⟩ z = s.charge z := by
    intro j z hz hij
    have hnone : (rows.filter fun tx => tx.referenceID = some z.request.callID) = [] := by
      apply hwrites.filter_eq_nil
      intro op hop hreference
      rw [howner op hop] at hreference
      exact hcalls.callID_ne hx hz (Ne.symm hij) (Option.some.inj hreference)
    simp only [System.charge, hrowsOf, hnone, List.append_nil]
  have huser : ∀ op, access = .transact op → op.userID = x.request.userID :=
    fun op hop => (step_transact hvalid (hop ▸ hmove)).2
  have hmoved := moved_of_owner huser userID
  have hown := step_charge hvalid hhold hmove hwrites
  have hbalance := apply_balance (s := s) (t := ⟨shared, s.sessions.set i { x with phase }⟩) happly userID
  have hsum := sum_map_set (y := { x with phase })
    (f := fun x => if x.request.userID = userID then s.charge x else 0)
    (g := fun y => if y.request.userID = userID then
      System.charge ⟨shared, s.sessions.set i { x with phase }⟩ y else 0) hx ?_
  · have hcharge : System.charge ⟨shared, s.sessions.set i { x with phase }⟩ { x with phase } =
        openHold (s.rowsOf x.request.callID ++ rows) + Session.cost { x with phase } := by
      simp only [System.charge, hrowsOf, hwrites.filter_eq_self howner]
    have hsystem : System.charges ⟨shared, s.sessions.set i { x with phase }⟩ userID = _ := hsum
    rw [hsystem, hbalance, hmoved]
    simp only [hcharge, System.charges]
    split
    · simp only [System.charge]
      grind
    · grind
  · intro j z hz hij
    simp only [hother j z hz hij]

theorem charges_requested {s : System} (hcalls : Calls s) {request : Request} (hfresh : s.fresh request.callID = true)
    (userID : UserID) :
    System.charges { s with sessions := s.sessions ++ [Session.new request] } userID = s.charges userID := by
  have hrows : s.rowsOf (Session.new request).request.callID = [] := hcalls.fresh hfresh
  have hnew : System.charge { s with sessions := s.sessions ++ [Session.new request] } (Session.new request) = 0 := by
    have hkept : System.rowsOf { s with sessions := s.sessions ++ [Session.new request] } = s.rowsOf := rfl
    rw [System.charge, hkept, hrows]
    rfl
  have hlast : ([Session.new request].map fun x => if x.request.userID = userID then
      System.charge { s with sessions := s.sessions ++ [Session.new request] } x else 0).sum = 0 := by
    simp [hnew]
  simp only [System.charges, List.map_append]
  rw [List.sum_append, hlast, Int64.add_zero]
  rfl

theorem charges_step {s t : System} {l : Label} (hcalls : Calls s)
    (hholds : ∀ x ∈ s.sessions, HoldInv x (s.rowsOf x.request.callID)) (hstep : s.step l = some t)
    (userID : UserID) :
    t.funds userID + t.charges userID = s.funds userID + s.charges userID + deposit userID l := by
  cases System.changes hstep with
  | created request ledger hinsert =>
      have hcharges : System.charges { s with shared := { s.shared with ledger } } userID = s.charges userID := by
        refine charges_congr rfl fun callID => ?_
        simp only [System.rowsOf, (RowLock.Store.insert_eq_some.mp hinsert).2]
      rw [insert_balance hinsert, hcharges]
      exact (Int64.add_zero _).symm
  | topped owner amount shared happly =>
      exact charges_unreferenced (.topup owner amount) rfl happly userID
  | deducted owner amount shared happly =>
      exact charges_unreferenced (.deduct owner amount) rfl happly userID
  | requested auth params request hfresh =>
      rw [charges_requested hcalls hfresh]
      exact (Int64.add_zero _).symm
  | refused => exact (Int64.add_zero _).symm
  | moved i m x phase access shared hx halive hmove happly =>
      have hcharges := charges_move hcalls (hholds x (List.mem_of_getElem? hx)) hx hmove happly userID
      rw [hcharges]
      exact (Int64.add_zero _).symm
  | restarted =>
      have hcharges : System.charges { s with sessions := s.sessions.map fun x => { x with alive := false } } userID =
          s.charges userID := by
        simp only [System.charges, List.map_map]
        rfl
      rw [hcharges]
      exact (Int64.add_zero _).symm

theorem charges_run {labels : List Label} {s : System} (hrun : run labels = some s) (userID : UserID) :
    s.funds userID + s.charges userID = deposits userID labels := by
  refine Machine.run_induction
    (motive := fun labels s => s.funds userID + s.charges userID = deposits userID labels) rfl ?_ hrun
  intro labels l s t hs h hstep
  rw [charges_step (calls_run hs) (holdInv_run hs) hstep userID, h, deposits_concat]

-- What a call is charged: the hold that its request has taken, also where the
-- Finalize that would give it back fails; the hold in its record until it is
-- billed, and from then on the cost there.
def ChargedFor (x : Session) (rows : List Transaction) (amount : Money) : Prop :=
  match x.phase with
  | .initiating (.failed _) => amount = 0 ∨ Held amount rows
  | .initiating stage => amount = (stage.held x.request).getD 0
  | .active w =>
      (¬ w.billed → amount = w.row.preDeductAmount) ∧ (w.billed → w.persisted → amount = w.row.totalCost)

theorem StageInv.charged {r : Request} {stage : InitiateStage} {rows : List Transaction} (h : StageInv r stage rows)
    (alive : Bool) : ChargedFor ⟨r, .initiating stage, alive⟩ rows (openHold rows) := by
  have hheld : ∀ amount, stage.held r = some amount → openHold rows = amount := by
    intro amount hamount
    simp only [StageInv, hamount] at h
    exact h.open
  have hnone : stage.held r = none → (∀ e, stage ≠ .failed e) → openHold rows = 0 := by
    intro hnone hrunning
    simp only [StageInv, hnone] at h
    obtain rfl | ⟨⟨e, hfailed⟩, _⟩ := h
    · rfl
    · exact absurd hfailed (hrunning e)
  cases stage with
  | failed e =>
      obtain rfl | ⟨_, ⟨amount, hopen⟩ | ⟨p, hsettled⟩⟩ := h
      · exact .inl rfl
      · exact .inr (hopen.open ▸ hopen)
      · exact .inl hsettled.open
  | _ => first | exact hheld _ rfl | exact hnone rfl (fun _ => InitiateStage.noConfusion)

theorem active_charged {labels : List Label} {s : System} (hrun : run labels = some s) {x : Session}
    (hx : x ∈ s.sessions) {w : ActiveCall} (hactive : x.phase = .active w) :
    (¬ w.billed → s.charge x = w.row.preDeductAmount) ∧
      (w.billed → w.persisted → s.charge x = w.row.totalCost) := by
  have hadmitted := ((calls_run hrun).valid x hx).admitted w hactive
  have hinv := holdInv_run hrun x hx
  simp only [HoldInv, hactive] at hinv
  constructor
  · intro hnot
    have hamount : (finalizeParams w.call).preDeductAmount = w.call.preDeductAmount := rfl
    simp only [System.charge, Session.cost, hactive, if_neg hnot, (hinv.1 hnot).open, hadmitted.row.2, hamount]
    exact Int64.add_zero _
  · intro hbilled hpersisted
    simp only [System.charge, Session.cost, hactive, if_pos hbilled, (hinv.2 hbilled).open,
      (hadmitted.costs hbilled hpersisted).1]
    exact Int64.zero_add _

theorem charged_run {labels : List Label} {s : System} (hrun : run labels = some s) {x : Session}
    (hx : x ∈ s.sessions) : ChargedFor x (s.rowsOf x.request.callID) (s.charge x) := by
  have hinv := holdInv_run hrun x hx
  have hactive := fun w => active_charged hrun hx (w := w)
  obtain ⟨request, phase, alive⟩ := x
  cases phase with
  | initiating stage =>
      have hcharge : s.charge ⟨request, .initiating stage, alive⟩ = openHold (s.rowsOf request.callID) :=
        Int64.add_zero _
      rw [hcharge]
      exact StageInv.charged hinv alive
  | active w => exact hactive w rfl

-- Whatever requests, calls, top-ups and restarts interleave: an account holds
-- what was paid in, less what was withdrawn and what its calls are charged.
theorem money_accounted {labels : List Label} {s : System} (hrun : run labels = some s) {userID : UserID}
    {account : Account} (haccount : s.shared.ledger.rows userID = some account) :
    account.balance = deposits userID labels - s.charges userID ∧
      ∀ x ∈ s.sessions, ChargedFor x (s.rowsOf x.request.callID) (s.charge x) := by
  constructor
  · have hbalance : s.funds userID = account.balance := by
      simp only [System.funds, haccount]
      rfl
    rw [← charges_run hrun, hbalance]
    grind
  · intro x hx
    exact charged_run hrun hx

theorem money_accounted_rejected :
    ∃ s account, run (admitted ++ rejected) = some s ∧ s.shared.ledger.rows 1 = some account ∧
      account.balance = deposits 1 (admitted ++ rejected) - s.charges 1 ∧
      ∀ x ∈ s.sessions, ChargedFor x (s.rowsOf x.request.callID) (s.charge x) :=
  ⟨_, _, rfl, rfl, @money_accounted (admitted ++ rejected) _ rfl 1 _ rfl⟩

end Bos3000.Service
