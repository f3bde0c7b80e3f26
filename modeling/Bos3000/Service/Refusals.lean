import Bos3000.Lib.Share
import Bos3000.Service.OpenHolds
import Bos3000.Service.SlotLimit
import Bos3000.Service.Tenants

-- What a refused request leaves behind.
namespace Bos3000.Service

open Billing (Account Op Transaction)
open Callback

def System.balance (s : System) (userID : UserID) : Money :=
  ((s.shared.ledger.rows userID).map Account.balance).getD 0

-- What the moves of one request change about a balance and a slot counter in a run.
def netBalance (callID : String) (userID : UserID) (labels : List Label) : Money :=
  Machine.share System.step (ofRequest callID) (fun s => s.balance userID) System.empty labels

def netSlots (callID : String) (userID : UserID) (labels : List Label) : Int :=
  Machine.share System.step (ofRequest callID) (fun s => s.shared.slots userID) System.empty labels

-- The request's Finalize does not fail.
def refunds (callID : String) (s : System) : Label → Bool
  | .move i m => s.sessions[i]?.all fun x => x.request.callID ≠ callID || !x.failsFinalize m
  | _ => true

-- No decrement of the slot counter fails for the request: neither the one of its
-- ReleaseSlot, nor the one that rolls its AcquireSlot back.
def givesBack (callID : String) (s : System) : Label → Bool
  | .move i m => s.sessions[i]?.all fun x => x.request.callID ≠ callID || !x.failsDecrement m
  | _ => true

-- The units of its user's counter that a session has.
def Session.units (x : Session) : Int := x.holdsSlot.toNat + x.rollsBack.toNat

theorem ofRequest_mem {callID : String} {s : System} {l : Label} (h : ofRequest callID s l = true) :
    callID ∈ s.callIDs := by
  cases l with
  | move i m =>
      obtain ⟨x, hx, hcall⟩ := (Option.any_eq_true ..).mp h
      have hcall : x.request.callID = callID := by simpa using hcall
      exact hcall ▸ List.mem_map_of_mem (List.mem_of_getElem? hx)
  | createAccount | topup | deduct | initiate | restart => cases h

theorem givesBack_other {callID : String} {s : System} {l : Label} (h : ofRequest callID s l = false) :
    givesBack callID s l = true := by
  cases l with
  | move i m =>
      cases hx : s.sessions[i]? with
      | none => simp [givesBack, hx]
      | some x =>
          have hother : x.request.callID ≠ callID := by simpa [ofRequest, hx] using h
          simp [givesBack, hx, hother]
  | createAccount | topup | deduct | initiate | restart => rfl

theorem callIDs_mono {s t : System} {l : Label} (hstep : s.step l = some t) {callID : String}
    (h : callID ∈ s.callIDs) : callID ∈ t.callIDs := by
  cases System.changes hstep with
  | created | topped | deducted | refused => exact h
  | requested auth params request hfresh =>
      simp only [System.callIDs, List.map_append, List.mem_append]
      exact .inl h
  | moved i m x phase access shared hx halive hmove happly => rwa [callIDs_set shared hx]
  | restarted => simpa [System.callIDs, Function.comp_def] using h

section Step

variable {labels : List Label} {s t : System} {l : Label} {callID : String} {userID : UserID}

-- The moves of a request that is not there yet have changed nothing.
theorem share_absent {M : Type} [Add M] [Sub M] [Zero M] (measure : System → M) (hrun : run labels = some s)
    (habsent : callID ∉ s.callIDs) : Machine.share System.step (ofRequest callID) measure System.empty labels =
      0 := by
  revert habsent
  refine Machine.run_induction (motive := fun labels s => callID ∉ s.callIDs →
    Machine.share System.step (ofRequest callID) measure System.empty labels = 0) (fun _ => rfl) ?_ hrun
  intro labels l s t hs ih hlast habsent
  have hbefore : callID ∉ s.callIDs := mt (callIDs_mono hlast) habsent
  rw [Machine.share_other hs hlast (by simpa using mt ofRequest_mem hbefore)]
  exact ih hbefore

-- What a request has changed about the counter beyond the units that it has grows
-- with a decrement that fails, and stays otherwise.
theorem netSlots_step (hrun : run labels = some s) (hstep : s.step l = some t) {y : Session} (hy : y ∈ t.sessions) :
    (y.request.callID ∉ s.callIDs ∧ netSlots y.request.callID y.request.userID (labels ++ [l]) = y.units ∧
      givesBack y.request.callID s l = true) ∨
    ∃ x ∈ s.sessions, x.request = y.request ∧
      netSlots y.request.callID y.request.userID (labels ++ [l]) - y.units =
        netSlots x.request.callID x.request.userID labels - x.units + (!givesBack y.request.callID s l).toNat := by
  have hcalls := calls_run hrun
  have hbounded := bounded_run hrun
  cases hcalls.follows hstep y hy with
  | new request hfresh hown hrows =>
      refine .inl ⟨hfresh, ?_, givesBack_other hown⟩
      exact (Machine.share_other hrun hstep hown).trans (share_absent _ hrun hfresh)
  | kept x hx hown hrows =>
      refine .inr ⟨_, hx, rfl, ?_⟩
      have hshare : netSlots y.request.callID y.request.userID (labels ++ [l]) = _ :=
        Machine.share_other hrun hstep hown
      rw [hshare, givesBack_other hown]
      exact (Int.add_zero _).symm
  | restarted x hx hl hrows =>
      subst hl
      refine .inr ⟨x, hx, rfl, ?_⟩
      have hshare : netSlots x.request.callID x.request.userID (labels ++ [.restart]) = _ :=
        Machine.share_other hrun hstep rfl
      dsimp only
      rw [hshare]
      exact (Int.add_zero _).symm
  | moved i m x phase access rows hl hx halive hmove happly hwrites hrows =>
      subst hl
      have hmem := List.mem_of_getElem? hx
      obtain ⟨hown, _, _⟩ := slots_own (hcalls.valid x hmem) (hbounded.floors x hmem)
        (hbounded.pos hmem) hmove happly
      refine .inr ⟨x, hmem, rfl, ?_⟩
      have hmoves : ofRequest x.request.callID s (.move i m) = true := by simp [ofRequest, hx]
      have hshare : netSlots x.request.callID x.request.userID (labels ++ [.move i m]) =
          netSlots x.request.callID x.request.userID labels +
            (t.shared.slots x.request.userID - s.shared.slots x.request.userID) :=
        Machine.share_own hrun hstep hmoves
      have hfails : (!givesBack x.request.callID s (.move i m)) = x.failsDecrement m := by simp [givesBack, hx]
      dsimp only
      rw [hshare, hfails]
      simp only [Session.units]
      omega

end Step

-- A request that no decrement has failed for has changed the counter by the units
-- it has, and any other by more.
theorem netSlots_cases {callID : String} {labels : List Label} {s : System} (hrun : run labels = some s) :
    (runUnder (givesBack callID) labels = some s ∧ ∀ x ∈ s.sessions, x.request.callID = callID →
      netSlots callID x.request.userID labels = x.units) ∨
    (runUnder (givesBack callID) labels = none ∧ callID ∈ s.callIDs ∧ ∀ x ∈ s.sessions,
      x.request.callID = callID →
      x.units < netSlots callID x.request.userID labels) := by
  refine Machine.restrict_or_along
    (P := fun labels s => ∀ x ∈ s.sessions, x.request.callID = callID →
      netSlots callID x.request.userID labels = x.units)
    (Q := fun labels s => callID ∈ s.callIDs ∧ ∀ x ∈ s.sessions, x.request.callID = callID →
      x.units < netSlots callID x.request.userID labels) ?_ ?_ ?_ ?_ hrun
  · intro x hx
    cases hx
  · rintro labels l s t hs h hallowed hstep y hy rfl
    obtain ⟨_, hnew, _⟩ | ⟨x, hx, hrequest, hnext⟩ := netSlots_step hs hstep hy
    · exact hnew
    · have hbefore := h x hx (by rw [hrequest])
      rw [hallowed] at hnext
      rw [hrequest] at hbefore hnext
      simp only [Bool.not_true, Bool.toNat_false] at hnext
      omega
  · intro labels l s t hs h hallowed hstep
    have hown : ofRequest callID s l = true := by
      by_contra hother
      rw [givesBack_other (by simpa using hother)] at hallowed
      cases hallowed
    refine ⟨callIDs_mono hstep (ofRequest_mem hown), ?_⟩
    rintro y hy rfl
    obtain ⟨hfresh, _⟩ | ⟨x, hx, hrequest, hnext⟩ := netSlots_step hs hstep hy
    · exact absurd (ofRequest_mem hown) hfresh
    · have hbefore := h x hx (by rw [hrequest])
      rw [hallowed] at hnext
      rw [hrequest] at hbefore hnext
      simp only [Bool.not_false, Bool.toNat_true] at hnext
      omega
  · rintro labels l s t hs ⟨hmem, h⟩ hstep
    refine ⟨callIDs_mono hstep hmem, ?_⟩
    rintro y hy rfl
    obtain ⟨hfresh, _⟩ | ⟨x, hx, hrequest, hnext⟩ := netSlots_step hs hstep hy
    · exact absurd hmem hfresh
    · have hbefore := h x hx (by rw [hrequest])
      rw [hrequest] at hbefore hnext
      omega

-- Where a request has changed nothing, the counter is what the other steps make it.
theorem slots_of_others {callID : String} {userID : UserID} {labels : List Label} {s : System}
    (hrun : run labels = some s) (hnet : netSlots callID userID labels = 0) :
    s.shared.slots userID = Machine.share System.step (fun s l => !ofRequest callID s l)
      (fun s => s.shared.slots userID) System.empty labels := by
  have hzero : Machine.share System.step (ofRequest callID) (fun s => s.shared.slots userID) System.empty labels = 0 :=
    hnet
  have hsplit : Machine.share System.step (ofRequest callID) (fun s => s.shared.slots userID) System.empty labels +
      Machine.share System.step (fun s l => !ofRequest callID s l)
      (fun s => s.shared.slots userID) System.empty labels =
      s.shared.slots userID - System.empty.shared.slots userID :=
    Machine.share_add_others hrun
  rw [hzero, zero_add] at hsplit
  exact (hsplit.trans (Int.sub_zero _)).symm

-- A session changes the balance of its user by the rows it writes.
theorem balance_own {s t : System} {x : Session} (hvalid : x.Valid) {m : Move} {phase : Phase} {access : Access}
    (hstep : x.step m = some (phase, access)) (happly : s.shared.apply access = some t.shared)
    {rows : List Transaction} (hwrites : Writes access rows) :
    t.balance x.request.userID - s.balance x.request.userID = (rows.map Transaction.signed).sum := by
  cases hwrites with
  | nothing hno =>
      obtain ⟨hrow, _⟩ | ⟨op, _, _, _, haccess, _⟩ := apply_ledger happly x.request.userID
      · simp only [System.balance, hrow, List.map_nil, List.sum_nil]
        grind
      · exact absurd haccess (hno op)
  | @row op _ _ written hwritten =>
      obtain ⟨ledger, hrun, hshared⟩ := Option.map_eq_some_iff.mp happly
      obtain ⟨account, new, tx, hrow, heffect, rfl⟩ := RowLock.Store.exec_eq_some.mp hrun
      have hop := Billing.Op.effect_eq_some.mp heffect
      have hrecorded := Op.recorded hop
      have hnew : t.shared.ledger.rows op.userID = some new := by
        rw [← hshared]
        exact Function.update_self ..
      simp only [System.balance, ← (step_transact hvalid hstep).2, hnew,
        show s.shared.ledger.rows op.userID = _ from hrow,
        Option.map_some, Option.getD_some, List.map_cons, List.map_nil, List.sum_cons, List.sum_nil]
      rw [hrecorded.balance, hrecorded.balanceAfter, Op.signed_eq hop, Op.signed_eq hwritten]
      grind

-- A request has changed the balance by the rows of its call.
theorem netBalance_eq {labels : List Label} {s : System} (hrun : run labels = some s) :
    ∀ x ∈ s.sessions, netBalance x.request.callID x.request.userID labels =
      ((s.rowsOf x.request.callID).map Transaction.signed).sum := by
  refine Machine.run_induction (motive := fun labels s => ∀ x ∈ s.sessions,
    netBalance x.request.callID x.request.userID labels =
      ((s.rowsOf x.request.callID).map Transaction.signed).sum) ?_ ?_ hrun
  · intro x hx
    cases hx
  · intro labels l s t hs h hstep y hy
    have hcalls := calls_run hs
    cases hcalls.follows hstep y hy with
    | new request hfresh hown hrows =>
        change _ = ((t.rowsOf request.callID).map Transaction.signed).sum
        rw [hrows]
        exact (Machine.share_other hs hstep hown).trans (share_absent _ hs hfresh)
    | kept x hx hown hrows =>
        rw [hrows, ← h _ hx]
        exact Machine.share_other hs hstep hown
    | restarted x hx hl hrows =>
        subst hl
        dsimp only
        rw [hrows, ← h x hx]
        exact Machine.share_other hs hstep rfl
    | moved i m x phase access rows hl hx halive hmove happly hwrites hrows =>
        subst hl
        have hmem := List.mem_of_getElem? hx
        dsimp only
        rw [hrows, List.map_append, List.sum_append, ← h x hmem,
          ← balance_own (hcalls.valid x hmem) hmove happly hwrites]
        exact Machine.share_own hs hstep (by simp [ofRequest, hx])

theorem refundParams_actualCost (r : Request) (hold : Hold) : (hold.refundParams r).actualCost = 0 := by
  have ha : (hold.refundParams r).aLegCost = 0 := rfl
  have hb : (hold.refundParams r).bLegCost = 0 := rfl
  rw [Billing.FinalizeParams.actualCost, ha, hb]
  rfl

-- A request that holds nothing has no money of its user.
theorem StageInv.net {r : Request} {stage next : InitiateStage} {x : Reply} {access : Access}
    {rows new : List Transaction} (h : StageInv r stage rows)
    (hnet : stage.held r = none → (rows.map Transaction.signed).sum = 0)
    (hrefund : ∀ hold e f, stage = .refund hold e → x ≠ .fault f)
    (hresume : stage.resume r x = some (next, access)) (hwrites : Writes access new) (hnext : next.held r = none) :
    ((rows ++ new).map Transaction.signed).sum = 0 := by
  obtain ⟨hold, rfl, rfl, rfl⟩ | ⟨hold, e, rfl, _, rfl, rfl⟩ | ⟨hno, hcases⟩ := resume_cases hresume
  · cases hnext
  · cases hwrites with
    | nothing hno => exact absurd rfl (hno _)
    | row hop =>
        have hsettled := Held.settle (p := hold.refundParams r) h hop
        rw [hsettled.sum, refundParams_actualCost]
        rfl
  · rw [hwrites.eq_nil hno, List.append_nil]
    obtain ⟨e, rfl, hnone | ⟨hold, f, rfl, rfl⟩⟩ | hsame := hcases
    · exact hnet hnone
    · exact absurd rfl (hrefund hold e f rfl)
    · exact hnet (hsame ▸ hnext)

def NetInv (callID : String) (x : Session) (rows : List Transaction) : Prop :=
  HoldInv x rows ∧ (x.request.callID = callID → ∀ stage, x.phase = .initiating stage →
    stage.held x.request = none → (rows.map Transaction.signed).sum = 0)

theorem netInv_run {callID : String} {labels : List Label} {s : System}
    (hrun : runUnder (refunds callID) labels = some s) :
    ∀ x ∈ s.sessions, NetInv callID x (s.rowsOf x.request.callID) := by
  refine invariant_under (P := fun s => ∀ x ∈ s.sessions, NetInv callID x (s.rowsOf x.request.callID)) ?_ ?_ hrun
  · intro x hx
    cases hx
  · intro s l t hcalls hP hallowed hstep
    refine hcalls.each_step hstep (fun _ => ⟨.inl rfl, fun _ _ _ _ => rfl⟩) (fun _ _ _ _ h => h) ?_ hP
    rintro i m x phase access rows new rfl hx halive hmove hwrites ⟨hinv, hnet⟩
    refine ⟨hinv.step (hcalls.valid x (List.mem_of_getElem? hx)) hmove hwrites, ?_⟩
    intro hcall next hnext hnone
    have hrefunds : ¬ x.request.callID = callID ∨ x.failsFinalize m = false := by
      simpa [refunds, hx] using hallowed
    have hrefunds := hrefunds.resolve_left (not_not_intro hcall)
    obtain ⟨stage, r, after, hstage, rfl, hresume, rfl⟩ | ⟨w, l, v, hw, _, _, rfl, _⟩ :=
      Session.step_eq_some hmove
    · obtain rfl := Phase.of_eq_initiating hnext
      simp only [HoldInv, hstage] at hinv
      refine StageInv.net hinv (hnet hcall stage hstage) ?_ hresume hwrites hnone
      rintro hold e f rfl rfl
      simp [Session.failsFinalize, hstage] at hrefunds
    · cases hnext

-- The session of a refused request has no row and no call in activeCalls.
theorem refused_absent {s : System} (hcalls : Calls s) (columns : String → Columns) {x : Session}
    (hx : x ∈ s.sessions)
    {e : APIError} (hfailed : x.phase = .initiating (.failed e)) :
    (s.callStore hcalls columns).rows.find x.request.callID = none ∧
      (s.callStore hcalls columns).active x.request.callID = none := by
  have hsame : ∀ y ∈ s.sessions, y.request.callID = x.request.callID → y = x := by
    intro y hy hcall
    obtain ⟨i, hi⟩ := List.getElem?_of_mem hx
    obtain ⟨j, hj⟩ := List.getElem?_of_mem hy
    by_cases hij : i = j
    · subst hij
      rw [hi] at hj
      exact (Option.some.inj hj).symm
    · exact absurd hcall.symm (hcalls.callID_ne hi hj hij)
  constructor
  · refine Table.find_eq_none.mpr fun row hrow hcall => ?_
    obtain ⟨y, hy, hyrow⟩ := List.mem_filterMap.mp hrow
    obtain ⟨call, hsome, rfl⟩ := Option.map_eq_some_iff.mp hyrow
    have hcallID : call.callID = x.request.callID := hcall
    rw [((hcalls.valid y hy).row hsome).1] at hcallID
    rw [hsame y hy hcallID, Session.row, hfailed] at hsome
    cases hsome
  · simp only [System.callStore]
    cases hfind : s.sessions.find? fun y => y.request.callID = x.request.callID with
    | none => rfl
    | some y =>
        have hcall : y.request.callID = x.request.callID := by simpa using List.find?_some hfind
        rw [hsame y (List.mem_of_find?_eq_some hfind) hcall]
        simp [Session.active, hfailed]

-- Provided its Finalize succeeds, a request that was refused at any step has changed
-- neither the balance nor the slot counter of its user, whatever else has, and has
-- no row and no entry in activeCalls, if and only if no decrement failed for it.
theorem refused_traceless {labels : List Label} {s : System} {x : Session}
    (hrun : runUnder (refunds x.request.callID) labels = some s) (hx : x ∈ s.sessions) {e : APIError}
    (hfailed : x.phase = .initiating (.failed e)) (columns : String → Columns) :
    netBalance x.request.callID x.request.userID labels = 0 ∧
      netSlots x.request.callID x.request.userID labels = 0 ∧
      (s.callStore (calls_run (run_of_runUnder hrun)) columns).rows.find x.request.callID = none ∧
      (s.callStore (calls_run (run_of_runUnder hrun)) columns).active x.request.callID = none ↔
    runUnder (givesBack x.request.callID) labels = some s := by
  have hplain := run_of_runUnder hrun
  have hbalance : netBalance x.request.callID x.request.userID labels = 0 := by
    rw [netBalance_eq hplain x hx]
    exact (netInv_run hrun x hx).2 rfl _ hfailed rfl
  have hunits : x.units = 0 := by
    simp [Session.units, Session.holdsSlot, Session.rollsBack, hfailed, InitiateStage.holdsSlot,
      InitiateStage.rollsBack]
  have habsent := refused_absent (calls_run hplain) columns hx hfailed
  obtain ⟨hgives, hnet⟩ | ⟨hnone, _, hnet⟩ := @netSlots_cases x.request.callID _ _ hplain
  · have hslots := hnet x hx rfl
    rw [hunits] at hslots
    exact ⟨fun _ => hgives, fun _ => ⟨hbalance, hslots, habsent⟩⟩
  · have hslots := hnet x hx rfl
    rw [hunits] at hslots
    constructor
    · rintro ⟨_, hzero, _⟩
      omega
    · intro hgives
      rw [hnone] at hgives
      cases hgives

-- No gateway is free: the slot and the hold are given back.
def undone : List Label :=
  admitted.take 9 ++ ([.fault ⟨.Unavailable, "no gateway available"⟩, .count 0, .ok] : List Reply).map fun r =>
    .move 0 (.reply r)

def noColumns (_ : String) : Columns := ⟨0, 0, none, none, none⟩

theorem refused_traceless_undone :
    ∃ s x, ∃ hrun : runUnder (refunds x.request.callID) undone = some s,
      s.sessions = [x] ∧ x.phase = .initiating (.failed ⟨.Unavailable, "no gateway available"⟩) ∧
      runUnder (givesBack x.request.callID) undone = some s ∧
      (netBalance x.request.callID x.request.userID undone = 0 ∧
        netSlots x.request.callID x.request.userID undone = 0 ∧
        (s.callStore (calls_run (run_of_runUnder hrun)) noColumns).rows.find x.request.callID = none ∧
        (s.callStore (calls_run (run_of_runUnder hrun)) noColumns).active x.request.callID = none ↔
      runUnder (givesBack x.request.callID) undone = some s) :=
  ⟨_, ⟨⟨1, "c1", _⟩, _, _⟩, rfl, rfl, rfl, rfl,
    @refused_traceless undone _ _ rfl (List.mem_singleton_self _) _ rfl noColumns⟩

-- The Finalize and the ReleaseSlot of the request do not fail.
def Session.failsCompensation (x : Session) (m : Move) : Bool :=
  match x.phase, m with
  | .initiating (.refund _ _), .reply (.fault _) | .initiating (.releaseSlot _ _), .reply (.fault _)
  | .initiating (.floorSlot _ _), .reply (.fault _) => true
  | _, _ => false

def compensates (callID : String) (s : System) : Label → Bool
  | .move i m => s.sessions[i]?.all fun x => x.request.callID ≠ callID || !x.failsCompensation m
  | _ => true

-- A request finds the limit exceeded, and the cache fails in the rollback.
def notRolledBack : List Label :=
  contended ++ [.move 0 (.reply (.fault ⟨.Unknown, "rollback slot increment: cache unavailable"⟩)),
    .move 0 (.reply .ok)]

theorem notRolledBack_leaves :
    ¬ ∀ labels s x e columns (hrun : run labels = some s),
      runUnder (compensates x.request.callID) labels = some s →
      x ∈ s.sessions → x.phase = .initiating (.failed e) →
      netBalance x.request.callID x.request.userID labels = 0 ∧
        netSlots x.request.callID x.request.userID labels = 0 ∧
        (s.callStore (calls_run hrun) columns).rows.find x.request.callID = none ∧
        (s.callStore (calls_run hrun) columns).active x.request.callID = none := by
  intro h
  have hrun : ∃ s x, run notRolledBack = some s ∧ runUnder (compensates x.request.callID) notRolledBack = some s ∧
      s.sessions[0]? = some x ∧
      x.phase = .initiating (.failed ⟨.Unknown, "rollback slot increment: cache unavailable"⟩) ∧
      netSlots x.request.callID x.request.userID notRolledBack = 1 :=
    ⟨_, ⟨⟨1, "c1", _⟩, _, _⟩, rfl, rfl, rfl, rfl, by decide⟩
  obtain ⟨s, x, hrun, hcompensates, hx, hfailed, hslots⟩ := hrun
  have hnone := (h notRolledBack s x _ noColumns hrun hcompensates (List.mem_of_getElem? hx) hfailed).2.1
  rw [hslots] at hnone
  cases hnone

end Bos3000.Service
