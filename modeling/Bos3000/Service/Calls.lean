import Bos3000.Service.System

-- The calls of the system, and which rows of transactions are theirs.
namespace Bos3000.Service

open Billing (Account Ledger Op Transaction)
open Callback

-- The call is an active call as InitiateCallback builds it, after some steps.
def Admitted (request : Request) (w : ActiveCall) : Prop :=
  ∃ hold aGateway bGateway callerID labels,
    Machine.run ActiveCall.step (.init (callRecord request hold aGateway bGateway callerID)) labels = some w

theorem Admitted.step {request : Request} {w v : ActiveCall} {l : Callback.Label}
    (h : Admitted request w) (hstep : w.step l = some v) : Admitted request v := by
  obtain ⟨hold, a, b, callerID, labels, hrun⟩ := h
  exact ⟨hold, a, b, callerID, labels ++ [l], (Machine.run_concat _ _ _ _).mpr ⟨w, hrun, hstep⟩⟩

-- The hold of an admitted call is the one in its record.
theorem Admitted.fixed {request : Request} {w : ActiveCall} (h : Admitted request w) :
    ∃ hold aGateway bGateway callerID,
      w.call.fixed = (callRecord request hold aGateway bGateway callerID).fixed ∧
      w.row.fixed = (callRecord request hold aGateway bGateway callerID).fixed := by
  obtain ⟨hold, a, b, callerID, labels, hrun⟩ := h
  exact ⟨hold, a, b, callerID, run_fixed hrun⟩

theorem Admitted.settling {request : Request} {w : ActiveCall} (h : Admitted request w) :
    Settling w := by
  obtain ⟨_, _, _, _, _, hrun⟩ := h
  exact settling_run hrun

theorem Admitted.callID {request : Request} {w : ActiveCall} (h : Admitted request w) :
    w.call.callID = request.callID ∧ w.call.userID = request.userID := by
  obtain ⟨hold, a, b, callerID, hcall, _⟩ := h.fixed
  exact ⟨congrArg Fixed.callID hcall, congrArg Fixed.userID hcall⟩

-- The hold was taken for the rates in the record.
theorem Admitted.hold {request : Request} {w : ActiveCall} (h : Admitted request w) :
    (finalizeParams w.call).preDeductAmount =
      Billing.preDeductAmount ⟨w.call.userID, w.call.callID, w.call.aLegRate, w.call.bLegRate⟩ := by
  obtain ⟨hold, a, b, callerID, hcall, _⟩ := h.fixed
  simp only [CallbackCall.fixed, Fixed.mk.injEq] at hcall
  obtain ⟨_, _, _, _, _, _, _, _, haLeg, hbLeg, hamount⟩ := hcall
  simp only [finalizeParams, Billing.preDeductAmount, haLeg, hbLeg, hamount]
  rfl

structure Session.Valid (x : Session) : Prop where
  admitted : ∀ w, x.phase = .active w → Admitted x.request w
  stored : ∀ call, x.phase ≠ .initiating (.stored call)

theorem valid_new (request : Request) : (Session.new request).Valid := by
  constructor
  · intro w hw
    cases hw
  · intro call hcall
    cases hcall

theorem resume_stored {r : Request} {stage : InitiateStage} {x : Reply} {call : CallbackCall}
    {access : Access} (h : stage.resume r x = some (.stored call, access)) :
    ∃ hold a b callerID, call = callRecord r hold a b callerID := by
  revert h
  fun_cases InitiateStage.resume r stage x <;> intro h <;> cases h
  exact ⟨_, _, _, _, rfl⟩

theorem phase_of_ne_stored (stage : InitiateStage) (call : CallbackCall) :
    Phase.of stage ≠ .initiating (.stored call) := by
  cases stage <;> intro h <;> cases h

theorem Session.Valid.step {x : Session} (h : x.Valid) {m : Move} {phase : Phase} {access : Access}
    (hstep : x.step m = some (phase, access)) : Session.Valid { x with phase } := by
  obtain ⟨stage, r, next, _, _, hresume, rfl⟩ | ⟨w, l, u, hw, _, hu, rfl, _⟩ :=
    Session.step_eq_some hstep
  · refine ⟨?_, phase_of_ne_stored next⟩
    intro v hv
    cases next <;> cases hv
    obtain ⟨hold, a, b, callerID, rfl⟩ := resume_stored hresume
    exact ⟨hold, a, b, callerID, [], rfl⟩
  · constructor
    · intro v hv
      cases hv
      exact (h.admitted w hw).step hu
    · intro call hcall
      cases hcall

-- The rows of transactions with the call's id as reference, of every user.
def System.rowsOf (s : System) (callID : String) : List Transaction :=
  (s.shared.ledger.log.map Prod.snd).filter fun tx => tx.referenceID = some callID

def System.callIDs (s : System) : List String := s.sessions.map fun x => x.request.callID

structure Calls (s : System) : Prop where
  distinct : s.callIDs.Nodup
  valid : ∀ x ∈ s.sessions, x.Valid
  owned : ∀ entry ∈ s.shared.ledger.log, ∀ callID, entry.2.referenceID = some callID →
    callID ∈ s.callIDs

-- The transaction an access commits, as the ledger writes it.
inductive Writes : Access → List Transaction → Prop
  | nothing {access : Access} (h : ∀ op, access ≠ .transact op) : Writes access []
  | row {op : Op} {account new : Account} {tx : Transaction}
      (h : op.apply account = .ok (new, tx)) : Writes (.transact op) [tx]

theorem Writes.eq_nil {access : Access} {rows : List Transaction} (h : Writes access rows)
    (hno : ∀ op, access ≠ .transact op) : rows = [] := by
  cases h with
  | nothing _ => rfl
  | row _ => exact absurd rfl (hno _)

-- The rows of a write belong to the call that its operation names.
theorem Writes.filter_eq_self {access : Access} {rows : List Transaction} (h : Writes access rows)
    {callID : String} (howner : ∀ op, access = .transact op → op.reference = some callID) :
    (rows.filter fun tx => tx.referenceID = some callID) = rows := by
  cases h with
  | nothing _ => rfl
  | row hop => simp [Billing.Op.referenceID_eq hop, howner _ rfl]

theorem Writes.filter_eq_nil {access : Access} {rows : List Transaction} (h : Writes access rows)
    {callID : String} (hother : ∀ op, access = .transact op → op.reference ≠ some callID) :
    (rows.filter fun tx => tx.referenceID = some callID) = [] := by
  cases h with
  | nothing _ => rfl
  | row hop => simp [Billing.Op.referenceID_eq hop, hother _ rfl]

theorem apply_writes {s t : Shared} {access : Access} (h : s.apply access = some t) :
    ∃ rows userID, Writes access rows ∧ t.ledger.log = s.ledger.log ++ rows.map (userID, ·) := by
  cases access with
  | transact op =>
      obtain ⟨ledger, hrun, rfl⟩ := Option.map_eq_some_iff.mp h
      obtain ⟨account, new, tx, _, heffect, rfl⟩ := RowLock.Store.exec_eq_some.mp hrun
      exact ⟨[tx], op.userID, .row (Billing.Op.effect_eq_some.mp heffect), rfl⟩
  | none | account | increment | setSlot | countDaily =>
      simp only [Shared.apply] at h
      try split at h
      all_goals
        cases h
        try exact ⟨[], 0, .nothing (by simp), by simp⟩

-- A session writes rows of its own call only.
theorem step_transact {x : Session} (h : x.Valid) {m : Move} {phase : Phase} {op : Op}
    (hstep : x.step m = some (phase, .transact op)) :
    op.reference = some x.request.callID ∧ op.userID = x.request.userID := by
  obtain ⟨stage, r, next, _, _, hresume, _⟩ | ⟨w, l, v, hw, _, hv, _, haccess⟩ :=
    Session.step_eq_some hstep
  · revert hresume
    fun_cases InitiateStage.resume x.request stage r <;> intro hresume <;> cases hresume <;>
      exact ⟨rfl, rfl⟩
  · obtain ⟨_, _, _, rfl⟩ := access_transact hv haccess.symm
    obtain ⟨hcallID, huserID⟩ := (h.admitted w hw).callID
    exact ⟨congrArg some hcallID, huserID⟩

theorem rowsOf_append {s t : System} {userID : UserID} {rows : List Transaction}
    (h : t.shared.ledger.log = s.shared.ledger.log ++ rows.map (userID, ·)) (callID : String) :
    t.rowsOf callID = s.rowsOf callID ++ rows.filter fun tx => tx.referenceID = some callID := by
  simp [System.rowsOf, h, List.map_map, Function.comp_def]

theorem not_mem_of_fresh {s : System} {callID : String} (hfresh : s.fresh callID = true) :
    callID ∉ s.callIDs := by
  intro hmem
  obtain ⟨x, hx, rfl⟩ := List.mem_map.mp hmem
  have hother := List.all_eq_true.mp hfresh x hx
  simp at hother

theorem Calls.fresh {s : System} (h : Calls s) {callID : String} (hfresh : s.fresh callID = true) :
    s.rowsOf callID = [] := by
  apply List.filter_eq_nil_iff.mpr
  intro tx htx
  obtain ⟨entry, hentry, rfl⟩ := List.mem_map.mp htx
  simp only [decide_eq_true_eq]
  exact fun hreference => not_mem_of_fresh hfresh (h.owned entry hentry callID hreference)

theorem calls_empty : Calls System.empty :=
  ⟨List.nodup_nil, by simp [System.empty], by simp [System.empty, RowLock.Store.empty]⟩

theorem callIDs_set {s : System} {i : Nat} {x : Session} {phase : Phase} (shared : Shared)
    (hx : s.sessions[i]? = some x) :
    System.callIDs ⟨shared, s.sessions.set i { x with phase }⟩ = s.callIDs := by
  obtain ⟨hi, rfl⟩ := List.getElem?_eq_some_iff.mp hx
  have hlt : i < s.callIDs.length := by simpa [System.callIDs] using hi
  have hsame : s.callIDs.set i s.callIDs[i] = s.callIDs := List.set_getElem_self hlt
  simpa [System.callIDs, List.map_set] using hsame

theorem Calls.step {s t : System} {l : Label} (h : Calls s) (hstep : s.step l = some t) : Calls t := by
  cases System.changes hstep with
  | created request ledger hinsert =>
      obtain ⟨_, rfl⟩ := RowLock.Store.insert_eq_some.mp hinsert
      exact ⟨h.distinct, h.valid, h.owned⟩
  | topped userID amount shared happly | deducted userID amount shared happly =>
      obtain ⟨rows, userID, hwrites, hlog⟩ := apply_writes happly
      refine ⟨h.distinct, h.valid, ?_⟩
      rw [hlog]
      intro entry hentry callID hreference
      rcases List.mem_append.mp hentry with hentry | hentry
      · exact h.owned entry hentry callID hreference
      · obtain ⟨tx, htx, rfl⟩ := List.mem_map.mp hentry
        cases hwrites with
        | nothing _ => cases htx
        | row happly =>
            rw [List.mem_singleton.mp htx, Billing.Op.referenceID_eq happly] at hreference
            cases hreference
  | requested auth params request hfresh =>
      refine ⟨?_, ?_, ?_⟩
      · simp only [System.callIDs, List.map_append, List.map_cons, List.map_nil]
        refine List.nodup_append.mpr ⟨h.distinct, List.nodup_singleton _, ?_⟩
        intro a ha b hb
        rw [List.mem_singleton.mp hb]
        rintro rfl
        exact not_mem_of_fresh hfresh ha
      · intro x hx
        rcases List.mem_append.mp hx with hx | hx
        · exact h.valid x hx
        · rw [List.mem_singleton.mp hx]
          exact valid_new request
      · intro entry hentry callID hreference
        have hmem := h.owned entry hentry callID hreference
        simp only [System.callIDs, List.map_append, List.mem_append]
        exact .inl hmem
  | refused => exact h
  | moved i m x phase access shared hx halive hmove happly =>
      have hvalid := h.valid x (List.mem_of_getElem? hx)
      refine ⟨?_, ?_, ?_⟩
      · rw [callIDs_set shared hx]
        exact h.distinct
      · intro y hy
        rcases List.mem_or_eq_of_mem_set hy with hy | rfl
        · exact h.valid y hy
        · exact hvalid.step hmove
      · rw [callIDs_set shared hx]
        obtain ⟨rows, userID, hwrites, hlog⟩ := apply_writes happly
        simp only [hlog]
        intro entry hentry callID hreference
        rcases List.mem_append.mp hentry with hentry | hentry
        · exact h.owned entry hentry callID hreference
        · obtain ⟨tx, htx, rfl⟩ := List.mem_map.mp hentry
          cases hwrites with
          | nothing _ => cases htx
          | row hop =>
              rw [List.mem_singleton.mp htx, Billing.Op.referenceID_eq hop,
                (step_transact hvalid hmove).1] at hreference
              cases hreference
              exact List.mem_map_of_mem (List.mem_of_getElem? hx)
  | restarted =>
      refine ⟨?_, ?_, ?_⟩
      · simpa [System.callIDs, Function.comp_def] using h.distinct
      · intro x hx
        obtain ⟨y, hy, rfl⟩ := List.mem_map.mp hx
        exact ⟨(h.valid y hy).admitted, (h.valid y hy).stored⟩
      · intro entry hentry callID hreference
        simpa [System.callIDs, Function.comp_def] using h.owned entry hentry callID hreference

theorem calls_run {labels : List Label} {s : System} (hrun : run labels = some s) : Calls s :=
  Machine.invariant (fun _ _ _ h hstep => h.step hstep) calls_empty hrun

-- What allowed steps keep holds at the end of a run under the condition.
theorem invariant_under {allowed : System → Label → Bool} {P : System → Prop} (hempty : P System.empty)
    (hstep : ∀ s l t, Calls s → P s → allowed s l → s.step l = some t → P t)
    {labels : List Label} {s : System} (hrun : runUnder allowed labels = some s) : P s := by
  refine Machine.run_induction (motive := fun _ s => P s) hempty ?_ hrun
  intro _ l s t hs h hlast
  obtain ⟨hallowed, hnext⟩ := Machine.restrict_eq_some.mp hlast
  exact hstep s l t (calls_run (run_of_runUnder hs)) h hallowed hnext

theorem Calls.callID_ne {s : System} (h : Calls s) {i j : Nat} {x y : Session}
    (hx : s.sessions[i]? = some x) (hy : s.sessions[j]? = some y) (hij : i ≠ j) :
    x.request.callID ≠ y.request.callID := by
  intro heq
  have hlt : i < s.callIDs.length := by
    simpa [System.callIDs] using (List.getElem?_eq_some_iff.mp hx).1
  apply hij
  refine (List.getElem?_inj hlt h.distinct).mp ?_
  simp [System.callIDs, hx, hy, heq]

def ofRequest (callID : String) (s : System) : Label → Bool
  | .move i _ => s.sessions[i]?.any fun x => x.request.callID = callID
  | _ => false

-- Where a session comes from, and what the step has written for its call.
inductive Follows (s t : System) (l : Label) : Session → Prop
  | new (request : Request) (hfresh : request.callID ∉ s.callIDs) (hown : ofRequest request.callID s l = false)
      (hrows : t.rowsOf request.callID = []) : Follows s t l (Session.new request)
  | kept (x : Session) (hx : x ∈ s.sessions) (hown : ofRequest x.request.callID s l = false)
      (hrows : t.rowsOf x.request.callID = s.rowsOf x.request.callID) : Follows s t l x
  | restarted (x : Session) (hx : x ∈ s.sessions) (hl : l = .restart)
      (hrows : t.rowsOf x.request.callID = s.rowsOf x.request.callID) : Follows s t l { x with alive := false }
  | moved (i : Nat) (m : Move) (x : Session) (phase : Phase) (access : Access) (rows : List Transaction)
      (hl : l = .move i m) (hx : s.sessions[i]? = some x) (halive : x.alive = true)
      (hstep : x.step m = some (phase, access)) (happly : s.shared.apply access = some t.shared)
      (hwrites : Writes access rows) (hrows : t.rowsOf x.request.callID = s.rowsOf x.request.callID ++ rows) :
      Follows s t l { x with phase }

theorem Calls.follows {s t : System} {l : Label} (h : Calls s) (hstep : s.step l = some t) :
    ∀ y ∈ t.sessions, Follows s t l y := by
  cases System.changes hstep with
  | created request ledger hinsert =>
      obtain ⟨_, rfl⟩ := RowLock.Store.insert_eq_some.mp hinsert
      exact fun x hx => .kept x hx rfl rfl
  | topped userID amount shared happly | deducted userID amount shared happly =>
      intro x hx
      obtain ⟨rows, owner, hwrites, hlog⟩ := apply_writes happly
      have hnone : (rows.filter fun tx => tx.referenceID = some x.request.callID) = [] := by
        apply hwrites.filter_eq_nil
        intro op hop
        cases hop
        exact Option.some_ne_none _ ∘ Eq.symm
      refine .kept x hx rfl ?_
      rw [rowsOf_append (s := s) hlog, hnone, List.append_nil]
  | requested auth params request hfresh =>
      intro x hx
      rcases List.mem_append.mp hx with hx | hx
      · exact .kept x hx rfl rfl
      · rw [List.mem_singleton.mp hx]
        exact .new request (not_mem_of_fresh hfresh) rfl (h.fresh hfresh)
  | refused => exact fun x hx => .kept x hx rfl rfl
  | moved i m x phase access shared hx halive hmoves happly =>
      intro y hy
      have hvalid := h.valid x (List.mem_of_getElem? hx)
      obtain ⟨rows, owner, hwrites, hlog⟩ := apply_writes happly
      obtain ⟨j, hj⟩ := List.getElem?_of_mem hy
      obtain ⟨rfl, rfl⟩ | ⟨hji, hj⟩ := Pool.getElem?_set_cases hj
      · refine .moved j m x phase access rows rfl hx halive hmoves happly hwrites ?_
        rw [rowsOf_append (s := s) hlog,
          hwrites.filter_eq_self fun op hop => (step_transact hvalid (hop ▸ hmoves)).1]
      · have hij : i ≠ j := Ne.symm hji
        have hother : (rows.filter fun tx => tx.referenceID = some y.request.callID) = [] := by
          apply hwrites.filter_eq_nil
          intro op hop hreference
          rw [(step_transact hvalid (hop ▸ hmoves)).1] at hreference
          exact h.callID_ne hx hj hij (Option.some.inj hreference)
        refine .kept y (List.mem_of_getElem? hj) (by simp [ofRequest, hx, h.callID_ne hx hj hij]) ?_
        rw [rowsOf_append (s := s) hlog, hother, List.append_nil]
  | restarted =>
      intro x hx
      obtain ⟨y, hy, rfl⟩ := List.mem_map.mp hx
      exact .restarted y hy rfl rfl

-- A relation between sessions and the rows of their calls is kept by a step that
-- keeps it for the session that moves: the rows of the other calls stay.
theorem Calls.each_step {P : Session → List Transaction → Prop} {s t : System} {l : Label}
    (h : Calls s) (hstep : s.step l = some t)
    (hnew : ∀ request, P (Session.new request) [])
    (hrestart : l = .restart → ∀ x ∈ s.sessions, ∀ rows, P x rows → P { x with alive := false } rows)
    (hmove : ∀ i m x phase access rows new, l = .move i m → s.sessions[i]? = some x → x.alive = true →
      x.step m = some (phase, access) → Writes access new → P x rows →
      P { x with phase } (rows ++ new))
    (hP : ∀ x ∈ s.sessions, P x (s.rowsOf x.request.callID)) :
    ∀ x ∈ t.sessions, P x (t.rowsOf x.request.callID) := by
  intro y hy
  cases h.follows hstep y hy with
  | new request _ _ hrows =>
      change P _ (t.rowsOf request.callID)
      rw [hrows]
      exact hnew request
  | kept x hx _ hrows =>
      rw [hrows]
      exact hP _ hx
  | restarted x hx hl hrows =>
      change P _ (t.rowsOf x.request.callID)
      rw [hrows]
      exact hrestart hl x hx _ (hP x hx)
  | moved i m x phase access rows hl hx halive hmoves happly hwrites hrows =>
      change P _ (t.rowsOf x.request.callID)
      rw [hrows]
      exact hmove i m x phase access _ rows hl hx halive hmoves hwrites (hP x (List.mem_of_getElem? hx))

-- Whatever its goroutines do, the body of finalizeCall runs at most once for a
-- stored call, with its one Finalize and its one ReleaseSlot. When runCall has
-- returned it has run, and the call is not in activeCalls.
theorem settled_once {labels : List Label} {s : System} (hrun : run labels = some s) {x : Session}
    (hx : x ∈ s.sessions) {w : ActiveCall} (hactive : x.phase = .active w) :
    w.executed.count .now ≤ 1 ∧ w.executed.count .billingFinalize ≤ 1 ∧
      w.executed.count .releaseSlot ≤ 1 ∧
      (w.returned → w.executed = finalizeBody ∧ (∀ stmt, w.executed.count stmt = 1) ∧ w.inMap = false) := by
  have hsettling := (((calls_run hrun).valid x hx).admitted w hactive).settling
  refine ⟨hsettling.executed_le_one _, hsettling.executed_le_one _, hsettling.executed_le_one _, ?_⟩
  intro hreturned
  obtain ⟨hexecuted, hmap⟩ := hsettling.returned hreturned
  refine ⟨hexecuted, ?_, hmap⟩
  rw [hexecuted]
  intro stmt
  cases stmt <;> rfl

-- A request is admitted and its call stored.
def admitted : List Label :=
  [.createAccount ⟨⟨1, 0, 2, none⟩, rfl⟩, .topup 1 ⟨5400, rfl⟩,
   .initiate (some ⟨1, "client"⟩) ⟨"13800000001", "13900000002", none, none, []⟩ "c1"] ++
  ([.ok, .account ⟨5400, 0, 2, none, .active⟩, .counted "2026-01-05" 1, .rates 60 120, .ok, .count 1,
    .gateway "gw-a", .gateway "gw-b", .did "4001", .ok, .ok] : List Reply).map fun r => .move 0 (.reply r)

-- Its A leg cannot be dialled, and runCall finalizes it.
def rejected : List Label :=
  (([.resume (.load true), .exec 0 true, .exec 0 true, .resume (.originated .A false), .exec 10 true,
     .exec 10 true, .finalize, .finalize, .body (.time 500), .body .ok, .body .ok, .body .ok,
     .body (.config none), .body .ok, .body .ok, .body (.count 0), .body .ok, .body .ok, .body .ok,
     .body .ok, .body .ok, .finalize] : List Callback.Label).map fun l => .move 0 (.call l))

theorem settled_once_rejected :
    ∃ s x w, run (admitted ++ rejected) = some s ∧ s.sessions = [x] ∧ x.phase = .active w ∧
      w.returned ∧
      w.executed.count .now ≤ 1 ∧ w.executed.count .billingFinalize ≤ 1 ∧
      w.executed.count .releaseSlot ≤ 1 ∧
      (w.returned → w.executed = finalizeBody ∧ (∀ stmt, w.executed.count stmt = 1) ∧ w.inMap = false) := by
  refine ⟨_, _, _, rfl, rfl, rfl, rfl, ?_⟩
  exact @settled_once (admitted ++ rejected) _ rfl _ (List.mem_singleton_self _) _ rfl

end Bos3000.Service
