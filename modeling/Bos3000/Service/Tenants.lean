import Bos3000.Recording.Api
import Bos3000.Service.Calls

-- What a client can see of the calls of other users.
namespace Bos3000.Service

open Callback
open Recording (GetRecordingURLParams getRecordingURL)

-- The columns of a call that the sessions do not have.
structure Columns where
  createdAt : Time
  updatedAt : Time
  recordingKey : Option String
  recordingAKey : Option String
  recordingBKey : Option String

-- The row of a session's call, from its INSERT on.
def Session.row (x : Session) : Option CallbackCall :=
  match x.phase with
  | .initiating (.store hold a b callerID) => some (callRecord x.request hold a b callerID)
  | .initiating _ => none
  | .active w => some w.row

def Session.active (x : Session) : Option CallbackCall :=
  match x.phase with
  | .initiating _ => none
  | .active w => if x.alive && w.inMap then some w.call else none

def Session.record (columns : String → Columns) (x : Session) (call : CallbackCall) : CallRecord :=
  ⟨call, x.request.params.customData, (columns x.request.callID).createdAt, (columns x.request.callID).updatedAt⟩

def Session.callRow (columns : String → Columns) (x : Session) : Option CallRow :=
  x.row.map fun call => ⟨x.record columns call, (columns x.request.callID).recordingKey,
    (columns x.request.callID).recordingAKey, (columns x.request.callID).recordingBKey⟩

theorem Session.Valid.row {x : Session} (h : x.Valid) {call : CallbackCall} (hrow : x.row = some call) :
    call.callID = x.request.callID ∧ call.userID = x.request.userID := by
  unfold Session.row at hrow
  split at hrow
  · cases hrow
    exact ⟨rfl, rfl⟩
  · cases hrow
  · rename_i w hphase
    cases hrow
    obtain ⟨_, _, _, _, _, hfixed⟩ := (h.admitted w hphase).fixed
    exact ⟨congrArg Fixed.callID hfixed, congrArg Fixed.userID hfixed⟩

theorem Session.Valid.active {x : Session} (h : x.Valid) {call : CallbackCall} (hactive : x.active = some call) :
    call.userID = x.request.userID ∧ x.row.isSome := by
  unfold Session.active at hactive
  split at hactive
  · cases hactive
  · rename_i w hphase
    split at hactive
    · cases hactive
      exact ⟨(h.admitted w hphase).callID.2, by simp [Session.row, hphase]⟩
    · cases hactive

-- The keys of what some elements give are among the keys of all, in their order.
theorem map_filterMap_sublist {α β γ : Type} {f : α → Option β} {key : β → γ} {of : α → γ} {xs : List α}
    (h : ∀ x ∈ xs, ∀ y, f x = some y → key y = of x) : ((xs.filterMap f).map key).Sublist (xs.map of) := by
  induction xs with
  | nil => exact .slnil
  | cons x rest ih =>
      have hrest := ih fun y hy => h y (List.mem_cons_of_mem x hy)
      cases hx : f x with
      | none =>
          rw [List.filterMap_cons_none hx]
          exact hrest.cons (of x)
      | some y =>
          rw [List.filterMap_cons_some hx, List.map_cons, List.map_cons, h x List.mem_cons_self y hx]
          exact hrest.cons_cons (of x)

-- What the endpoints read of a reachable state: the rows and the calls in memory.
def System.callStore (s : System) (h : Calls s) (columns : String → Columns) : CallStore where
  rows := {
    rows := s.sessions.filterMap (Session.callRow columns)
    distinct := by
      refine h.distinct.sublist (map_filterMap_sublist fun x hx row hrow => ?_)
      obtain ⟨call, hcall, rfl⟩ := Option.map_eq_some_iff.mp hrow
      exact ((h.valid x hx).row hcall).1 }
  active id := (s.sessions.find? fun x => x.request.callID = id).bind fun x => x.active.map (x.record columns)
  owned id r hr := by
    obtain ⟨x, hfind, hrecord⟩ := Option.bind_eq_some_iff.mp hr
    obtain ⟨call, hactive, rfl⟩ := Option.map_eq_some_iff.mp hrecord
    have hx := List.mem_of_find?_eq_some hfind
    have hid : x.request.callID = id := by simpa using List.find?_some hfind
    obtain ⟨huser, hsome⟩ := (h.valid x hx).active hactive
    obtain ⟨row, hrow⟩ := Option.isSome_iff_exists.mp hsome
    obtain ⟨hcallID, huserID⟩ := (h.valid x hx).row hrow
    have hmem : ∃ r, x.callRow columns = some r ∧ r.call = row := ⟨_, by rw [Session.callRow, hrow]; rfl, rfl⟩
    obtain ⟨r, hr, rfl⟩ := hmem
    refine ⟨r, Table.find_eq_some.mpr ⟨List.mem_filterMap.mpr ⟨x, hx, hr⟩, hcallID.trans hid⟩, ?_⟩
    exact huserID.trans huser.symm

-- States that differ in the rows and the active calls of other users at most.
structure SameCalls (userID : UserID) (s t : CallStore) : Prop where
  rows : s.rows.rows.filter (fun row => row.call.userID = userID) =
    t.rows.rows.filter fun row => row.call.userID = userID
  active : ∀ id r, r.call.userID = userID → (s.active id = some r ↔ t.active id = some r)

-- The id names a call of another user, or an active one.
def Foreign (userID : UserID) (s : CallStore) (id : String) : Prop :=
  ∃ row, s.rows.find id = some row ∧ row.call.userID ≠ userID

def ForeignActive (userID : UserID) (s : CallStore) (id : String) : Prop :=
  ∃ r, s.active id = some r ∧ r.call.userID ≠ userID

-- What a client is given of a lookup: its own row, or its own active call.
def ownRow (userID : UserID) (s : CallStore) (id : String) : Option CallRow :=
  (s.rows.find id).filter fun row => row.call.userID = userID

def ownActive (userID : UserID) (s : CallStore) (id : String) : Option CallRecord :=
  (s.active id).filter fun r => r.call.userID = userID

section Tenants

variable {userID : UserID} {s t : CallStore} {id : String} {ad : AuthData} {fault : Option String}

theorem SameCalls.mem (h : SameCalls userID s t) {row : CallRow} (hrow : row.call.userID = userID) :
    row ∈ s.rows.rows ↔ row ∈ t.rows.rows := by
  have hmem := congrArg (row ∈ ·) h.rows
  simpa [hrow] using hmem

theorem SameCalls.row_eq (h : SameCalls userID s t) (id : String) :
    ownRow userID s id = ownRow userID t id := by
  ext row
  simp only [ownRow, Option.filter_eq_some_iff, decide_eq_true_eq, Table.find_eq_some]
  exact and_congr_left fun hrow => and_congr_left fun _ => h.mem hrow

theorem SameCalls.active_eq (h : SameCalls userID s t) (id : String) :
    ownActive userID s id = ownActive userID t id := by
  ext r
  simp only [ownActive, Option.filter_eq_some_iff, decide_eq_true_eq]
  exact and_congr_left fun hr => h.active id r hr

theorem ownRow_of_foreignActive (h : ForeignActive userID s id) : ownRow userID s id = none := by
  obtain ⟨r, hr, hforeign⟩ := h
  obtain ⟨row, hrow, hsame⟩ := s.owned id r hr
  simp [ownRow, hrow, hsame, hforeign]

theorem ownRow_of_find {row : CallRow} (hrow : s.rows.find id = some row) :
    ownRow userID s id = if row.call.userID = userID then some row else none := by
  simp only [ownRow, hrow, Option.filter_some, decide_eq_true_eq]

theorem ownActive_of_active {r : CallRecord} (hactive : s.active id = some r) :
    ownActive userID s id = if r.call.userID = userID then some r else none := by
  simp only [ownActive, hactive, Option.filter_some, decide_eq_true_eq]

-- A client sees its own active call, else its own row. A fault of the query shows
-- where no active call, its own or another's, is found first.
theorem getCallStatus_client (hclient : ad.role ≠ "admin") : getCallStatus (some ad) id fault s =
    match ownActive ad.userID s id with
    | some r => .ok (callToResponse r)
    | none =>
        match fault, s.active id with
        | some e, none => .error ⟨.Unknown, "get call: " ++ e⟩
        | _, _ =>
            match ownRow ad.userID s id with
            | some row => .ok (callToResponse row.toCallRecord)
            | none => .error callNotFound := by
  cases hactive : s.active id with
  | some r =>
      rw [ownActive_of_active hactive]
      by_cases hown : r.call.userID = ad.userID
      · simp [getCallStatus, hactive, hown]
      · have hnone := ownRow_of_foreignActive ⟨r, hactive, hown⟩
        cases fault <;> simp [getCallStatus, hactive, hown, hclient, hnone]
  | none =>
      have hnone : ownActive ad.userID s id = none := by simp [ownActive, hactive]
      rw [hnone]
      cases fault with
      | some e => simp [getCallStatus, hactive, getCall, CallStore.select]
      | none =>
          cases hrow : s.rows.find id with
          | none => simp [getCallStatus, ownRow, hactive, hrow, getCall, CallStore.select]
          | some row =>
              rw [ownRow_of_find hrow]
              by_cases hown : row.call.userID = ad.userID <;>
                simp [getCallStatus, hactive, hrow, getCall, CallStore.select, hown, hclient]

theorem forceHangup_client (hclient : ad.role ≠ "admin") : forceHangup (some ad) id none s =
    match s.rows.find id, ownRow ad.userID s id with
    | none, _ => .error callNotFound
    | some _, none => .error ⟨.PermissionDenied, "access denied"⟩
    | some _, some row =>
        if row.call.status.terminal then .error ⟨.FailedPrecondition, "call already terminated"⟩
        else .ok ⟨id, "finished", "Call terminated"⟩ := by
  cases hrow : s.rows.find id with
  | none => simp [forceHangup, getCall, CallStore.select, hrow]
  | some row =>
      rw [ownRow_of_find hrow]
      by_cases hown : row.call.userID = ad.userID
      · cases hterminal : row.call.status.terminal <;>
          simp [forceHangup, forceHangupCheck, getCall, CallStore.select, hrow, hown, hterminal, Except.map]
      · simp [forceHangup, forceHangupCheck, getCall, CallStore.select, hrow, hown, hclient, Except.map]

-- A client's lookup, with the calls of other users left out.
def selectOwn (userID : UserID) (fault : Option String) (s : CallStore) (id : String) :
    Except QueryError CallRow :=
  match fault, ownRow userID s id with
  | some e, _ => .error (.failed e)
  | none, none => .error .noRows
  | none, some row => .ok row

theorem getRecordingURL_client {sign : String → Except String String} {now : Time} {p : GetRecordingURLParams}
    (hclient : ad.role ≠ "admin") : getRecordingURL sign now (some ad) p fault s =
    if p.type ≠ "merged" ∧ p.type ≠ "a" ∧ p.type ≠ "b" then
      .error ⟨.InvalidArgument, "type must be 'merged', 'a', or 'b'"⟩
    else if p.callID = "" then .error ⟨.InvalidArgument, "call_id is required"⟩
    else
      match selectOwn ad.userID fault s p.callID with
      | .error .noRows => .error callNotFound
      | .error (.failed e) => .error ⟨.Unknown, e⟩
      | .ok row => Recording.signedURL sign now p.type row := by
  unfold getRecordingURL
  split
  · rfl
  · split
    · rfl
    · cases fault with
      | some e => simp [CallStore.select, selectOwn]
      | none =>
          cases hrow : s.rows.find p.callID with
          | none => simp [CallStore.select, selectOwn, ownRow, hrow]
          | some row =>
              by_cases hown : row.call.userID = ad.userID <;>
                simp [CallStore.select, selectOwn, ownRow_of_find hrow, hrow, hown, hclient]

-- The first condition on a client's queries makes the rows of other users vanish.
theorem selectWhere_own {db : Listing CallRow} {rest : List Condition} {rows : List CallRow} :
    selectWhere db fault (.userID userID :: rest) rows =
      selectWhere db fault (.userID userID :: rest) (rows.filter fun row => row.call.userID = userID) := by
  cases fault with
  | some e => rfl
  | none =>
      simp only [selectWhere, List.mapM_cons, Condition.test, bind, Except.bind]
      cases rest.mapM (Condition.test db) with
      | error e => rfl
      | ok tests => simp [pure, Except.pure, Except.map, List.filter_filter, Bool.and_comm]

theorem conditions_client {p : ListCallbacksParams} (hclient : ad.role ≠ "admin") :
    ∃ rest, p.conditions ad = .userID ad.userID :: rest := by
  simp [ListCallbacksParams.conditions, hclient]

theorem SameCalls.listCallbacks_eq {db : Listing CallRow} {p : ListCallbacksParams} {countFault : Option String}
    {pageFault : Option PageFault} (h : SameCalls ad.userID s t) (hclient : ad.role ≠ "admin") :
    listCallbacks db (some ad) p countFault pageFault s =
      listCallbacks db (some ad) p countFault pageFault t := by
  obtain ⟨rest, hconditions⟩ := conditions_client (p := p) hclient
  have hselect : ∀ fault, selectWhere db fault (p.conditions ad) s.rows.rows =
      selectWhere db fault (p.conditions ad) t.rows.rows := by
    intro fault
    rw [hconditions, selectWhere_own, h.rows, ← selectWhere_own]
  simp only [listCallbacks, hselect]

theorem SameCalls.getRecordingURL_eq {sign : String → Except String String} {now : Time}
    {p : GetRecordingURLParams} (h : SameCalls ad.userID s t) (hclient : ad.role ≠ "admin") :
    getRecordingURL sign now (some ad) p fault s = getRecordingURL sign now (some ad) p fault t := by
  simp only [getRecordingURL_client hclient, selectOwn, h.row_eq]

theorem foreignActive_iff : ForeignActive userID s id ↔ s.active id ≠ none ∧ ownActive userID s id = none := by
  cases hactive : s.active id with
  | none => simp [ForeignActive, hactive]
  | some r => simp [ForeignActive, hactive, ownActive_of_active hactive]

theorem foreign_iff : Foreign userID s id ↔ s.rows.find id ≠ none ∧ ownRow userID s id = none := by
  cases hrow : s.rows.find id with
  | none => simp [Foreign, hrow]
  | some row => simp [Foreign, hrow, ownRow_of_find hrow]

-- Two states give one response of GetCallStatus unless its query fails and an active
-- call of another user spares one of them the query.
theorem SameCalls.getCallStatus_iff (h : SameCalls ad.userID s t) (hclient : ad.role ≠ "admin") :
    getCallStatus (some ad) id fault s = getCallStatus (some ad) id fault t ↔
      fault = none ∨ (ForeignActive ad.userID s id ↔ ForeignActive ad.userID t id) := by
  rw [getCallStatus_client hclient, getCallStatus_client hclient, foreignActive_iff, foreignActive_iff,
    h.active_eq id, h.row_eq id]
  cases ownActive ad.userID t id with
  | some r => simp
  | none =>
      cases fault with
      | none => simp
      | some e =>
          cases hs : s.active id <;> cases ht : t.active id <;> cases ownRow ad.userID t id <;>
            simp [callNotFound]

-- Those of ForceHangup differ where the id names another user's call in one of them.
theorem SameCalls.forceHangup_iff (h : SameCalls ad.userID s t) (hclient : ad.role ≠ "admin") :
    forceHangup (some ad) id fault s = forceHangup (some ad) id fault t ↔
      fault ≠ none ∨ (Foreign ad.userID s id ↔ Foreign ad.userID t id) := by
  cases fault with
  | some e => simp [forceHangup, getCall, CallStore.select]
  | none =>
      rw [forceHangup_client hclient, forceHangup_client hclient, foreign_iff, foreign_iff, h.row_eq id]
      have hs : ∀ row, ownRow ad.userID t id = some row → s.rows.find id ≠ none ∧ t.rows.find id ≠ none := by
        intro row hrow
        have hrow' := (h.row_eq id).trans hrow
        constructor
        · intro hnone
          simp [ownRow, hnone] at hrow'
        · intro hnone
          simp [ownRow, hnone] at hrow
      cases hown : ownRow ad.userID t id with
      | some row =>
          obtain ⟨hs, ht⟩ := hs row hown
          obtain ⟨r, hr⟩ := Option.ne_none_iff_exists'.mp hs
          obtain ⟨r', hr'⟩ := Option.ne_none_iff_exists'.mp ht
          simp [hr, hr']
      | none => cases s.rows.find id <;> cases t.rows.find id <;> simp [callNotFound]

end Tenants

-- What a client sees of two states that differ in the calls of other users only:
-- the same lists and recordings always, the same status and hangup responses but
-- for the calls of other users that the responses tell apart.
theorem tenants_isolated {ad : AuthData} {s t : CallStore} (hclient : ad.role ≠ "admin")
    (hsame : SameCalls ad.userID s t) :
    (∀ db p countFault pageFault, listCallbacks db (some ad) p countFault pageFault s =
      listCallbacks db (some ad) p countFault pageFault t) ∧
    (∀ sign now p fault, getRecordingURL sign now (some ad) p fault s =
      getRecordingURL sign now (some ad) p fault t) ∧
    (∀ id fault, getCallStatus (some ad) id fault s = getCallStatus (some ad) id fault t ↔
      fault = none ∨ (ForeignActive ad.userID s id ↔ ForeignActive ad.userID t id)) ∧
    ∀ id fault, forceHangup (some ad) id fault s = forceHangup (some ad) id fault t ↔
      fault ≠ none ∨ (Foreign ad.userID s id ↔ Foreign ad.userID t id) :=
  ⟨fun _ _ _ _ => hsame.listCallbacks_eq hclient, fun _ _ _ _ => hsame.getRecordingURL_eq hclient,
    fun _ _ => hsame.getCallStatus_iff hclient, fun _ _ => hsame.forceHangup_iff hclient⟩

-- The call of user 1 that InitiateCallback has inserted but not stored yet, and no
-- calls at all.
def oneCall : CallStore :=
  ⟨⟨[⟨⟨sampleCall, [], 0, 0⟩, none, none, none⟩], List.nodup_singleton _⟩, fun _ => none, by simp⟩

def noCalls : CallStore := ⟨Table.empty, fun _ => none, CallStore.owned_empty⟩

theorem oneCall_noCalls : SameCalls 2 oneCall noCalls := ⟨rfl, fun _ _ _ => Iff.rfl⟩

theorem tenants_isolated_status : getCallStatus (some ⟨2, "client"⟩) "c1" none oneCall =
    getCallStatus (some ⟨2, "client"⟩) "c1" none noCalls :=
  ((tenants_isolated (by decide) oneCall_noCalls).2.2.1 "c1" none).mpr (.inl rfl)

theorem forceHangup_tells : SameCalls 2 oneCall noCalls ∧
    forceHangup (some ⟨2, "client"⟩) "c1" none oneCall = .error ⟨.PermissionDenied, "access denied"⟩ ∧
    forceHangup (some ⟨2, "client"⟩) "c1" none noCalls = .error ⟨.NotFound, "call not found"⟩ :=
  ⟨oneCall_noCalls, rfl, rfl⟩

end Bos3000.Service
