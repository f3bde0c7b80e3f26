import Bos3000.Billing.Ledger
import Bos3000.Callback.Frame
import Bos3000.Callback.Initiate

-- The callback service with the billing database and the caches: any number of
-- requests and active calls, whose steps interleave.
namespace Bos3000.Service

open Billing (Account AccountRequest Amount Ledger Op Transaction createAccount)
open Callback

-- What requests and calls share. A counter that no key holds reads as 0.
structure Shared where
  ledger : Ledger
  slots : UserID → Int
  daily : UserID × String → Int

-- An access is possible where its answer is what the shared state gives.
def Shared.apply (s : Shared) : Access → Option Shared
  | .none => some s
  | .account userID a => if s.ledger.rows userID = some a then some s else none
  | .transact op => (s.ledger.run op).map fun ledger => { s with ledger }
  | .increment userID delta result =>
      if s.slots userID + delta = result then
        some { s with slots := Function.update s.slots userID result }
      else none
  | .setSlot userID value => some { s with slots := Function.update s.slots userID value }
  | .countDaily userID date delta result =>
      if s.daily (userID, date) + delta = result then
        some { s with daily := Function.update s.daily (userID, date) result }
      else none

-- An access changes the account and the rows of its transaction's user at most.
theorem apply_ledger {s t : Shared} {access : Access} (h : s.apply access = some t) (userID : UserID) :
    (t.ledger.rows userID = s.ledger.rows userID ∧
      t.ledger.entriesOf userID = s.ledger.entriesOf userID) ∨
      ∃ op account new tx, access = .transact op ∧ op.userID = userID ∧
        s.ledger.rows userID = some account ∧ op.apply account = .ok (new, tx) ∧
        t.ledger.rows userID = some new ∧
        t.ledger.entriesOf userID = s.ledger.entriesOf userID ++ [tx] := by
  cases access with
  | transact op =>
      obtain ⟨ledger, hrun, rfl⟩ := Option.map_eq_some_iff.mp h
      obtain ⟨account, new, tx, hrow, heffect, rfl⟩ := RowLock.Store.exec_eq_some.mp hrun
      have hentries := RowLock.Store.entriesOf_append s.ledger
        (Function.update s.ledger.rows op.userID (some new)) userID op.userID tx
      by_cases huser : op.userID = userID
      · subst huser
        rw [if_pos rfl] at hentries
        exact .inr ⟨op, account, new, tx, rfl, rfl, hrow, Billing.Op.effect_eq_some.mp heffect,
          Function.update_self .., hentries⟩
      · rw [if_neg huser] at hentries
        exact .inl ⟨Function.update_of_ne (Ne.symm huser) .., hentries⟩
  | none | account | increment | setSlot | countDaily =>
      simp only [Shared.apply] at h
      try split at h
      all_goals
        cases h
        try exact .inl ⟨rfl, rfl⟩

-- A session is a request and, once it is stored, its active call.
inductive Phase
  | initiating (stage : InitiateStage)
  | active (w : ActiveCall)

def Phase.of : InitiateStage → Phase
  | .stored call => .active (.init call)
  | stage => .initiating stage

theorem Phase.of_eq_initiating {stage next : InitiateStage} (h : Phase.of stage = .initiating next) :
    next = stage := by
  cases stage <;> cases h <;> rfl

-- A session that is not alive belongs to a process that has ended.
structure Session where
  request : Request
  phase : Phase
  alive : Bool

inductive Move
  | reply (x : Reply)
  | call (l : Callback.Label)
  deriving DecidableEq

def Session.step (s : Session) : Move → Option (Phase × Access)
  | .reply x =>
      match s.phase with
      | .initiating stage =>
          (stage.resume s.request x).map fun (next, access) => (Phase.of next, access)
      | .active _ => none
  | .call l =>
      match s.phase with
      | .initiating _ => none
      | .active w => (w.step l).map fun v => (.active v, w.access l)

theorem Session.step_eq_some {x : Session} {m : Move} {phase : Phase} {access : Access}
    (h : x.step m = some (phase, access)) :
    (∃ stage r next, x.phase = .initiating stage ∧ m = .reply r ∧
      stage.resume x.request r = some (next, access) ∧ phase = Phase.of next) ∨
    ∃ w l v, x.phase = .active w ∧ m = .call l ∧ w.step l = some v ∧ phase = .active v ∧
      access = w.access l := by
  cases m with
  | reply r =>
      simp only [Session.step] at h
      split at h
      · rename_i stage hphase
        obtain ⟨⟨next, _⟩, hresume, heq⟩ := Option.map_eq_some_iff.mp h
        cases heq
        exact .inl ⟨stage, r, next, hphase, rfl, hresume, rfl⟩
      · cases h
  | call l =>
      simp only [Session.step] at h
      split at h
      · cases h
      · rename_i w hphase
        obtain ⟨v, hstep, heq⟩ := Option.map_eq_some_iff.mp h
        cases heq
        exact .inr ⟨w, l, v, hphase, rfl, hstep, rfl, rfl⟩

structure System where
  shared : Shared
  sessions : List Session

inductive Label
  | createAccount (request : AccountRequest)
  | topup (userID : UserID) (amount : Amount)
  | deduct (userID : UserID) (amount : Amount)
  | initiate (auth : Option AuthData) (params : InitiateCallbackParams) (callID : String)
  | move (session : Nat) (m : Move)
  | restart
  deriving DecidableEq

def System.empty : System := ⟨⟨RowLock.Store.empty, fun _ => 0, fun _ => 0⟩, []⟩

def Session.new (request : Request) : Session := ⟨request, .initiating .checkBlacklist, true⟩

-- uuid.New() returns an id that no call has.
def System.fresh (s : System) (callID : String) : Bool :=
  s.sessions.all fun x => x.request.callID ≠ callID

def System.step (s : System) : Label → Option System
  | .createAccount request =>
      (s.shared.ledger.insert (createAccount request).1 (createAccount request).2).map fun ledger =>
        { s with shared := { s.shared with ledger } }
  | .topup userID amount =>
      (s.shared.apply (.transact (.topup userID amount))).map fun shared => { s with shared }
  | .deduct userID amount =>
      (s.shared.apply (.transact (.deduct userID amount))).map fun shared => { s with shared }
  | .initiate auth params callID =>
      if s.fresh callID then
        match initiateCallback params auth callID with
        | .ok (request, stage) =>
            some { s with sessions := s.sessions ++ [⟨request, .initiating stage, true⟩] }
        | .error _ => some s
      else none
  | .move i m =>
      match s.sessions[i]? with
      | some x =>
          if x.alive then
            (x.step m).bind fun (phase, access) =>
              (s.shared.apply access).map fun shared =>
                ⟨shared, s.sessions.set i { x with phase }⟩
          else none
      | none => none
  -- activeCalls and the goroutines are gone; the database and the caches stay
  | .restart => some { s with sessions := s.sessions.map fun x => { x with alive := false } }

def run (labels : List Label) : Option System := Machine.run System.step System.empty labels

-- A run whose steps all meet a condition.
def runUnder (allowed : System → Label → Bool) (labels : List Label) : Option System :=
  Machine.run (Machine.restrict allowed System.step) System.empty labels

theorem run_of_runUnder {allowed : System → Label → Bool} {labels : List Label} {s : System}
    (hrun : runUnder allowed labels = some s) : run labels = some s :=
  Machine.run_of_restrict hrun

-- What a step does, by its kind.
inductive System.Changes (s : System) : Label → System → Prop
  | created (request : AccountRequest) (ledger : Ledger)
      (hinsert : s.shared.ledger.insert (createAccount request).1 (createAccount request).2 = some ledger) :
      Changes s (.createAccount request) { s with shared := { s.shared with ledger } }
  | topped (userID : UserID) (amount : Amount) (shared : Shared)
      (happly : s.shared.apply (.transact (.topup userID amount)) = some shared) :
      Changes s (.topup userID amount) { s with shared }
  | deducted (userID : UserID) (amount : Amount) (shared : Shared)
      (happly : s.shared.apply (.transact (.deduct userID amount)) = some shared) :
      Changes s (.deduct userID amount) { s with shared }
  | requested (auth : Option AuthData) (params : InitiateCallbackParams) (request : Request)
      (hfresh : s.fresh request.callID = true) :
      Changes s (.initiate auth params request.callID)
        { s with sessions := s.sessions ++ [Session.new request] }
  | refused (auth : Option AuthData) (params : InitiateCallbackParams) (callID : String) :
      Changes s (.initiate auth params callID) s
  | moved (i : Nat) (m : Move) (x : Session) (phase : Phase) (access : Access) (shared : Shared)
      (hx : s.sessions[i]? = some x) (halive : x.alive = true) (hstep : x.step m = some (phase, access))
      (happly : s.shared.apply access = some shared) :
      Changes s (.move i m) ⟨shared, s.sessions.set i { x with phase }⟩
  | restarted : Changes s .restart { s with sessions := s.sessions.map fun x => { x with alive := false } }

-- The limits of an account stay as it was created.
theorem apply_account {s t : Shared} {access : Access} (happly : s.apply access = some t)
    {userID : UserID} {account : Account} (haccount : s.ledger.rows userID = some account) :
    ∃ new, t.ledger.rows userID = some new ∧ new.creditLimit = account.creditLimit ∧
      new.maxConcurrent = account.maxConcurrent := by
  obtain ⟨hrow, _⟩ | ⟨op, old, new, tx, _, _, hold, hop, hnew, _⟩ := apply_ledger happly userID
  · exact ⟨account, hrow.trans haccount, rfl, rfl⟩
  · rw [haccount] at hold
    cases hold
    have hrecorded := Billing.Op.recorded hop
    exact ⟨new, hnew, hrecorded.creditLimit, hrecorded.maxConcurrent⟩

theorem System.Changes.account {s t : System} {l : Label} (h : s.Changes l t) {userID : UserID}
    {account : Account} (haccount : s.shared.ledger.rows userID = some account) :
    ∃ new, t.shared.ledger.rows userID = some new ∧ new.creditLimit = account.creditLimit ∧
      new.maxConcurrent = account.maxConcurrent := by
  cases h with
  | created request ledger hinsert =>
      obtain ⟨hnone, rfl⟩ := RowLock.Store.insert_eq_some.mp hinsert
      have hother : userID ≠ (createAccount request).1 := by
        rintro rfl
        rw [haccount] at hnone
        cases hnone
      exact ⟨account, (Function.update_of_ne hother ..).trans haccount, rfl, rfl⟩
  | topped _ _ _ happly | deducted _ _ _ happly => exact apply_account happly haccount
  | moved _ _ _ _ _ _ _ _ _ happly => exact apply_account happly haccount
  | requested | refused | restarted => exact ⟨account, haccount, rfl, rfl⟩

theorem initiateCallback_eq_ok {p : InitiateCallbackParams} {auth : Option AuthData}
    {callID : String} {request : Request} {stage : InitiateStage}
    (h : initiateCallback p auth callID = .ok (request, stage)) :
    request.callID = callID ∧ stage = .checkBlacklist := by
  unfold initiateCallback at h
  cases hvalid : p.validate with
  | error e => simp [hvalid, bind, Except.bind] at h
  | ok _ =>
      cases auth with
      | none => simp [hvalid, bind, Except.bind] at h
      | some ad =>
          simp only [hvalid, bind, Except.bind, Except.ok.injEq, Prod.mk.injEq] at h
          obtain ⟨rfl, rfl⟩ := h
          exact ⟨rfl, rfl⟩

theorem System.changes {s t : System} {l : Label} (h : s.step l = some t) : s.Changes l t := by
  cases l with
  | createAccount request =>
      obtain ⟨ledger, hinsert, rfl⟩ := Option.map_eq_some_iff.mp h
      exact .created request ledger hinsert
  | topup userID amount =>
      obtain ⟨shared, happly, rfl⟩ := Option.map_eq_some_iff.mp h
      exact .topped userID amount shared happly
  | deduct userID amount =>
      obtain ⟨shared, happly, rfl⟩ := Option.map_eq_some_iff.mp h
      exact .deducted userID amount shared happly
  | initiate auth params callID =>
      simp only [System.step] at h
      split at h
      · rename_i hfresh
        split at h
        · rename_i request stage hok
          cases h
          obtain ⟨rfl, rfl⟩ := initiateCallback_eq_ok hok
          exact .requested auth params request hfresh
        · cases h
          exact .refused auth params callID
      · cases h
  | move i m =>
      simp only [System.step] at h
      split at h
      · rename_i x hx
        split at h
        · rename_i halive
          obtain ⟨⟨phase, access⟩, hstep, h⟩ := Option.bind_eq_some_iff.mp h
          obtain ⟨shared, happly, rfl⟩ := Option.map_eq_some_iff.mp h
          exact .moved i m x phase access shared hx halive hstep happly
        · cases h
      · cases h
  | restart =>
      cases h
      exact .restarted

end Bos3000.Service
