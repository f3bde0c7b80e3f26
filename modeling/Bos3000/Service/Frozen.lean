import Bos3000.Auth.KeyValidity
import Bos3000.Auth.Login
import Bos3000.Service.System

-- Frozen accounts: the auth service next to the services that admit calls.
namespace Bos3000.Service

open Auth (AuthDB LoginRequest LoginAnswers Headers KeyLabel CreateUserRequest)
open Billing (Account Op Transaction TxType)
open Callback

-- What a run shows of a user: the moves of its status, and what it was admitted to.
inductive Event
  | frozen (userID : UserID)
  | unfrozen (userID : UserID)
  | loggedIn (userID : UserID)
  | authenticated (userID : UserID)
  | preDeducted (userID : UserID)
  deriving DecidableEq, Repr

structure World where
  auth : AuthDB
  service : System
  log : List Event

-- `maintain` stands for the other endpoints that write the tables of the auth
-- service (passwords, profiles, whitelists, webhooks), whatever they write.
inductive WorldLabel
  | createUser (auth : Option AuthData) (r : CreateUserRequest) (hash : Option String)
      (answer : Option (UserID × Time))
  | freezeUser (auth : Option AuthData) (id : UserID) (answer : Option Time)
  | unfreezeUser (auth : Option AuthData) (id : UserID) (answer : Option Time)
  | keys (l : KeyLabel)
  | maintain (next : AuthDB)
  | adminLogin (body : Option LoginRequest) (a : LoginAnswers)
  | clientLogin (r : LoginRequest) (a : LoginAnswers)
  | authenticate (h : Headers) (key : String) (query : Bool)
  | service (l : Label)

def onSuccess {ε α : Type} (event : α → Event) : Except ε α → List Event
  | .ok a => [event a]
  | .error _ => []

-- The users of the pre_deduct rows that a step adds.
def preDeducted (s t : System) : List Event :=
  ((t.shared.ledger.log.drop s.shared.ledger.log.length).filter fun row => row.2.type = .pre_deduct).map
    fun row => .preDeducted row.1

section World

variable (compareHashAndPassword : String → String → Bool)

def World.step (w : World) : WorldLabel → Option World
  | .createUser auth r hash answer =>
      some { w with auth.users := (Auth.createUser auth r hash answer w.auth.users).2 }
  | .freezeUser auth id answer =>
      let (response, users) := Auth.freezeUser auth id answer w.auth.users
      some { w with auth.users := users, log := w.log ++ onSuccess (fun _ => .frozen id) response }
  | .unfreezeUser auth id answer =>
      let (response, users) := Auth.unfreezeUser auth id answer w.auth.users
      some { w with auth.users := users, log := w.log ++ onSuccess (fun _ => .unfrozen id) response }
  | .keys l => (Auth.KeyRun.step ⟨w.auth, []⟩ l).map fun s => { w with auth := s.db }
  | .maintain next => some { w with auth := next }
  | .adminLogin body a =>
      let response := Auth.adminLogin compareHashAndPassword body a w.auth
      some { w with log := w.log ++ onSuccess (fun r => .loggedIn r.session.sub) response }
  | .clientLogin r a =>
      let response := Auth.clientLogin compareHashAndPassword r a w.auth
      some { w with log := w.log ++ onSuccess (fun r => .loggedIn r.token.sub) response }
  | .authenticate h key query =>
      let response := Auth.validateAPIKey h key (w.auth.seen query)
      some { w with log := w.log ++ onSuccess (fun p => .authenticated p.data.userID) response }
  | .service l =>
      (w.service.step l).map fun next =>
        { w with service := next, log := w.log ++ preDeducted w.service next }

-- The auth service starts with any tables.
def World.init (auth : AuthDB) : World := ⟨auth, System.empty, []⟩

def World.run (auth : AuthDB) (labels : List WorldLabel) : Option World :=
  Machine.run (World.step compareHashAndPassword) (World.init auth) labels

end World

-- The entries that a frozen account is to be kept from.
def Event.enters (userID : UserID) : Event → Bool
  | .frozen _ | .unfrozen _ => false
  | .loggedIn u | .authenticated u | .preDeducted u => u = userID

-- The last move of the user's status froze it.
def isLocked (userID : UserID) (log : List Event) : Bool :=
  log.foldl (fun locked event =>
    match event with
    | .frozen u => if u = userID then true else locked
    | .unfrozen u => if u = userID then false else locked
    | .loggedIn _ | .authenticated _ | .preDeducted _ => locked) false

def LockedOut (userID : UserID) (log : List Event) : Prop :=
  ∀ before event after, log = before ++ event :: after → isLocked userID before = true →
    event.enters userID = false

-- A PreDeduct of the user's request goes through: its account covers the amount.
def takesHold (userID : UserID) (s : System) : Label → Bool
  | .move i (.reply .ok) =>
      s.sessions[i]?.any fun x => x.alive && x.request.userID = userID &&
        match x.phase with
        | .initiating (.preDeduct hold) => (s.shared.ledger.rows x.request.userID).any fun account =>
            !(account.balance + account.creditLimit < hold.amount x.request)
        | _ => false
  | _ => false

-- The conditions under which a step lets the user in, none of which is the status.
def admits (compareHashAndPassword : String → String → Bool) (userID : UserID) (w : World) :
    WorldLabel → Bool
  | .adminLogin body a =>
      body.any fun r => Auth.logsIn compareHashAndPassword userID r .admin a w.auth
  | .clientLogin r a => Auth.logsIn compareHashAndPassword userID r .client a w.auth
  | .authenticate h key query => (w.auth.seen query).any (Auth.keyAdmits userID h key)
  | .service l => takesHold userID w.service l
  | .createUser .. | .freezeUser .. | .unfreezeUser .. | .keys _ | .maintain _ => false

-- Steps that do not let a locked user in.
def keepsOut (compareHashAndPassword : String → String → Bool) (userID : UserID) (w : World)
    (l : WorldLabel) : Bool :=
  !(isLocked userID w.log && admits compareHashAndPassword userID w l)

section Steps

variable {compareHashAndPassword : String → String → Bool} {userID : UserID}

theorem apply_log {s t : Shared} {access : Access} (h : s.apply access = some t) :
    t.ledger.log = s.ledger.log ∧ (∀ op, access ≠ .transact op) ∨
    ∃ op account new tx, access = .transact op ∧ s.ledger.rows op.userID = some account ∧
      op.apply account = .ok (new, tx) ∧ t.ledger.log = s.ledger.log ++ [(op.userID, tx)] := by
  cases access with
  | transact op =>
      obtain ⟨ledger, hrun, rfl⟩ := Option.map_eq_some_iff.mp h
      obtain ⟨account, new, tx, hrow, heffect, rfl⟩ := RowLock.Store.exec_eq_some.mp hrun
      exact .inr ⟨op, account, new, tx, rfl, hrow, Billing.Op.effect_eq_some.mp heffect, rfl⟩
  | none | account | increment | setSlot | countDaily =>
      simp only [Shared.apply] at h
      try split at h
      all_goals
        cases h
        try exact .inl ⟨rfl, by simp⟩

theorem preDeducted_same {s t : System} (h : t.shared.ledger.log = s.shared.ledger.log) :
    preDeducted s t = [] := by
  simp [preDeducted, h]

theorem preDeducted_append {s t : System} {u : UserID} {tx : Transaction}
    (h : t.shared.ledger.log = s.shared.ledger.log ++ [(u, tx)]) :
    preDeducted s t = if tx.type = .pre_deduct then [.preDeducted u] else [] := by
  rw [preDeducted, h, List.drop_left]
  split <;> simp [*]

-- The type of the row an operation writes.
theorem apply_type {op : Op} {account new : Account} {tx : Transaction}
    (h : op.apply account = .ok (new, tx)) : tx.type = .pre_deduct ↔ ∃ p, op = .preDeduct p := by
  cases op with
  | preDeduct p =>
      simp only [Op.apply, Billing.preDeduct] at h
      split at h <;> cases h
      simp
  | finalize p =>
      have htx : (Billing.finalize p account).2 = tx := congrArg Prod.snd (Except.ok.inj h)
      simp only [← htx, reduceCtorEq, exists_false, iff_false]
      unfold Billing.finalize
      split
      · simp
      · split <;> simp
  | topup u amount | deduct u amount =>
      cases h
      simp

-- Only a PreDeduct that the account covers adds to the log of a run.
theorem preDeducted_apply {s t : System} {access : Access} (happly : s.shared.apply access = some t.shared) :
    preDeducted s t = [] ∧ (∀ p, access ≠ .transact (.preDeduct p)) ∨
    ∃ p account, access = .transact (.preDeduct p) ∧ s.shared.ledger.rows p.userID = some account ∧
      ¬account.balance + account.creditLimit < Billing.preDeductAmount p ∧
      preDeducted s t = [.preDeducted p.userID] := by
  obtain ⟨hlog, hnone⟩ | ⟨op, account, new, tx, rfl, hrow, hop, hlog⟩ := apply_log happly
  · exact .inl ⟨preDeducted_same hlog, fun p => hnone _⟩
  · have htype := apply_type hop
    rw [preDeducted_append hlog]
    cases op with
    | preDeduct p =>
        have hcovered : ¬account.balance + account.creditLimit < Billing.preDeductAmount p := by
          intro hshort
          simp [Op.apply, Billing.preDeduct, hshort] at hop
        exact .inr ⟨p, account, rfl, hrow, hcovered, if_pos (htype.mpr ⟨p, rfl⟩)⟩
    | finalize | topup | deduct => exact .inl ⟨if_neg (by simp [htype]), by simp⟩

theorem takesHold_initiating {s : System} {i : Nat} {x : Session} {stage : InitiateStage} {r : Reply}
    (hx : s.sessions[i]? = some x) (hphase : x.phase = .initiating stage)
    (h : takesHold userID s (.move i (.reply r)) = true) : ∃ hold, stage = .preDeduct hold ∧ r = .ok := by
  cases r with
  | ok =>
      simp only [takesHold, hx, Option.any_some, hphase] at h
      cases stage with
      | preDeduct hold => exact ⟨hold, rfl, rfl⟩
      | _ => simp at h
  | _ => simp [takesHold] at h

-- What a step of the services adds to the log of a run.
theorem service_enters (userID : UserID) {s t : System} {l : Label} (h : s.step l = some t) :
    (preDeducted s t).any (Event.enters userID) = takesHold userID s l ∧
      (preDeducted s t).length ≤ 1 := by
  have hquiet : preDeducted s t = [] → takesHold userID s l = false →
      (preDeducted s t).any (Event.enters userID) = takesHold userID s l ∧ (preDeducted s t).length ≤ 1 := by
    intro hnone hnot
    rw [hnone, hnot]
    exact ⟨rfl, Nat.zero_le 1⟩
  cases System.changes h with
  | created request ledger hinsert =>
      have hsame : ledger.log = s.shared.ledger.log := by
        obtain ⟨_, rfl⟩ := RowLock.Store.insert_eq_some.mp hinsert
        rfl
      exact hquiet (preDeducted_same hsame) rfl
  | topped u amount shared happly | deducted u amount shared happly =>
      obtain ⟨hnone, _⟩ | ⟨p, _, haccess, _⟩ := preDeducted_apply (t := { s with shared }) happly
      · exact hquiet hnone rfl
      · cases haccess
  | requested | refused | restarted => exact hquiet (preDeducted_same rfl) rfl
  | moved i m x phase access shared hx halive hstep happly =>
      have hlog := preDeducted_apply (t := ⟨shared, s.sessions.set i { x with phase }⟩) happly
      obtain ⟨stage, r, next, hphase, rfl, hresume, rfl⟩ | ⟨w, l, v, hphase, rfl, hcall, rfl, rfl⟩ :=
        Session.step_eq_some hstep
      · obtain ⟨hnone, hnot⟩ | ⟨p, account, rfl, hrow, hcovered, hone⟩ := hlog
        · refine hquiet hnone ?_
          cases htakes : takesHold userID s (.move i (.reply r)) with
          | false => rfl
          | true =>
              obtain ⟨hold, rfl, rfl⟩ := takesHold_initiating hx hphase htakes
              cases hresume
              exact absurd rfl (hnot _)
        · rw [hone]
          refine ⟨?_, le_refl 1⟩
          obtain ⟨hold, rfl, _, haccess⟩ | ⟨_, _, _, _, _, haccess⟩ | ⟨hnone, _⟩ := resume_cases hresume
          · cases haccess
            cases r with
            | ok =>
                have hrow : s.shared.ledger.rows x.request.userID = some account := hrow
                have hcovered : ¬account.balance + account.creditLimit < hold.amount x.request := hcovered
                simp [takesHold, hx, halive, hphase, hrow, hcovered, Event.enters, Hold.preDeductParams]
            | _ => cases hresume
          · cases haccess
          · exact absurd rfl (hnone _)
      · obtain ⟨hnone, _⟩ | ⟨p, _, haccess, _⟩ := hlog
        · exact hquiet hnone rfl
        · obtain ⟨_, _, _, hop⟩ := access_transact hcall haccess
          cases hop

theorem length_onSuccess {ε α : Type} {event : α → Event} (response : Except ε α) :
    (onSuccess event response).length ≤ 1 := by
  cases response with
  | ok a => exact le_refl 1
  | error e => exact Nat.zero_le 1

theorem any_onSuccess {ε α : Type} {event : α → Event} {response : Except ε α} :
    (onSuccess event response).any (Event.enters userID) = true ↔
      ∃ a, response = .ok a ∧ (event a).enters userID = true := by
  cases response <;> simp [onSuccess]

-- A step adds at most one event, which is an entry of the user exactly where the
-- step admits the user.
theorem step_log (userID : UserID) {w v : World} {l : WorldLabel} (h : w.step compareHashAndPassword l = some v) :
    ∃ events, v.log = w.log ++ events ∧ events.length ≤ 1 ∧
      events.any (Event.enters userID) = admits compareHashAndPassword userID w l := by
  cases l with
  | createUser | maintain =>
      cases h
      exact ⟨[], (List.append_nil _).symm, Nat.zero_le 1, rfl⟩
  | freezeUser auth id answer | unfreezeUser auth id answer =>
      cases h
      refine ⟨_, rfl, length_onSuccess _, ?_⟩
      rw [Bool.eq_iff_iff, any_onSuccess]
      simp [Event.enters, admits]
  | keys l =>
      obtain ⟨s, _, rfl⟩ := Option.map_eq_some_iff.mp h
      exact ⟨[], (List.append_nil _).symm, Nat.zero_le 1, rfl⟩
  | adminLogin body a =>
      cases h
      refine ⟨_, rfl, length_onSuccess _, ?_⟩
      rw [Bool.eq_iff_iff, any_onSuccess]
      simp only [Event.enters, decide_eq_true_eq, admits, Option.any_eq_true]
      exact Auth.adminLogin_sub
  | clientLogin r a =>
      cases h
      refine ⟨_, rfl, length_onSuccess _, ?_⟩
      rw [Bool.eq_iff_iff, any_onSuccess]
      simp only [Event.enters, decide_eq_true_eq]
      exact Auth.clientLogin_sub
  | authenticate h key query =>
      cases h
      refine ⟨_, rfl, length_onSuccess _, ?_⟩
      rw [Bool.eq_iff_iff, any_onSuccess]
      simp only [Event.enters, decide_eq_true_eq]
      exact Auth.validateAPIKey_userID
  | service l =>
      obtain ⟨next, hnext, rfl⟩ := Option.map_eq_some_iff.mp h
      exact ⟨_, rfl, (service_enters userID hnext).2, (service_enters userID hnext).1⟩

theorem lockedOut_concat {log : List Event} {event : Event} :
    LockedOut userID (log ++ [event]) ↔
      LockedOut userID log ∧ (isLocked userID log = true → event.enters userID = false) := by
  constructor
  · intro h
    refine ⟨fun before e after hlog => h before e (after ++ [event]) (by simp [hlog]), ?_⟩
    exact h log event [] rfl
  · rintro ⟨hlog, hlast⟩ before e after hsplit
    cases after using List.reverseRecOn with
    | nil =>
        obtain ⟨rfl, heq⟩ := List.append_inj' hsplit rfl
        cases heq
        exact hlast
    | append_singleton after final =>
        rw [← List.cons_append, ← List.append_assoc] at hsplit
        exact hlog before e after (List.append_inj' hsplit rfl).1

theorem lockedOut_append {log events : List Event} (hone : events.length ≤ 1) :
    LockedOut userID (log ++ events) ↔ LockedOut userID log ∧
      (isLocked userID log && events.any (Event.enters userID)) = false := by
  match events with
  | [] => simp
  | [event] =>
      rw [lockedOut_concat]
      cases isLocked userID log <;> simp
  | _ :: _ :: _ => simp at hone

theorem step_lockedOut {w v : World} {l : WorldLabel} (h : w.step compareHashAndPassword l = some v) :
    LockedOut userID v.log ↔
      LockedOut userID w.log ∧ keepsOut compareHashAndPassword userID w l = true := by
  obtain ⟨events, hlog, hone, hany⟩ := step_log userID h
  rw [hlog, lockedOut_append hone, hany, keepsOut, Bool.not_eq_true']

end Steps

-- A move of a status changes none of the conditions for an entry.
theorem admits_moveStatus {source target : Auth.UserStatus} {failed notFound : String}
    {auth : Option AuthData} {id : UserID} {answer : Option Time} {w : World} {l : WorldLabel} :
    admits compareHashAndPassword userID
      { w with auth.users := (Auth.moveStatus source target failed notFound auth id answer w.auth.users).2 } l =
      admits compareHashAndPassword userID w l := by
  obtain hsame | ⟨now, hmoved⟩ := Auth.moveStatus_users source target failed notFound auth id answer w.auth.users
  · rw [hsame]
  · rw [hmoved]
    cases l with
    | adminLogin body a => simp only [admits, Auth.logsIn_setStatus]
    | clientLogin r a => simp only [admits, Auth.logsIn_setStatus]
    | authenticate h key query =>
        cases query with
        | true => exact Auth.keyAdmits_setStatus ..
        | false => rfl
    | service | createUser | freezeUser | unfreezeUser | keys | maintain => rfl

-- A user is locked out by a freeze exactly in the runs in which no step meets the
-- conditions that the code has for an entry: no entry path reads the status.
theorem lockedOut_iff {compareHashAndPassword : String → String → Bool} {auth : AuthDB}
    {labels : List WorldLabel} {w : World} (hrun : World.run compareHashAndPassword auth labels = some w)
    (userID : UserID) : LockedOut userID w.log ↔
      Machine.run (Machine.restrict (keepsOut compareHashAndPassword userID)
        (World.step compareHashAndPassword)) (World.init auth) labels = some w := by
  have hempty : LockedOut userID (World.init auth).log := by
    intro before event after hlog
    cases before <;> cases hlog
  have hsplit := Machine.restrict_or (P := fun w : World => LockedOut userID w.log)
    (Q := fun w => ¬LockedOut userID w.log) hempty
    (fun _ _ _ hw hkeeps h => (step_lockedOut h).mpr ⟨hw, hkeeps⟩)
    (fun _ _ _ _ hadmits h hv => by
      rw [((step_lockedOut h).mp hv).2] at hadmits
      cases hadmits)
    (fun _ _ _ hw h hv => hw ((step_lockedOut h).mp hv).1) hrun
  obtain ⟨hmeets, hlocked⟩ | ⟨hleaves, hentered⟩ := hsplit
  · exact ⟨fun _ => hmeets, fun _ => hlocked⟩
  · refine ⟨fun hlocked => absurd hlocked hentered, fun hmeets => ?_⟩
    rw [hleaves] at hmeets
    cases hmeets

-- A password and its bcrypt hash.
def seedHash : String := "$2a$10$R/XHEykG1mObVZdEwMryfe4r8Nmzy8gdxO5YLVLRlVtcuJjm5RzYS"

def seedPassword (hash password : String) : Bool := hash = seedHash && password = "changeme123"

def carol : Auth.User := { Auth.alice with passwordHash := seedHash }

def onlyCarol : AuthDB :=
  ⟨⟨⟨[carol], List.nodup_singleton _⟩, List.nodup_singleton _⟩, IndexedTable.empty⟩

def answered : LoginAnswers := ⟨true, true, 0, 0⟩

-- A frozen user is kept out by a wrong password only, and logs in once it is
-- active again.
def wrongPassword : List WorldLabel :=
  [.freezeUser operator 7 (some 1), .clientLogin ⟨carol.email, "guess"⟩ answered,
   .unfreezeUser operator 7 (some 2), .clientLogin ⟨carol.email, "changeme123"⟩ answered]

theorem lockedOut_iff_unfrozen : ∃ w, World.run seedPassword onlyCarol wrongPassword = some w ∧
    w.log = [.frozen 7, .unfrozen 7, .loggedIn 7] ∧ LockedOut 7 w.log := by
  have hkept : (Machine.run (Machine.restrict (keepsOut seedPassword 7) (World.step seedPassword))
      (World.init onlyCarol) wrongPassword).map World.log =
      some [.frozen 7, .unfrozen 7, .loggedIn 7] := by decide +kernel
  obtain ⟨w, hkept, hlog⟩ := Option.map_eq_some_iff.mp hkept
  have hrun : World.run seedPassword onlyCarol wrongPassword = some w := Machine.run_of_restrict hkept
  exact ⟨w, hrun, hlog, (lockedOut_iff hrun 7).mpr hkept⟩

-- A frozen user logs in, uses a key, and has a call admitted.
def enters : List WorldLabel :=
  [.keys (.create Auth.aliceCalls (some Auth.firstKey) (some 1)),
   .service (.createAccount ⟨⟨7, 100000, 5, none⟩, rfl⟩), .freezeUser operator 7 (some 1),
   .clientLogin ⟨carol.email, "changeme123"⟩ answered,
   .authenticate Auth.noHeaders Auth.firstKey.fullKey true,
   .service (.initiate (some ⟨7, "client"⟩) ⟨"13800000000", "13900000000", none, none, []⟩ "c1"),
   .service (.move 0 (.reply .ok)), .service (.move 0 (.reply (.account ⟨0, 100000, 5, none, .active⟩))),
   .service (.move 0 (.reply (.counted "2026-03-11" 1))), .service (.move 0 (.reply (.rates 60 120))),
   .service (.move 0 (.reply .ok))]

theorem frozen_enters : ∃ w, World.run seedPassword onlyCarol enters = some w ∧
    w.log = [.frozen 7, .loggedIn 7, .authenticated 7, .preDeducted 7] ∧ ¬LockedOut 7 w.log := by
  have hrun : (World.run seedPassword onlyCarol enters).map World.log =
      some [.frozen 7, .loggedIn 7, .authenticated 7, .preDeducted 7] := by decide +kernel
  obtain ⟨w, hrun, hlog⟩ := Option.map_eq_some_iff.mp hrun
  refine ⟨w, hrun, hlog, fun hlocked => ?_⟩
  have hkept := hlocked [.frozen 7] (.loggedIn 7) [.authenticated 7, .preDeducted 7] hlog rfl
  cases hkept

end Bos3000.Service
