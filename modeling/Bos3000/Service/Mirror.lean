import Bos3000.Auth.Users
import Bos3000.Billing.Ledger

-- The balance and the credit limit of a customer, which the auth service and the
-- billing service store each for itself.
namespace Bos3000.Service

open Auth (CreateUserRequest ListUsersParams User Users createUser freezeUser getUser listUsers unfreezeUser)
open Billing (Account AccountRequest Database Op Transaction createAccount databaseStep)

structure Copies where
  users : Users
  billing : Database

inductive CopiesLabel
  | createUser (auth : Option AuthData) (r : CreateUserRequest) (hash : Option String)
      (answer : Option (UserID × Time))
  | freezeUser (auth : Option AuthData) (id : UserID) (answer : Option Time)
  | unfreezeUser (auth : Option AuthData) (id : UserID) (answer : Option Time)
  | billing (l : RowLock.Label Op AccountRequest)

def Copies.step (s : Copies) : CopiesLabel → Option Copies
  | .createUser auth r hash answer => some { s with users := (createUser auth r hash answer s.users).2 }
  | .freezeUser auth id answer => some { s with users := (freezeUser auth id answer s.users).2 }
  | .unfreezeUser auth id answer => some { s with users := (unfreezeUser auth id answer s.users).2 }
  | .billing l => (databaseStep s.billing l).map fun billing => { s with billing }

def Copies.run (users : Users) (labels : List CopiesLabel) : Option Copies :=
  Machine.run Copies.step ⟨users, RowLock.State.empty⟩ labels

-- The user and its account are opened with one credit limit.
def CopiesLabel.opens (userID : UserID) (creditLimit : Money) : CopiesLabel → Prop
  | .createUser _ r _ answer => answer.map Prod.fst = some userID → r.creditLimit = creditLimit
  | .billing (.create request) => request.params.userID = userID → request.params.creditLimit = creditLimit
  | .billing _ | .freezeUser .. | .unfreezeUser .. => True

-- What the administrator's endpoints report of a user is what its account has.
def Agrees (users : Users) (userID : UserID) (account : Account) : Prop :=
  (∀ auth detail, getUser auth userID (some users) = .ok detail →
    detail.balance = account.balance ∧ detail.creditLimit = account.creditLimit) ∧
  ∀ ilike auth p count response, listUsers ilike auth p count (some users) = .ok response →
    ∀ summary ∈ response.users, summary.id = userID →
      summary.balance = account.balance ∧ summary.creditLimit = account.creditLimit

-- The amounts of a user's transactions, in the order of their ids.
def total (rows : List Transaction) : Money := rows.foldl (fun sum tx => sum + tx.signed) 0

section Copies

variable {users : Users} {userID : UserID} {creditLimit : Money} {s t : Copies}

-- Nothing but CreateUser writes the balance and the credit limit of a user.
def Opened (userID : UserID) (creditLimit : Money) (users : Users) : Prop :=
  ∀ u, users.find userID = some u → u.balance = 0 ∧ u.creditLimit = creditLimit

theorem createUser_opened {auth : Option AuthData} {r : CreateUserRequest} {hash : Option String}
    {answer : Option (UserID × Time)} (hinv : Opened userID creditLimit users)
    (hopens : answer.map Prod.fst = some userID → r.creditLimit = creditLimit) :
    Opened userID creditLimit (createUser auth r hash answer users).2 := by
  obtain hsame | ⟨new, hid, hbalance, hlimit, hinsert⟩ := Auth.createUser_users auth r hash answer users
  · rwa [hsame]
  · intro u hu
    rw [Table.find_insert (IndexedTable.insert_eq_some.mp hinsert)] at hu
    split at hu
    · rename_i hnew
      cases hu
      exact ⟨hbalance, hlimit.trans (hopens (hid.trans (congrArg some hnew.symm)))⟩
    · exact hinv u hu

theorem moveStatus_opened {source target : Auth.UserStatus} {failed notFound : String}
    {auth : Option AuthData} {id : UserID} {answer : Option Time} (hinv : Opened userID creditLimit users) :
    Opened userID creditLimit
      (Auth.moveStatus source target failed notFound auth id answer users).2 := by
  obtain hsame | ⟨now, hmoved⟩ := Auth.moveStatus_users source target failed notFound auth id answer users
  · rwa [hsame]
  · rw [hmoved]
    intro u hu
    rw [IndexedTable.find_assign] at hu
    obtain ⟨old, hold, rfl⟩ := Option.map_eq_some_iff.mp hu
    split
    · exact hinv old hold
    · exact hinv old hold

-- What holds of a user and its account while they are opened with one limit.
structure Mirrored (userID : UserID) (creditLimit : Money) (s : Copies) : Prop where
  database : RowLock.Inv Op.operation s.billing
  user : Opened userID creditLimit s.users
  account : ∀ account, s.billing.rows userID = some account → account.creditLimit = creditLimit

theorem step_mirrored {l : CopiesLabel} (hopens : l.opens userID creditLimit)
    (hinv : Mirrored userID creditLimit s) (h : s.step l = some t) : Mirrored userID creditLimit t := by
  cases l with
  | createUser auth r hash answer =>
      cases h
      exact ⟨hinv.database, createUser_opened hinv.user hopens, hinv.account⟩
  | freezeUser auth id answer | unfreezeUser auth id answer =>
      cases h
      exact ⟨hinv.database, moveStatus_opened hinv.user, hinv.account⟩
  | billing l =>
      obtain ⟨billing, hstep, rfl⟩ := Option.map_eq_some_iff.mp h
      refine ⟨(RowLock.step_serial Op.operation createAccount hinv.database hstep).1, hinv.user, ?_⟩
      intro account haccount
      obtain hsame | ⟨request, rfl, hcreated⟩ | ⟨op, old, tx, hkey, hold, heffect⟩ :=
        RowLock.step_rows Op.operation createAccount hinv.database hstep haccount
      · exact hinv.account account hsame
      · cases hcreated
        exact hopens rfl
      · have hrecorded := Billing.Op.recorded (Billing.Op.effect_eq_some.mp heffect)
        exact hrecorded.creditLimit.trans (hinv.account old hold)

theorem run_mirrored {labels : List CopiesLabel} (hnone : users.find userID = none)
    (hopens : ∀ l ∈ labels, l.opens userID creditLimit) (hrun : Copies.run users labels = some s) :
    Mirrored userID creditLimit s := by
  have hstart : Mirrored userID creditLimit ⟨users, RowLock.State.empty⟩ := by
    refine ⟨RowLock.inv_empty, fun u hu => ?_, fun account haccount => ?_⟩
    · rw [hnone] at hu
      cases hu
    · cases haccount
  refine Machine.run_induction
    (motive := fun labels s => (∀ l ∈ labels, l.opens userID creditLimit) → Mirrored userID creditLimit s)
    (fun _ => hstart) ?_ hrun hopens
  intro labels l middle t _ ih hstep hall
  have hlast := hall l (List.mem_append_right _ (List.mem_singleton_self l))
  exact step_mirrored hlast (ih fun l hl => hall l (List.mem_append_left _ hl)) hstep

-- The billing database of a run is one of its own runs.
theorem run_billing {labels : List CopiesLabel} (hrun : Copies.run users labels = some s) :
    ∃ above, Machine.run databaseStep RowLock.State.empty above = some s.billing := by
  refine Machine.simulate (P := fun _ => True) Copies.billing (fun s l t _ h => ⟨trivial, ?_⟩) trivial hrun
  cases l with
  | createUser | freezeUser | unfreezeUser =>
      cases h
      exact ⟨[], rfl⟩
  | billing l =>
      obtain ⟨billing, hstep, rfl⟩ := Option.map_eq_some_iff.mp h
      exact ⟨[l], (Machine.run_singleton _ _ _).mpr hstep⟩

theorem balance_total {labels : List CopiesLabel} (hrun : Copies.run users labels = some s)
    {account : Account} (haccount : s.billing.rows userID = some account) :
    account.balance = total ((s.billing.inIdOrder userID).map RowLock.Entry.body) := by
  obtain ⟨above, habove⟩ := run_billing hrun
  have hrecorded := RowLock.recorded Op.operation createAccount
    (R := fun rows account => account.balance = total rows) (fun _ => rfl) ?_ habove userID
  · exact hrecorded.2 account haccount
  · intro op rows account new tx hbalance heffect
    obtain ⟨hafter, hnew, _, _⟩ := Billing.Op.recorded (Billing.Op.effect_eq_some.mp heffect)
    rw [hnew, hafter, hbalance]
    simp [total]

end Copies

-- The two copies of the credit limit always agree, and the two copies of the
-- balance agree exactly while the user's transactions sum to 0: no money operation
-- writes the copy of the auth service.
theorem agrees_iff {users : Users} {labels : List CopiesLabel} {s : Copies} {userID : UserID}
    {creditLimit : Money} {u : User} {account : Account} (hnone : users.find userID = none)
    (hopens : ∀ l ∈ labels, l.opens userID creditLimit) (hrun : Copies.run users labels = some s)
    (hu : s.users.find userID = some u) (haccount : s.billing.rows userID = some account) :
    (Agrees s.users userID account ↔ total ((s.billing.inIdOrder userID).map RowLock.Entry.body) = 0) ∧
      u.creditLimit = account.creditLimit := by
  have hinv := run_mirrored hnone hopens hrun
  obtain ⟨hzero, hlimit⟩ := hinv.user u hu
  have hsame : u.creditLimit = account.creditLimit := hlimit.trans (hinv.account account haccount).symm
  rw [← balance_total hrun haccount]
  refine ⟨⟨fun h => ?_, fun hbalance => ⟨fun auth detail hget => ?_, ?_⟩⟩, hsame⟩
  · have hget : getUser (some ⟨0, "admin"⟩) userID (some s.users) = .ok u.detail := by
      simp [getUser, Auth.requireAdmin, hu]
    exact ((h.1 _ _ hget).1).symm.trans hzero
  · rw [Auth.getUser_eq_ok hu hget]
    exact ⟨hzero.trans hbalance.symm, hsame⟩
  · intro ilike auth p count response hlist summary hmem hid
    obtain ⟨row, hrow, rfl⟩ := Auth.mem_listUsers ilike hlist hmem
    have hfound : s.users.find userID = some row := Table.find_eq_some.mpr ⟨hrow, hid⟩
    cases hu.symm.trans hfound
    exact ⟨hzero.trans hbalance.symm, hsame⟩

-- A customer and its account, with the same credit limit.
def opening : List CopiesLabel :=
  [.createUser operator ⟨"dave@example.com", "dave", "correct horse", 500, 5, 100, none, none, none, ""⟩
     (some "hash") (some (7, 0)),
   .billing (.create ⟨⟨7, 500, 5, none⟩, rfl⟩)]

-- A hold is taken and given back.
def refunded : List CopiesLabel :=
  opening ++ [CopiesLabel.billing (.begin (.preDeduct ⟨7, "c1", 3, 3⟩)), .billing (.lock 0), .billing (.update 0),
    .billing (.insert 0), .billing (.commit 0), .billing (.begin (.finalize ⟨7, "c1", 0, 0, 3, 3, 180⟩)),
    .billing (.lock 1), .billing (.update 1), .billing (.insert 1), .billing (.commit 1)]

theorem agrees_iff_refunded : ∃ s account, Copies.run IndexedTable.empty refunded = some s ∧
    s.billing.rows 7 = some account ∧ Agrees s.users 7 account := by
  have hrun : (Copies.run IndexedTable.empty refunded).map
      (fun s => (s.billing.rows 7, (s.users.find 7).isSome)) =
      some (some ⟨0, 500, 5, none, .active⟩, true) := by decide +kernel
  obtain ⟨s, hrun, hstate⟩ := Option.map_eq_some_iff.mp hrun
  obtain ⟨haccount, hsome⟩ := Prod.mk.injEq .. ▸ hstate
  obtain ⟨u, hu⟩ := Option.isSome_iff_exists.mp hsome
  have hopens : ∀ l ∈ refunded, l.opens 7 500 := by
    simp [refunded, opening, CopiesLabel.opens]
  refine ⟨s, _, hrun, haccount, ((agrees_iff rfl hopens hrun hu haccount).1).mpr ?_⟩
  rw [← balance_total hrun haccount]

-- A top-up leaves the copy that administrators see at 0.
def toppedUp : List CopiesLabel :=
  opening ++ [CopiesLabel.billing (.begin (.topup 7 ⟨3000, rfl⟩)), .billing (.lock 0), .billing (.update 0),
    .billing (.insert 0), .billing (.commit 0)]

theorem toppedUp_differs : (∀ l ∈ toppedUp, l.opens 7 500) ∧
    ∃ s account, Copies.run IndexedTable.empty toppedUp = some s ∧
      s.billing.rows 7 = some account ∧ ¬Agrees s.users 7 account := by
  refine ⟨by simp [toppedUp, opening, CopiesLabel.opens], ?_⟩
  have hrun : (Copies.run IndexedTable.empty toppedUp).map (fun s => (s.billing.rows 7,
      (getUser operator 7 (some s.users)).map fun detail => detail.balance)) =
      some (some ⟨3000, 500, 5, none, .active⟩, .ok 0) := by decide +kernel
  obtain ⟨s, hrun, hstate⟩ := Option.map_eq_some_iff.mp hrun
  obtain ⟨haccount, hreported⟩ := Prod.mk.injEq .. ▸ hstate
  refine ⟨s, _, hrun, haccount, fun hagrees => ?_⟩
  cases hget : getUser operator 7 (some s.users) with
  | error e =>
      rw [hget] at hreported
      cases hreported
  | ok detail =>
      rw [hget] at hreported
      have hzero : detail.balance = 0 := Except.ok.inj hreported
      have hsame := (hagrees.1 _ _ hget).1
      rw [hzero] at hsame
      cases hsame

end Bos3000.Service
