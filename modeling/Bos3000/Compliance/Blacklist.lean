import Bos3000.Lib.Machine
import Bos3000.Lib.Table
import Bos3000.Types

-- The blacklist of the compliance service. Each operation is one statement on
-- blacklisted_numbers, CheckBlacklist is two.
namespace Bos3000.Compliance

-- A row of blacklisted_numbers. An entry without a user is global.
structure BlacklistEntry where
  id : Int64
  number : String
  userID : Option UserID
  reason : String
  createdBy : UserID
  deriving DecidableEq, Repr

-- UNIQUE NULLS NOT DISTINCT (number, user_id)
def BlacklistEntry.target (e : BlacklistEntry) : String × Option UserID := (e.number, e.userID)

abbrev BlacklistedNumbers := IndexedTable BlacklistEntry.id BlacklistEntry.target

structure CheckBlacklistParams where
  calledNumber : String
  userID : UserID
  deriving DecidableEq, Repr

def globalHit (db : BlacklistedNumbers) (number : String) : Bool :=
  db.rows.any fun e => e.number = number && e.userID = none

def clientHit (db : BlacklistedNumbers) (number : String) (userID : UserID) : Bool :=
  db.rows.any fun e => e.number = number && e.userID = some userID

-- Each of the two statements reads the table as it stands at that moment, or fails.
def checkBlacklist (p : CheckBlacklistParams) (first second : Except String BlacklistedNumbers) :
    Except APIError Unit :=
  match first with
  | .error e => .error ⟨.Unknown, "check global blacklist: " ++ e⟩
  | .ok db =>
      if globalHit db p.calledNumber then
        .error ⟨.FailedPrecondition, "number is globally blacklisted"⟩
      else
        match second with
        | .error e => .error ⟨.Unknown, "check client blacklist: " ++ e⟩
        | .ok db =>
            if clientHit db p.calledNumber p.userID then
              .error ⟨.FailedPrecondition, "number is blacklisted for this account"⟩
            else .ok ()

structure AddBlacklistParams where
  number : String
  userID : Option UserID
  reason : String
  deriving DecidableEq, Repr

-- The answer of the INSERT is the id of the new row, or an error.
def addBlacklist (auth : Option AuthData) (p : AddBlacklistParams) (answer : Except String Int64)
    (db : BlacklistedNumbers) : Option (Except APIError Int64 × BlacklistedNumbers) :=
  match auth with
  | none => some (.error ⟨.Unauthenticated, "not authenticated"⟩, db)
  | some ad =>
      if ad.role ≠ "admin" ∧ p.userID = none then
        some (.error ⟨.PermissionDenied, "only admins can add global blacklist entries"⟩, db)
      -- Clients can only add to their own blacklist
      else if ad.role ≠ "admin" ∧ p.userID ≠ some ad.userID then
        some (.error ⟨.PermissionDenied, "can only add blacklist entries for your own account"⟩, db)
      else
        match answer with
        | .error e => some (.error ⟨.Unknown, "insert blacklist: " ++ e⟩, db)
        | .ok id =>
            (varchar 20 p.number).bind fun number =>
              (db.insert ⟨id, number, p.userID, p.reason, ad.userID⟩).map fun db => (.ok id, db)

-- The rows that the DELETE of a caller matches.
def removable (ad : AuthData) (id : Int64) (e : BlacklistEntry) : Bool :=
  e.id = id && (ad.role = "admin" || e.createdBy = ad.userID)

def removeBlacklist (auth : Option AuthData) (id : Int64) (answer : Except String Unit)
    (db : BlacklistedNumbers) : Except APIError Unit × BlacklistedNumbers :=
  match auth with
  | none => (.error ⟨.Unauthenticated, "not authenticated"⟩, db)
  | some ad =>
      match answer with
      | .error e => (.error ⟨.Unknown, "delete blacklist: " ++ e⟩, db)
      | .ok _ =>
          if db.rows.any (removable ad id) then (.ok (), db.delete (removable ad id))
          else (.error ⟨.NotFound, "blacklist entry not found"⟩, db)

inductive Label
  | add (auth : Option AuthData) (p : AddBlacklistParams) (answer : Except String Int64)
  | remove (auth : Option AuthData) (id : Int64) (answer : Except String Unit)

def Label.auth : Label → Option AuthData
  | .add auth .. | .remove auth .. => auth

def step (db : BlacklistedNumbers) : Label → Option BlacklistedNumbers
  | .add auth p answer => (addBlacklist auth p answer db).map Prod.snd
  | .remove auth id answer => some (removeBlacklist auth id answer db).2

def run (labels : List Label) : Option BlacklistedNumbers :=
  Machine.run step IndexedTable.empty labels

-- A caller's role is the one its user has.
def Label.InRole (role : UserID → String) (label : Label) : Prop :=
  ∀ ad, label.auth = some ad → ad.role = role ad.userID

section Step

variable {db next : BlacklistedNumbers} {label : Label}

-- What an operation does to the rows: nothing, or it adds one, or it removes those
-- that its caller may remove.
theorem step_rows (h : step db label = some next) :
    next = db ∨
    (∃ ad new, label.auth = some ad ∧ new.createdBy = ad.userID ∧
      (ad.role = "admin" ∨ new.userID = some ad.userID) ∧ next.rows = db.rows ++ [new]) ∨
    ∃ ad id, label.auth = some ad ∧ next = db.delete (removable ad id) := by
  cases label with
  | add auth p answer =>
      obtain ⟨⟨response, _⟩, hadd, rfl⟩ := Option.map_eq_some_iff.mp h
      revert hadd
      fun_cases addBlacklist auth p answer db
      case case5 ad hglobal hown id =>
          intro hadd
          obtain ⟨number, _, hinsert⟩ := Option.bind_eq_some_iff.mp hadd
          obtain ⟨db', hinsert, heq⟩ := Option.map_eq_some_iff.mp hinsert
          cases heq
          have hrows := (Table.insert_eq_some (IndexedTable.insert_eq_some.mp hinsert)).1
          refine .inr (.inl ⟨ad, _, rfl, rfl, ?_, hrows⟩)
          by_cases hrole : ad.role = "admin"
          · exact .inl hrole
          · exact .inr (by_contra fun hne => hown ⟨hrole, hne⟩)
      all_goals
        intro hadd
        cases hadd
        exact .inl rfl
  | remove auth id answer =>
      cases h
      fun_cases removeBlacklist auth id answer db
      case case3 ad _ _ => exact .inr (.inr ⟨ad, id, rfl, rfl⟩)
      all_goals exact .inl rfl

-- The entries that are not made by an administrator are for their own makers.
def Owned (role : UserID → String) (db : BlacklistedNumbers) : Prop :=
  ∀ e ∈ db.rows, role e.createdBy ≠ "admin" → e.userID = some e.createdBy

theorem step_owned {role : UserID → String} (hrole : label.InRole role) (hinv : Owned role db)
    (h : step db label = some next) : Owned role next := by
  obtain rfl | ⟨ad, new, hauth, hcreated, htarget, hrows⟩ | ⟨ad, id, _, rfl⟩ := step_rows h
  · exact hinv
  · intro e he hclient
    rw [hrows, List.mem_append, List.mem_singleton] at he
    obtain he | rfl := he
    · exact hinv e he hclient
    · rw [hcreated, ← hrole ad hauth] at hclient
      rw [hcreated]
      exact htarget.resolve_left hclient
  · intro e he hclient
    exact hinv e (Table.mem_delete.mp he).1 hclient

theorem run_owned {role : UserID → String} {labels : List Label}
    (hroles : ∀ label ∈ labels, label.InRole role) (hrun : run labels = some db) : Owned role db := by
  have hempty : Owned role IndexedTable.empty := fun e he => absurd he List.not_mem_nil
  refine Machine.run_induction
    (motive := fun labels db => (∀ label ∈ labels, label.InRole role) → Owned role db)
    (fun _ => hempty) ?_ hrun hroles
  intro labels label middle db _ ih hstep hall
  have hlast := hall label (List.mem_append_right _ (List.mem_singleton_self label))
  exact step_owned hlast (ih fun l hl => hall l (List.mem_append_left _ hl)) hstep

-- A client's operation leaves every entry alone but those the client made for itself.
theorem client_mem {role : UserID → String} (hinv : Owned role db) {ad : AuthData}
    (hauth : label.auth = some ad) (hrole : ad.role = role ad.userID) (hclient : ad.role ≠ "admin")
    (h : step db label = some next) {e : BlacklistEntry}
    (he : ¬(e.createdBy = ad.userID ∧ e.userID = some ad.userID)) : e ∈ next.rows ↔ e ∈ db.rows := by
  obtain rfl | ⟨ad', new, hauth', hcreated, htarget, hrows⟩ | ⟨ad', id, hauth', rfl⟩ := step_rows h
  · rfl
  · cases hauth.symm.trans hauth'
    have hne : e ≠ new := by
      rintro rfl
      exact he ⟨hcreated, htarget.resolve_left hclient⟩
    simp [hrows, hne]
  · cases hauth.symm.trans hauth'
    refine ⟨fun hm => (Table.mem_delete.mp hm).1, fun hm => Table.mem_delete.mpr ⟨hm, ?_⟩⟩
    by_contra hremovable
    simp only [removable, Bool.not_eq_false, Bool.and_eq_true, Bool.or_eq_true, decide_eq_true_eq,
      hclient, false_or] at hremovable
    obtain ⟨_, hcreated⟩ := hremovable
    have hnot : role e.createdBy ≠ "admin" := by rwa [hcreated, ← hrole]
    exact he ⟨hcreated, (hinv e hm hnot).trans (congrArg some hcreated)⟩

theorem globalHit_congr (h : ∀ e : BlacklistEntry, e.userID = none → (e ∈ next.rows ↔ e ∈ db.rows))
    (number : String) : globalHit next number = globalHit db number := by
  rw [Bool.eq_iff_iff]
  simp only [globalHit, List.any_eq_true, Bool.and_eq_true, decide_eq_true_eq]
  refine exists_congr fun e => and_congr_left fun ⟨_, hnull⟩ => h e hnull

theorem clientHit_congr {userID : UserID}
    (h : ∀ e : BlacklistEntry, e.userID = some userID → (e ∈ next.rows ↔ e ∈ db.rows))
    (number : String) : clientHit next number userID = clientHit db number userID := by
  rw [Bool.eq_iff_iff]
  simp only [clientHit, List.any_eq_true, Bool.and_eq_true, decide_eq_true_eq]
  refine exists_congr fun e => and_congr_left fun ⟨_, huser⟩ => h e huser

-- CheckBlacklist depends on the table through the two hits only.
theorem checkBlacklist_congr {p : CheckBlacklistParams}
    (hglobal : globalHit next p.calledNumber = globalHit db p.calledNumber)
    (hclient : clientHit next p.calledNumber p.userID = clientHit db p.calledNumber p.userID)
    (other : Except String BlacklistedNumbers) :
    checkBlacklist p (.ok next) other = checkBlacklist p (.ok db) other ∧
      checkBlacklist p other (.ok next) = checkBlacklist p other (.ok db) := by
  constructor
  · simp only [checkBlacklist, hglobal]
  · cases other with
    | error e => rfl
    | ok first => simp only [checkBlacklist, hclient]

end Step

-- A client's operation is not seen by a check for any other user, whichever of its
-- two statements runs after it, and it leaves the global entries and those that
-- administrators made.
theorem blacklist_noninterference {role : UserID → String} {labels : List Label} {label : Label}
    {db next : BlacklistedNumbers} {ad : AuthData} (hroles : ∀ l ∈ labels ++ [label], l.InRole role)
    (hrun : run labels = some db) (hauth : label.auth = some ad) (hclient : ad.role ≠ "admin")
    (hstep : step db label = some next) :
    (∀ p : CheckBlacklistParams, p.userID ≠ ad.userID → ∀ other,
      checkBlacklist p (.ok next) other = checkBlacklist p (.ok db) other ∧
      checkBlacklist p other (.ok next) = checkBlacklist p other (.ok db)) ∧
    (∀ e : BlacklistEntry, e.userID = none → (e ∈ next.rows ↔ e ∈ db.rows)) ∧
    ∀ e ∈ db.rows, role e.createdBy = "admin" → e ∈ next.rows := by
  have hinv : Owned role db := run_owned (fun l hl => hroles l (List.mem_append_left _ hl)) hrun
  have hrole : ad.role = role ad.userID :=
    hroles label (List.mem_append_right _ (List.mem_singleton_self label)) ad hauth
  have hmem : ∀ e : BlacklistEntry, ¬(e.createdBy = ad.userID ∧ e.userID = some ad.userID) →
      (e ∈ next.rows ↔ e ∈ db.rows) :=
    fun e he => client_mem hinv hauth hrole hclient hstep he
  have hglobal : ∀ e : BlacklistEntry, e.userID = none → (e ∈ next.rows ↔ e ∈ db.rows) := by
    intro e hnull
    exact hmem e (by simp [hnull])
  refine ⟨fun p hp => checkBlacklist_congr (globalHit_congr hglobal _) (clientHit_congr ?_ _),
    hglobal, fun e he hadmin => (hmem e ?_).mpr he⟩
  · intro e huser
    exact hmem e fun ⟨_, hown⟩ => hp (Option.some.inj (huser.symm.trans hown))
  · rintro ⟨hcreated, _⟩
    exact hclient (hrole.trans (hcreated ▸ hadmin))

-- A client removes its own entry while an administrator's entry blocks it from
-- the same number.
def blacklisted : List Label :=
  [.add (some ⟨1, "admin"⟩) ⟨"110", none, "emergency"⟩ (.ok 1),
   .add (some ⟨1, "admin"⟩) ⟨"95588", some 2, "fraud"⟩ (.ok 2),
   .add (some ⟨2, "client"⟩) ⟨"12345", some 2, "spam"⟩ (.ok 3),
   .remove (some ⟨2, "client"⟩) 2 (.ok ())]

theorem blacklist_noninterference_removed :
    ∃ db next : BlacklistedNumbers, run blacklisted = some db ∧
      step db (.remove (some ⟨2, "client"⟩) 3 (.ok ())) = some next ∧ next ≠ db ∧
      ∀ e ∈ db.rows, e.createdBy = 1 → e ∈ next.rows := by
  refine ⟨_, _, rfl, rfl, ?_, fun e he hadmin => ?_⟩
  · intro heq
    exact absurd (congrArg (fun db : BlacklistedNumbers => db.rows.length) heq) (by decide)
  · have hroles : ∀ l ∈ blacklisted ++ [.remove (some ⟨2, "client"⟩) 3 (.ok ())],
        l.InRole fun userID => if userID = 1 then "admin" else "client" := by
      simp [blacklisted, Label.InRole, Label.auth]
    exact (blacklist_noninterference hroles rfl rfl (by decide) rfl).2.2 e he (by rw [hadmin]; rfl)

end Bos3000.Compliance
