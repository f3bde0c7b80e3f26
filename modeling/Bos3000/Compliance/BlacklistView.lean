import Bos3000.Compliance.Blacklist
import Bos3000.Lib.Select
import Bos3000.Listing

-- What a user is shown of the blacklist, against what its calls are refused for and
-- what it may lift.
namespace Bos3000.Compliance

structure ListBlacklistParams where
  userID : UserID
  globalOnly : Bool
  deriving DecidableEq, Repr

-- The WHERE clauses that ListBlacklist chooses from.
def ListBlacklistParams.selects (p : ListBlacklistParams) (ad : AuthData) (e : BlacklistEntry) : Bool :=
  if ad.role = "admin" then
    if p.globalOnly then e.userID = none
    else if p.userID ≠ 0 then e.userID = none || e.userID = some p.userID
    else true
  -- Client sees own + global
  else e.userID = none || e.userID = some ad.userID

-- The entries are those received: rows.Err() is not read.
def listBlacklist (auth : Option AuthData) (p : ListBlacklistParams) (fault : Option PageFault)
    (db : BlacklistedNumbers) : Except APIError (List BlacklistEntry) :=
  match auth, fault with
  | none, _ => .error ⟨.Unauthenticated, "not authenticated"⟩
  | some _, some (.refused e) => .error ⟨.Unknown, "query blacklist: " ++ e⟩
  | some ad, fault => .ok (received fault (db.select (p.selects ad)))

-- A removal that the entry is gone after.
def Label.lifts (e : BlacklistEntry) : Label → Bool
  | .remove (some ad) id (.ok _) => removable ad id e
  | _ => false

section Shown

variable {db next first second : BlacklistedNumbers} {ad : AuthData} {p : ListBlacklistParams} {e : BlacklistEntry}

theorem listBlacklist_client (hclient : ad.role ≠ "admin") : ∃ shown,
    listBlacklist (some ad) p none db = .ok shown ∧
    shown.Pairwise (fun a b => a.id < b.id) ∧
    ∀ e, e ∈ shown ↔ e ∈ db.rows ∧ (e.userID = none ∨ e.userID = some ad.userID) := by
  refine ⟨db.select (p.selects ad), rfl, Table.select_ascending, fun e => ?_⟩
  rw [Table.mem_select, ListBlacklistParams.selects, if_neg hclient, Bool.or_eq_true, decide_eq_true_eq,
    decide_eq_true_eq]

theorem globalHit_iff {number : String} : globalHit db number = true ↔ ∃ e ∈ db.rows, e.number = number ∧
    e.userID = none := by
  simp [globalHit]

theorem clientHit_iff {number : String} {userID : UserID} :
    clientHit db number userID = true ↔ ∃ e ∈ db.rows, e.number = number ∧ e.userID = some userID := by
  simp [clientHit]

-- A call goes through where the first look finds no global entry and the second none
-- of the user.
theorem checkBlacklist_eq_ok {q : CheckBlacklistParams} : checkBlacklist q (.ok first) (.ok second) = .ok () ↔
    globalHit first q.calledNumber = false ∧ clientHit second q.calledNumber q.userID = false := by
  unfold checkBlacklist
  cases hglobal : globalHit first q.calledNumber <;> cases hclient : clientHit second q.calledNumber q.userID <;>
    simp [hglobal, hclient]

-- An addition is refused and changes nothing, or it puts an entry at the end. An
-- administrator's is only refused where the database refuses it.
theorem addBlacklist_rows {auth : Option AuthData} {q : AddBlacklistParams} {answer : Except String Int64}
    {response : Except APIError Int64} (h : addBlacklist auth q answer db = some (response, next)) :
    (next = db ∧ response.isOk = false ∧
      ∀ ad, auth = some ad → ad.role = "admin" → ∃ e, answer = .error e) ∨
    ∃ ad id number, auth = some ad ∧ response = .ok id ∧ varchar 20 q.number = some number ∧
      next.rows = db.rows ++ [⟨id, number, q.userID, q.reason, ad.userID⟩] := by
  revert h
  fun_cases addBlacklist auth q answer db
  case case1 =>
      intro h
      cases h
      exact .inl ⟨rfl, rfl, fun _ hauth => by cases hauth⟩
  case case2 hrefused =>
      intro h
      cases h
      exact .inl ⟨rfl, rfl, fun _ hauth hadmin => by cases hauth; exact absurd hadmin hrefused.1⟩
  case case3 hrefused =>
      intro h
      cases h
      exact .inl ⟨rfl, rfl, fun _ hauth hadmin => by cases hauth; exact absurd hadmin hrefused.1⟩
  case case4 e _ _ =>
      intro h
      cases h
      exact .inl ⟨rfl, rfl, fun _ _ _ => ⟨_, rfl⟩⟩
  case case5 ad _ _ id =>
      intro h
      obtain ⟨number, hfits, hinsert⟩ := Option.bind_eq_some_iff.mp h
      obtain ⟨db', hinsert, heq⟩ := Option.map_eq_some_iff.mp hinsert
      cases heq
      exact .inr ⟨ad, id, number, rfl, rfl, hfits,
        (Table.insert_eq_some (IndexedTable.insert_eq_some.mp hinsert)).1⟩

-- An entry stays until a removal lifts it.
theorem step_keeps {label : Label} (hstep : step db label = some next) (hlifts : label.lifts e = false)
    (he : e ∈ db.rows) :
    e ∈ next.rows := by
  cases label with
  | add auth q answer =>
      obtain ⟨⟨response, _⟩, hadd, rfl⟩ := Option.map_eq_some_iff.mp hstep
      obtain ⟨rfl, _⟩ | ⟨_, _, _, _, _, _, hrows⟩ := addBlacklist_rows hadd
      · exact he
      · rw [hrows]
        exact List.mem_append_left _ he
  | remove auth id answer =>
      cases hstep
      fun_cases removeBlacklist auth id answer db
      case case3 ad _ _ => exact Table.mem_delete.mpr ⟨he, hlifts⟩
      all_goals exact he

theorem run_keeps {labels : List Label} (hrun : Machine.run step first labels = some second)
    (hlifts : ∀ label ∈ labels, label.lifts e = false) (he : e ∈ first.rows) : e ∈ second.rows := by
  refine Machine.run_induction (motive := fun labels db => (∀ label ∈ labels, label.lifts e = false) →
    e ∈ db.rows)
    (fun _ => he) ?_ hrun hlifts
  intro labels label middle db _ ih hstep hall
  have hmiddle := ih fun l hl => hall l (List.mem_append_left _ hl)
  exact step_keeps hstep (hall label (List.mem_append_right _ (List.mem_singleton_self label))) hmiddle

theorem removeBlacklist_ok {id : Int64} : (removeBlacklist (some ad) id (.ok ()) db).1 = .ok () ↔
    ∃ e ∈ db.rows, removable ad id e = true := by
  rw [← List.any_eq_true]
  simp only [removeBlacklist]
  by_cases hany : db.rows.any (removable ad id) = true
  · rw [if_pos hany]
    exact iff_of_true rfl hany
  · rw [if_neg hany]
    exact iff_of_false (by simp) hany

-- The entry that is removed was the only one that refused the number for its user.
theorem clientHit_removed {userID : UserID} (he : e ∈ db.rows) (htarget : e.userID = some userID)
    (hremovable : removable ad e.id e = true) :
    clientHit (removeBlacklist (some ad) e.id (.ok ()) db).2 e.number userID = false := by
  have hany : db.rows.any (removable ad e.id) = true := List.any_eq_true.mpr ⟨e, he, hremovable⟩
  have hnext : (removeBlacklist (some ad) e.id (.ok ()) db).2 = db.delete (removable ad e.id) := by
    simp [removeBlacklist, hany]
  rw [hnext, Bool.eq_false_iff, Ne, clientHit_iff]
  rintro ⟨other, hother, hnumber, huser⟩
  obtain ⟨hother, hkept⟩ := Table.mem_delete.mp hother
  have hsame : other = e := db.index_unique hother he (Prod.ext hnumber (huser.trans htarget.symm))
  rw [hsame, hremovable] at hkept
  cases hkept

end Shown

-- A client's list of the blacklist shows what its calls are refused for: a check whose
-- two looks at the table come one after the other goes through exactly if the list
-- shows no global entry of the number at the first and none of the client at the
-- second. What is shown stays, and refuses the number, until the client that made it
-- or an administrator removes it. A client removes what it is shown as its own, after
-- which its calls are not refused for that entry any more.
theorem refused_as_shown {role : UserID → String} {labels more : List Label} {first second : BlacklistedNumbers}
    {ad : AuthData} (hroles : ∀ l ∈ labels ++ more, l.InRole role) (hrun : run labels = some first)
    (hmore : Machine.run step first more = some second) (hrole : ad.role = role ad.userID)
    (hclient : ad.role ≠ "admin") (p : ListBlacklistParams) :
    ∃ shown later, listBlacklist (some ad) p none first = .ok shown ∧
      listBlacklist (some ad) p none second = .ok later ∧
      shown.Pairwise (fun a b => a.id < b.id) ∧
      (∀ number, checkBlacklist ⟨number, ad.userID⟩ (.ok first) (.ok second) = .ok () ↔
        (∀ e ∈ shown, e.number = number → e.userID ≠ none) ∧
          ∀ e ∈ later, e.number = number → e.userID ≠ some ad.userID) ∧
      (∀ e ∈ shown, (∀ l ∈ more, l.lifts e = false) →
        e ∈ later ∧ checkBlacklist ⟨e.number, ad.userID⟩ (.ok first) (.ok second) ≠ .ok ()) ∧
      (∀ id, (removeBlacklist (some ad) id (.ok ()) second).1 = .ok () ↔
        ∃ e ∈ later, e.id = id ∧ e.createdBy = ad.userID) ∧
      ∀ e ∈ later, e.createdBy = ad.userID →
        clientHit (removeBlacklist (some ad) e.id (.ok ()) second).2 e.number ad.userID = false := by
  obtain ⟨shown, hshown, hascending, hfirst⟩ := @listBlacklist_client first ad p hclient
  obtain ⟨later, hlater, _, hsecond⟩ := @listBlacklist_client second ad p hclient
  have hinv : Owned role second := by
    refine run_owned hroles ?_
    rw [run, Machine.run_append]
    exact Option.bind_eq_some_iff.mpr ⟨first, hrun, hmore⟩
  -- its own entries are for itself
  have hown : ∀ e ∈ second.rows, e.createdBy = ad.userID → e.userID = some ad.userID := by
    intro e he hcreated
    have hnot : role e.createdBy ≠ "admin" := by rwa [hcreated, ← hrole]
    exact (hinv e he hnot).trans (congrArg some hcreated)
  refine ⟨shown, later, hshown, hlater, hascending, fun number => ?_, fun e he hlifts => ?_, fun id => ?_,
    fun e he hcreated => ?_⟩
  · rw [checkBlacklist_eq_ok, Bool.eq_false_iff, Bool.eq_false_iff, Ne, Ne, globalHit_iff, clientHit_iff]
    constructor
    · rintro ⟨hglobal, hclient⟩
      exact ⟨fun e he hnumber hnull => hglobal ⟨e, ((hfirst e).mp he).1, hnumber, hnull⟩,
        fun e he hnumber huser => hclient ⟨e, ((hsecond e).mp he).1, hnumber, huser⟩⟩
    · rintro ⟨hglobal, hclient⟩
      constructor
      · rintro ⟨e, he, hnumber, hnull⟩
        exact hglobal e ((hfirst e).mpr ⟨he, .inl hnull⟩) hnumber hnull
      · rintro ⟨e, he, hnumber, huser⟩
        exact hclient e ((hsecond e).mpr ⟨he, .inr huser⟩) hnumber huser
  · obtain ⟨hrow, htarget⟩ := (hfirst e).mp he
    have hkept := run_keeps hmore hlifts hrow
    refine ⟨(hsecond e).mpr ⟨hkept, htarget⟩, fun hok => ?_⟩
    obtain ⟨hglobal, hclient⟩ := checkBlacklist_eq_ok.mp hok
    rcases htarget with hnull | huser
    · exact Bool.eq_false_iff.mp hglobal (globalHit_iff.mpr ⟨e, hrow, rfl, hnull⟩)
    · exact Bool.eq_false_iff.mp hclient (clientHit_iff.mpr ⟨e, hkept, rfl, huser⟩)
  · simp only [removeBlacklist_ok, removable, hclient, Bool.and_eq_true, Bool.or_eq_true, decide_eq_true_eq, false_or]
    constructor
    · rintro ⟨e, he, hid, hcreated⟩
      exact ⟨e, (hsecond e).mpr ⟨he, .inr (hown e he hcreated)⟩, hid, hcreated⟩
    · rintro ⟨e, he, hid, hcreated⟩
      exact ⟨e, ((hsecond e).mp he).1, hid, hcreated⟩
  · have hrow := ((hsecond e).mp he).1
    refine clientHit_removed hrow (hown e hrow hcreated) ?_
    simp [removable, hcreated]

-- A client is shown its own entry, and the two that administrators made.
theorem refused_as_shown_blacklisted : ∃ db shown, run blacklisted = some db ∧
    listBlacklist (some ⟨2, "client"⟩) ⟨0, false⟩ none db = .ok shown ∧ (∃ e ∈ shown, e.id = 3) ∧
    ∀ e ∈ shown, checkBlacklist ⟨e.number, 2⟩ (.ok db) (.ok db) ≠ .ok () := by
  have hroles : ∀ l ∈ blacklisted ++ [], l.InRole fun userID => if userID = 1 then "admin" else "client" := by
    simp [blacklisted, Label.InRole, Label.auth]
  obtain ⟨shown, later, hshown, hlater, _, _, hkept, hremoved, _⟩ := @refused_as_shown _ blacklisted [] _ _
    ⟨2, "client"⟩ hroles rfl rfl rfl (by decide) ⟨0, false⟩
  cases hshown.symm.trans hlater
  obtain ⟨e, he, hid, _⟩ := (hremoved 3).mp rfl
  exact ⟨_, shown, rfl, hshown, ⟨e, he, hid⟩, fun e he => (hkept e he (by simp)).2⟩

end Bos3000.Compliance
