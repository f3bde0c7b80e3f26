import Bos3000.Auth.Users

-- What users change of their own rows.
namespace Bos3000.Auth

structure UpdateProfileRequest where
  username : Option String
  webhookURL : Option String
  deriving DecidableEq, Repr

structure UpdateProfileResponse where
  username : String
  email : String
  webhookURL : String
  deriving DecidableEq, Repr

def User.setProfile (username webhookURL : Option String) (now : Time) (u : User) : User :=
  { u with username := username.getD u.username, webhookURL := webhookURL.or u.webhookURL, updatedAt := now }

theorem User.setProfile_id (username webhookURL : Option String) (now : Time) (u : User) :
    (u.setProfile username webhookURL now).id = u.id := rfl

theorem User.setProfile_email (username webhookURL : Option String) (now : Time) (u : User) :
    (u.setProfile username webhookURL now).email = u.email := rfl

-- The name as its column takes it, if one is given.
def keptName : Option String → Option (Option String)
  | none => some none
  | some username => (varchar 100 username).map some

-- UPDATE ... RETURNING of a row. The change stays when the values that the
-- statement returns cannot be read, as a NULL into a string.
def updateReturning (userID : UserID) (username webhookURL : Option String) (answer : Option Time) (users : Users) :
    Option UpdateProfileResponse × Users :=
  match answer, keptName username, users.find userID with
  | some now, some username, some u =>
      let row := u.setProfile username webhookURL now
      (row.webhookURL.map fun url => ⟨row.username, row.email, url⟩,
        users.assign userID (.setProfile username webhookURL now) (User.setProfile_id username webhookURL now)
          (User.setProfile_email username webhookURL now))
  | _, _, _ => (none, users)

def scanned : Option UpdateProfileResponse × Users → Except APIError UpdateProfileResponse × Users
  | (some response, users) => (.ok response, users)
  | (none, users) => (.error ⟨.Internal, "failed to update profile"⟩, users)

-- The answer of the UPDATE is the time, or it fails.
def updateProfile (userID : UserID) (r : UpdateProfileRequest) (answer : Option Time) (users : Users) :
    Except APIError UpdateProfileResponse × Users :=
  match r.username, r.webhookURL with
  | none, none => (.error ⟨.InvalidArgument, "at least one field must be provided"⟩, users)
  | some username, some webhookURL =>
      scanned (updateReturning userID (some username) (some webhookURL) answer users)
  | some username, none => scanned (updateReturning userID (some username) none answer users)
  | none, some webhookURL => scanned (updateReturning userID none (some webhookURL) answer users)

-- Without a change there is an error; with one the row is as requested, and shown.
structure ProfileAtomic (userID : UserID) (r : UpdateProfileRequest) (answer : Option Time) (users : Users) :
    Prop where
  refused : ∀ e, (updateProfile userID r answer users).1 = .error e →
    (updateProfile userID r answer users).2.find userID = users.find userID
  updated : ∀ response, (updateProfile userID r answer users).1 = .ok response →
    ∃ u now username, users.find userID = some u ∧ answer = some now ∧ keptName r.username = some username ∧
      (updateProfile userID r answer users).2.find userID = some (u.setProfile username r.webhookURL now) ∧
      response.username = (u.setProfile username r.webhookURL now).username ∧ response.email = u.email ∧
      some response.webhookURL = (u.setProfile username r.webhookURL now).webhookURL
  others : ∀ other, other ≠ userID → (updateProfile userID r answer users).2.find other = users.find other

-- A row without a URL is given one, unless its statement fails or changes nothing.
def ReadsBack (userID : UserID) (r : UpdateProfileRequest) (answer : Option Time) (users : Users) : Prop :=
  ∀ u now username, users.find userID = some u → answer = some now → keptName r.username = some username →
    r.username ≠ none → r.webhookURL = none → u.webhookURL = none → u.setProfile username none now = u

section Cases

variable {userID : UserID} {r : UpdateProfileRequest} {answer : Option Time} {users : Users}

-- All branches that write are one statement.
theorem updateProfile_eq (h : r.username ≠ none ∨ r.webhookURL ≠ none) : updateProfile userID r answer users =
    scanned (updateReturning userID r.username r.webhookURL answer users) := by
  unfold updateProfile
  cases hname : r.username <;> cases hurl : r.webhookURL <;> simp_all

theorem updateProfile_empty (hname : r.username = none) (hurl : r.webhookURL = none) :
    updateProfile userID r answer users =
      (.error ⟨.InvalidArgument, "at least one field must be provided"⟩, users) := by
  simp [updateProfile, hname, hurl]

theorem updateReturning_written {u : User} {now : Time} {username webhookURL kept : Option String}
    (hfind : users.find userID = some u) (hkept : keptName username = some kept) :
    updateReturning userID username webhookURL (some now) users =
      ((u.setProfile kept webhookURL now).webhookURL.map fun url =>
        ⟨(u.setProfile kept webhookURL now).username, u.email, url⟩,
      users.assign userID (.setProfile kept webhookURL now) (User.setProfile_id kept webhookURL now)
        (User.setProfile_email kept webhookURL now)) := by
  simp only [updateReturning, hkept, hfind]
  rfl

theorem updateReturning_cases (username webhookURL : Option String) :
    (updateReturning userID username webhookURL answer users = (none, users) ∧
      ∀ u now kept, users.find userID = some u → answer = some now → keptName username ≠ some kept) ∨
    ∃ u now kept, users.find userID = some u ∧ answer = some now ∧ keptName username = some kept := by
  fun_cases updateReturning userID username webhookURL answer users
  case case1 now kept u hfind hkept row => exact .inr ⟨u, now, kept, hfind, rfl, hkept⟩
  case case2 hnone => exact .inl ⟨rfl, fun u now kept hfind hanswer hkept => hnone now kept u hanswer hkept hfind⟩

-- The statement went through: the row is changed, whether or not it can be read back.
theorem find_assign_setProfile (kept webhookURL : Option String) (now : Time) (other : UserID) :
    (users.assign userID (.setProfile kept webhookURL now) (User.setProfile_id kept webhookURL now)
      (User.setProfile_email kept webhookURL now)).find other =
        (users.find other).map fun row => if other = userID then row.setProfile kept webhookURL now else row :=
  IndexedTable.find_assign other

-- A request that writes nothing.
theorem ProfileAtomic.of_refused {e : APIError} (heq : updateProfile userID r answer users = (.error e, users)) :
    ProfileAtomic userID r answer users where
  refused _ _ := by rw [heq]
  updated response h := by
    rw [heq] at h
    cases h
  others _ _ := by rw [heq]

section Written

variable {u : User} {now : Time} {kept : Option String}

theorem updateProfile_written (hasks : r.username ≠ none ∨ r.webhookURL ≠ none)
    (hfind : users.find userID = some u)
    (hkept : keptName r.username = some kept) : (updateProfile userID r (some now) users).2 =
      users.assign userID (.setProfile kept r.webhookURL now) (User.setProfile_id kept r.webhookURL now)
        (User.setProfile_email kept r.webhookURL now) := by
  rw [updateProfile_eq hasks, updateReturning_written hfind hkept]
  cases (u.setProfile kept r.webhookURL now).webhookURL <;> rfl

-- One that writes: the row, and no other, as the statement leaves it.
theorem find_updateProfile (hasks : r.username ≠ none ∨ r.webhookURL ≠ none) (hfind : users.find userID = some u)
    (hkept : keptName r.username = some kept) :
    (updateProfile userID r (some now) users).2.find userID = some (u.setProfile kept r.webhookURL now) ∧
      ∀ other, other ≠ userID → (updateProfile userID r (some now) users).2.find other = users.find other := by
  have hwritten := @updateProfile_written userID r users u now kept hasks hfind hkept
  constructor
  · rw [hwritten, find_assign_setProfile, hfind, Option.map_some, if_pos rfl]
  · intro other hother
    have hsame := @find_assign_setProfile userID users kept r.webhookURL now other
    simp only [if_neg hother, Option.map_id'] at hsame
    rw [hwritten, hsame]

-- What it answers: an error where the row has no URL to show.
theorem updateProfile_answer (hasks : r.username ≠ none ∨ r.webhookURL ≠ none)
    (hfind : users.find userID = some u)
    (hkept : keptName r.username = some kept) :
    (updateProfile userID r (some now) users).1 =
      match (u.setProfile kept r.webhookURL now).webhookURL with
      | some url => .ok ⟨(u.setProfile kept r.webhookURL now).username, u.email, url⟩
      | none => .error ⟨.Internal, "failed to update profile"⟩ := by
  rw [updateProfile_eq hasks, updateReturning_written hfind hkept]
  cases (u.setProfile kept r.webhookURL now).webhookURL <;> rfl

theorem ProfileAtomic.of_shown (hasks : r.username ≠ none ∨ r.webhookURL ≠ none)
    (hfind : users.find userID = some u)
    (hkept : keptName r.username = some kept) {url : String}
    (hurl : (u.setProfile kept r.webhookURL now).webhookURL = some url) :
    ProfileAtomic userID r (some now) users := by
  have hanswer := @updateProfile_answer userID r users u now kept hasks hfind hkept
  obtain ⟨hrow, hothers⟩ := @find_updateProfile userID r users u now kept hasks hfind hkept
  rw [hurl] at hanswer
  refine ⟨fun e h => ?_, fun response h => ?_, hothers⟩
  · rw [hanswer] at h
    cases h
  · rw [hanswer] at h
    cases h
    exact ⟨u, now, kept, hfind, rfl, hkept, hrow, rfl, rfl, hurl.symm⟩

-- A row that cannot be shown is left unchanged only by a change that is none.
theorem ProfileAtomic.iff_of_unshown (hasks : r.username ≠ none ∨ r.webhookURL ≠ none)
    (hfind : users.find userID = some u) (hkept : keptName r.username = some kept)
    (hurl : (u.setProfile kept r.webhookURL now).webhookURL = none) :
    ProfileAtomic userID r (some now) users ↔ u.setProfile kept r.webhookURL now = u := by
  have hanswer := @updateProfile_answer userID r users u now kept hasks hfind hkept
  obtain ⟨hrow, hothers⟩ := @find_updateProfile userID r users u now kept hasks hfind hkept
  rw [hurl] at hanswer
  constructor
  · intro hatomic
    have hsame := hatomic.refused _ hanswer
    rw [hrow, hfind, Option.some.injEq] at hsame
    exact hsame
  · intro hsame
    refine ⟨fun e _ => by rw [hrow, hfind, hsame], fun response h => ?_, hothers⟩
    rw [hanswer] at h
    cases h

end Written

end Cases

-- An error leaves the row unchanged exactly if the row can be read back: it has a
-- URL already, or is given one.
theorem updateProfile_atomic_iff (userID : UserID) (r : UpdateProfileRequest) (answer : Option Time)
    (users : Users) : ProfileAtomic userID r answer users ↔ ReadsBack userID r answer users := by
  by_cases hempty : r.username = none ∧ r.webhookURL = none
  · have hreads : ReadsBack userID r answer users := fun _ _ _ _ _ _ hname => absurd hempty.1 hname
    exact iff_of_true (.of_refused (updateProfile_empty hempty.1 hempty.2)) hreads
  · have hasks : r.username ≠ none ∨ r.webhookURL ≠ none := by tauto
    obtain ⟨hfails, hnone⟩ | ⟨u, now, kept, hfind, rfl, hkept⟩ :=
      @updateReturning_cases userID answer users r.username r.webhookURL
    · have hreads : ReadsBack userID r answer users :=
        fun u now kept hfind hanswer hkept => absurd hkept (hnone u now kept hfind hanswer)
      have hrefused := @updateProfile_eq userID r answer users hasks
      rw [hfails, scanned] at hrefused
      exact iff_of_true (.of_refused hrefused) hreads
    · have honly : ∀ u' now' kept', users.find userID = some u' → some now = some now' →
          keptName r.username = some kept' → u' = u ∧ now' = now ∧ kept' = kept := by
        intro u' now' kept' hfind' hanswer hkept'
        exact ⟨Option.some.inj (hfind'.symm.trans hfind), (Option.some.inj hanswer).symm,
          Option.some.inj (hkept'.symm.trans hkept)⟩
      cases hurl : (u.setProfile kept r.webhookURL now).webhookURL with
      | some url =>
          refine iff_of_true (.of_shown hasks hfind hkept hurl) ?_
          intro u' now' kept' hfind' hanswer hkept' _ hnotGiven hnull
          obtain ⟨rfl, rfl, rfl⟩ := honly u' now' kept' hfind' hanswer hkept'
          simp [User.setProfile, hnotGiven, hnull] at hurl
      | none =>
          obtain ⟨hnotGiven, hnull⟩ : r.webhookURL = none ∧ u.webhookURL = none := by
            simpa [User.setProfile, Option.or_eq_none_iff] using hurl
          rw [ProfileAtomic.iff_of_unshown hasks hfind hkept hurl, hnotGiven]
          constructor
          · intro hsame u' now' kept' hfind' hanswer hkept' _ _ _
            obtain ⟨rfl, rfl, rfl⟩ := honly u' now' kept' hfind' hanswer hkept'
            exact hsame
          · intro hreads
            exact hreads u now kept hfind rfl hkept (by tauto) hnotGiven hnull

end Bos3000.Auth
