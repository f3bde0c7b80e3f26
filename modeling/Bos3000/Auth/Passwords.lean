import Bos3000.Auth.Login
import Bos3000.Auth.Profile
import Bos3000.Lib.Pool

-- Passwords over time. ChangePassword reads the hash in one statement and writes
-- it in another, between which anything else may happen.
namespace Bos3000.Auth

structure ChangePasswordRequest where
  currentPassword : String
  newPassword : String
  deriving DecidableEq, Repr

def ChangePasswordRequest.validate (r : ChangePasswordRequest) : Except APIError Unit :=
  if r.currentPassword = "" then .error ⟨.InvalidArgument, "current_password is required"⟩
  else if r.newPassword = "" ∨ r.newPassword.utf8ByteSize < 8 then
    .error ⟨.InvalidArgument, "new_password must be at least 8 characters"⟩
  else if r.currentPassword = r.newPassword then
    .error ⟨.InvalidArgument, "new password must be different from current password"⟩
  else .ok ()

structure ResetPasswordRequest where
  email : String
  newPassword : String
  deriving DecidableEq, Repr

def ResetPasswordRequest.validate (r : ResetPasswordRequest) : Except APIError Unit :=
  if r.email = "" then .error ⟨.InvalidArgument, "email is required"⟩
  else if r.newPassword.utf8ByteSize < 8 then
    .error ⟨.InvalidArgument, "password must be at least 8 characters"⟩
  else .ok ()

def User.setPassword (hash : String) (now : Time) (u : User) : User :=
  { u with passwordHash := hash, updatedAt := now }

theorem User.setPassword_id (hash : String) (now : Time) (u : User) : (u.setPassword hash now).id = u.id := rfl

theorem User.setPassword_email (hash : String) (now : Time) (u : User) :
    (u.setPassword hash now).email = u.email := rfl

def Users.setPassword (users : Users) (id : UserID) (hash : String) (now : Time) : Users :=
  users.assign id (.setPassword hash now) (User.setPassword_id hash now) (User.setPassword_email hash now)

-- The hash is what bcrypt made of the password, if anything; the answer of the
-- UPDATE is the time, or it fails.
def resetAdminPassword (r : ResetPasswordRequest) (hash : Option String) (answer : Option Time) (users : Users) :
    Except APIError Unit × Users :=
  match r.validate, hash with
  | .error e, _ => (.error e, users)
  | .ok _, none => (.error ⟨.Internal, "failed to hash password"⟩, users)
  | .ok _, some hash =>
      match answer, varchar 255 hash with
      | some now, some hash =>
          match (users.findBy r.email).filter fun u => u.role = .admin with
          | none => (.error ⟨.NotFound, "admin user not found"⟩, users)
          | some u => (.ok (), users.setPassword u.id hash now)
      | _, _ => (.error ⟨.Internal, "failed to update password"⟩, users)

-- An execution of ChangePassword is at its SELECT, at its UPDATE, or has returned.
inductive PasswordStage
  | fetch
  | update (hash : String)
  | returned (response : Except APIError Unit)

structure PasswordTask where
  caller : Principal
  request : ChangePasswordRequest
  stage : PasswordStage

-- Whether the SELECT goes through, with what bcrypt makes of the new password; the
-- time of the UPDATE.
inductive PasswordAnswer
  | fetched (query : Bool) (hash : Option String)
  | updated (answer : Option Time)
  deriving DecidableEq

def changePassword (caller : Principal) (r : ChangePasswordRequest) : PasswordTask :=
  match r.validate with
  | .error e => ⟨caller, r, .returned (.error e)⟩
  | .ok _ => ⟨caller, r, .fetch⟩

section Compare

variable (compareHashAndPassword : String → String → Bool)

def PasswordTask.fetched (task : PasswordTask) (query : Option Users) (hash : Option String) : PasswordStage :=
  match query.bind fun users => users.find task.caller.data.userID with
  | none => .returned (.error ⟨.Internal, "failed to fetch user"⟩)
  | some u =>
      if !compareHashAndPassword u.passwordHash task.request.currentPassword then
        .returned (.error ⟨.Unauthenticated, "current password is incorrect"⟩)
      else
        match hash with
        | none => .returned (.error ⟨.Internal, "failed to hash password"⟩)
        | some hash => .update hash

def PasswordTask.resume (task : PasswordTask) (users : Users) : PasswordAnswer → Option (PasswordTask × Users)
  | .fetched query hash =>
      match task.stage with
      | .fetch =>
          some ({ task with stage := task.fetched compareHashAndPassword (if query then some users else none) hash },
            users)
      | _ => none
  | .updated answer =>
      match task.stage with
      | .update hash =>
          match answer, varchar 255 hash with
          | some now, some hash =>
              some ({ task with stage := .returned (.ok ()) }, users.setPassword task.caller.data.userID hash now)
          | _, _ =>
              some ({ task with stage := .returned (.error ⟨.Internal, "failed to update password"⟩) }, users)
      | _ => none

-- The users, the executions of ChangePassword, and the tokens that were handed out.
structure Accounts where
  db : AuthDB
  tasks : List PasswordTask
  tokens : List (String × Claims)

inductive AccountLabel
  | createUser (auth : Option AuthData) (r : CreateUserRequest) (hash : Option String)
      (answer : Option (UserID × Time))
  | freezeUser (auth : Option AuthData) (id : UserID) (answer : Option Time)
  | unfreezeUser (auth : Option AuthData) (id : UserID) (answer : Option Time)
  | updateProfile (userID : UserID) (r : UpdateProfileRequest) (answer : Option Time)
  | resetAdminPassword (r : ResetPasswordRequest) (hash : Option String) (answer : Option Time)
  | changePassword (caller : Principal) (r : ChangePasswordRequest)
  | move (i : Nat) (answer : PasswordAnswer)
  | adminLogin (body : Option LoginRequest) (a : LoginAnswers) (token : String)
  | clientLogin (r : LoginRequest) (a : LoginAnswers) (token : String)
  deriving DecidableEq

def Accounts.withUsers (s : Accounts) (users : Users) : Accounts := { s with db := { s.db with users } }

-- A login that succeeds signs its claims, with the token as the result.
def Accounts.step (s : Accounts) : AccountLabel → Option Accounts
  | .createUser auth r hash answer => some (s.withUsers (createUser auth r hash answer s.db.users).2)
  | .freezeUser auth id answer => some (s.withUsers (freezeUser auth id answer s.db.users).2)
  | .unfreezeUser auth id answer => some (s.withUsers (unfreezeUser auth id answer s.db.users).2)
  | .updateProfile userID r answer => some (s.withUsers (Auth.updateProfile userID r answer s.db.users).2)
  | .resetAdminPassword r hash answer => some (s.withUsers (Auth.resetAdminPassword r hash answer s.db.users).2)
  | .changePassword caller r => some { s with tasks := s.tasks ++ [Auth.changePassword caller r] }
  | .move i answer =>
      match s.tasks[i]? with
      | none => none
      | some task =>
          (task.resume compareHashAndPassword s.db.users answer).map fun (next, users) =>
            { s.withUsers users with tasks := s.tasks.set i next }
  | .adminLogin body a token =>
      match Auth.adminLogin compareHashAndPassword body a s.db with
      | .error _ => some s
      | .ok response => some { s with tokens := s.tokens ++ [(token, response.session)] }
  | .clientLogin r a token =>
      match Auth.clientLogin compareHashAndPassword r a s.db with
      | .error _ => some s
      | .ok response => some { s with tokens := s.tokens ++ [(token, response.token)] }

-- Runs over any database, before anything is executing and any token is handed out.
def Accounts.run (db : AuthDB) (labels : List AccountLabel) : Option Accounts :=
  Machine.run (Accounts.step compareHashAndPassword) ⟨db, [], []⟩ labels

end Compare

-- Rows stay, with their emails, their roles and their password hashes.
def Users.Keeps (users next : Users) : Prop :=
  ∀ id u, users.find id = some u →
    ∃ v, next.find id = some v ∧ v.email = u.email ∧ v.role = u.role ∧ v.passwordHash = u.passwordHash

theorem Users.Keeps.refl (users : Users) : users.Keeps users := fun _ u hu => ⟨u, hu, rfl, rfl, rfl⟩

theorem Users.Keeps.assign {users : Users} {id : UserID} {f : User → User} {hid : ∀ u, (f u).id = u.id}
    {hemail : ∀ u, (f u).email = u.email} (hrole : ∀ u, (f u).role = u.role)
    (hhash : ∀ u, (f u).passwordHash = u.passwordHash) : users.Keeps (users.assign id f hid hemail) := by
  intro other u hu
  refine ⟨_, by rw [IndexedTable.find_assign, hu]; rfl, ?_⟩
  split <;> simp [hemail, hrole, hhash]

theorem createUser_keeps (auth : Option AuthData) (r : CreateUserRequest) (hash : Option String)
    (answer : Option (UserID × Time)) (users : Users) : users.Keeps (createUser auth r hash answer users).2 := by
  obtain hsame | ⟨row, _, _, _, hinsert⟩ := createUser_users auth r hash answer users
  · rw [hsame]
    exact .refl users
  · intro id u hu
    have htable := IndexedTable.insert_eq_some.mp hinsert
    obtain ⟨_, hnone⟩ := Table.insert_eq_some htable
    have hother : id ≠ row.id := by
      rintro rfl
      rw [hu] at hnone
      cases hnone
    refine ⟨u, ?_, rfl, rfl, rfl⟩
    rw [Table.find_insert htable, if_neg hother]
    exact hu

theorem moveStatus_keeps (source target : UserStatus) (failed notFound : String) (auth : Option AuthData)
    (id : UserID) (answer : Option Time) (users : Users) :
    users.Keeps (moveStatus source target failed notFound auth id answer users).2 := by
  obtain hsame | ⟨now, hassign⟩ := moveStatus_users source target failed notFound auth id answer users
  · rw [hsame]
    exact .refl users
  · rw [hassign]
    exact .assign (fun _ => rfl) fun _ => rfl

theorem updateProfile_keeps (userID : UserID) (r : UpdateProfileRequest) (answer : Option Time) (users : Users) :
    users.Keeps (updateProfile userID r answer users).2 := by
  by_cases hasks : r.username ≠ none ∨ r.webhookURL ≠ none
  · obtain ⟨hfails, _⟩ | ⟨u, now, kept, hfind, rfl, hkept⟩ :=
      @updateReturning_cases userID answer users r.username r.webhookURL
    · rw [updateProfile_eq hasks, hfails]
      exact .refl users
    · rw [updateProfile_written hasks hfind hkept]
      exact .assign (fun _ => rfl) fun _ => rfl
  · push Not at hasks
    rw [updateProfile_empty hasks.1 hasks.2]
    exact .refl users

-- A password that is set keeps the rows of the other users.
theorem find_setPassword {users : Users} {id other : UserID} (hash : String) (now : Time) (hother : other ≠ id) :
    (users.setPassword id hash now).find other = users.find other := by
  rw [Users.setPassword, IndexedTable.find_assign]
  simp [hother]

theorem resetAdminPassword_keeps (r : ResetPasswordRequest) (hash : Option String) (answer : Option Time)
    {users : Users} {id : UserID} {u : User} (hu : users.find id = some u)
    (hsafe : u.role = .client ∨ u.email ≠ r.email) :
    (resetAdminPassword r hash answer users).2.find id = some u := by
  fun_cases resetAdminPassword r hash answer users
  case case4 hash _ now kept _ admin hadmin =>
      obtain ⟨hfind, hrole⟩ := Option.filter_eq_some_iff.mp hadmin
      obtain ⟨hmem, hemail⟩ := IndexedTable.findBy_eq_some.mp hfind
      rw [find_setPassword _ _ ?_]
      · exact hu
      · rintro rfl
        have hsame : admin = u := users.row_unique hmem (Table.find_eq_some.mp hu).1 (Table.find_eq_some.mp hu).2.symm
        subst hsame
        obtain hclient | hne := hsafe
        · simp [hclient] at hrole
        · exact hne hemail
  all_goals exact hu

section Kept

variable {compareHashAndPassword : String → String → Bool}

-- A request for the user's password that does not present it, or that is for the
-- password of an admin with another email.
def Harmless (compareHashAndPassword : String → String → Bool) (u : User) : AccountLabel → Prop
  | .changePassword caller r =>
      caller.data.userID = u.id → compareHashAndPassword u.passwordHash r.currentPassword = false
  | .resetAdminPassword r _ _ => u.role = .client ∨ u.email ≠ r.email
  | _ => True

-- An execution that would write the user's password has not got past its SELECT.
def PasswordTask.Refused (compareHashAndPassword : String → String → Bool) (u : User)
    (task : PasswordTask) : Prop :=
  task.caller.data.userID = u.id →
    (∀ hash, task.stage ≠ .update hash) ∧ compareHashAndPassword u.passwordHash task.request.currentPassword =
      false

structure Kept (compareHashAndPassword : String → String → Bool) (u : User) (s : Accounts) : Prop where
  row : ∃ v, s.db.users.find u.id = some v ∧ v.email = u.email ∧ v.role = u.role ∧
    v.passwordHash = u.passwordHash
  tasks : ∀ task ∈ s.tasks, task.Refused compareHashAndPassword u

variable {u : User} {s : Accounts}

theorem Kept.withUsers (h : Kept compareHashAndPassword u s) {users : Users} (hkeeps : s.db.users.Keeps users) :
    Kept compareHashAndPassword u (s.withUsers users) := by
  obtain ⟨v, hv, hemail, hrole, hhash⟩ := h.row
  obtain ⟨w, hw, hemail', hrole', hhash'⟩ := hkeeps u.id v hv
  exact ⟨⟨w, hw, hemail'.trans hemail, hrole'.trans hrole, hhash'.trans hhash⟩, h.tasks⟩

theorem changePassword_refused {caller : Principal} {r : ChangePasswordRequest}
    (hharmless : Harmless compareHashAndPassword u (.changePassword caller r)) :
    (changePassword caller r).Refused compareHashAndPassword u := by
  intro huser
  unfold changePassword at huser ⊢
  split at huser <;> exact ⟨fun _ => PasswordStage.noConfusion, hharmless huser⟩

-- What one move of an execution does: it fails the comparison, or it writes the
-- password of another user.
theorem resume_refused {task next : PasswordTask} {users after : Users} {answer : PasswordAnswer}
    (htask : task.Refused compareHashAndPassword u)
    (hrow : ∀ v, users.find u.id = some v → v.passwordHash = u.passwordHash)
    (hresume : task.resume compareHashAndPassword users answer = some (next, after)) :
    next.Refused compareHashAndPassword u ∧ after.find u.id = users.find u.id := by
  unfold PasswordTask.resume at hresume
  split at hresume
  · rename_i query hash
    split at hresume
    · rename_i hfetch
      cases hresume
      refine ⟨fun (huser : task.caller.data.userID = u.id) => ⟨fun written => ?_, (htask huser).2⟩, rfl⟩
      have hfails := (htask huser).2
      fun_cases PasswordTask.fetched compareHashAndPassword task (if query then some users else none) hash
      case case4 v hv hmatches kept =>
          obtain ⟨seen, hseen, hv⟩ := Option.bind_eq_some_iff.mp hv
          rw [huser] at hv
          have hsame : seen = users := by
            cases query <;> cases hseen
            rfl
          rw [hrow v (hsame ▸ hv), hfails] at hmatches
          exact absurd rfl hmatches
      all_goals exact PasswordStage.noConfusion
    · cases hresume
  · split at hresume
    · rename_i answer hash hstage
      have hother : u.id ≠ task.caller.data.userID :=
        fun huser => (htask huser.symm).1 hash hstage
      split at hresume
      · cases hresume
        exact ⟨fun huser => absurd huser.symm hother, find_setPassword _ _ hother⟩
      · cases hresume
        exact ⟨fun huser => absurd huser.symm hother, rfl⟩
    · cases hresume

theorem Kept.step {t : Accounts} {l : AccountLabel} (h : Kept compareHashAndPassword u s)
    (hharmless : Harmless compareHashAndPassword u l) (hstep : s.step compareHashAndPassword l = some t) :
    Kept compareHashAndPassword u t := by
  cases l with
  | createUser auth r hash answer =>
      cases hstep
      exact h.withUsers (createUser_keeps auth r hash answer s.db.users)
  | freezeUser auth id answer | unfreezeUser auth id answer =>
      cases hstep
      exact h.withUsers (moveStatus_keeps _ _ _ _ auth id answer s.db.users)
  | updateProfile userID r answer =>
      cases hstep
      exact h.withUsers (updateProfile_keeps userID r answer s.db.users)
  | resetAdminPassword r hash answer =>
      cases hstep
      obtain ⟨v, hv, hemail, hrole, hhash⟩ := h.row
      have hsafe : v.role = .client ∨ v.email ≠ r.email := by
        rw [hrole, hemail]
        exact hharmless
      exact ⟨⟨v, resetAdminPassword_keeps r hash answer hv hsafe, hemail, hrole, hhash⟩, h.tasks⟩
  | changePassword caller r =>
      cases hstep
      refine ⟨h.row, fun task htask => ?_⟩
      rcases List.mem_append.mp htask with hold | hnew
      · exact h.tasks task hold
      · rw [List.mem_singleton.mp hnew]
        exact changePassword_refused hharmless
  | move i answer =>
      simp only [Accounts.step] at hstep
      split at hstep
      · cases hstep
      · rename_i task htask
        obtain ⟨⟨next, users⟩, hresume, rfl⟩ := Option.map_eq_some_iff.mp hstep
        have hrow : ∀ v, s.db.users.find u.id = some v → v.passwordHash = u.passwordHash := by
          intro v hv
          obtain ⟨w, hw, _, _, hhash⟩ := h.row
          cases hv.symm.trans hw
          exact hhash
        obtain ⟨hnext, hsame⟩ := resume_refused (h.tasks task (List.mem_of_getElem? htask)) hrow hresume
        refine ⟨?_, fun other hother => ?_⟩
        · obtain ⟨v, hv, hrest⟩ := h.row
          exact ⟨v, hsame.trans hv, hrest⟩
        · obtain rfl | ⟨j, _, hj⟩ := Pool.mem_set hother
          · exact hnext
          · exact h.tasks other (List.mem_of_getElem? hj)
  | adminLogin body a token | clientLogin r a token =>
      simp only [Accounts.step] at hstep
      split at hstep <;>
        · cases hstep
          exact ⟨h.row, h.tasks⟩

end Kept

-- However executions of ChangePassword interleave with each other and with
-- everything else: nobody changes a password who does not present it, nor the
-- password of a client by resetting one.
theorem password_kept (compareHashAndPassword : String → String → Bool) {db : AuthDB} {labels : List AccountLabel}
    {s : Accounts} (hrun : Accounts.run compareHashAndPassword db labels = some s) {u : User}
    (hu : db.users.find u.id = some u) (hall : ∀ l ∈ labels, Harmless compareHashAndPassword u l) :
    ∃ v, s.db.users.find u.id = some v ∧ v.email = u.email ∧ v.role = u.role ∧
      v.passwordHash = u.passwordHash := by
  have hkept : (∀ l ∈ labels, Harmless compareHashAndPassword u l) → Kept compareHashAndPassword u s := by
    refine Machine.run_induction
      (motive := fun labels s => (∀ l ∈ labels, Harmless compareHashAndPassword u l) →
      Kept compareHashAndPassword u s)
      (fun _ => ⟨⟨u, hu, rfl, rfl, rfl⟩, fun task htask => absurd htask List.not_mem_nil⟩) ?_ hrun
    intro labels l s t _ ih hlast hall
    have hbefore := ih fun l hl => hall l (List.mem_append_left _ hl)
    exact hbefore.step (hall l (List.mem_append_right _ (List.mem_singleton_self l))) hlast
  exact (hkept hall).row

def dana : User :=
  { id := 4, email := "dana@example.com", username := "dana", passwordHash := "secret", role := .client,
    balance := 0, creditLimit := 0, maxConcurrent := 10, dailyLimit := 1000, ratePlanID := none,
    aLegRate := none, bLegRate := none, status := .active, webhookURL := none, createdAt := 0,
    updatedAt := 0 }

def erin : User := { dana with id := 5, email := "erin@example.com", username := "erin", role := .admin }

def danaAndErin : AuthDB :=
  ⟨⟨⟨[dana, erin], by decide⟩, by decide⟩, IndexedTable.empty⟩

-- Somebody guesses for one user while the other changes and resets the password.
def guessing : List AccountLabel :=
  [.changePassword ⟨"4", ⟨4, "client"⟩, "dana"⟩ ⟨"guess", "guessed it"⟩,
   .changePassword ⟨"5", ⟨5, "admin"⟩, "erin"⟩ ⟨"secret", "better secret"⟩,
   .move 1 (.fetched true (some "better secret")), .move 0 (.fetched true (some "guessed it")),
   .move 1 (.updated (some 7)), .resetAdminPassword ⟨"erin@example.com", "best secret"⟩ (some "best secret")
     (some 8)]

theorem password_kept_guessing :
    ∃ s, Accounts.run (fun hash password => hash = password) danaAndErin guessing = some s ∧
      ∃ v, s.db.users.find dana.id = some v ∧ v.email = dana.email ∧ v.role = dana.role ∧
        v.passwordHash = dana.passwordHash :=
  ⟨_, rfl, @password_kept (fun hash password => hash = password) danaAndErin guessing _ rfl dana rfl
    (by simp [guessing, Harmless, dana])⟩

end Bos3000.Auth
