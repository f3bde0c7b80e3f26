import Bos3000.Auth.Profile
import Bos3000.Lib.Machine
import Bos3000.Webhook.Sign

-- Where the webhooks of a user go, and with which secret: the endpoints of two
-- services that write these columns of users.
namespace Bos3000.Webhook

open Auth (Users User)

-- The table of users, and its column webhook_secret by the id of the user.
structure Profiles where
  users : Users
  secrets : UserID → Option String

def Profiles.setSecret (profiles : Profiles) (userID : UserID) (secret : String) : Profiles :=
  if (profiles.users.find userID).isSome then
    { profiles with secrets := Function.update profiles.secrets userID (some secret) }
  else profiles

def User.setURL (webhookURL : Option String) (u : User) : User := { u with webhookURL }

theorem User.setURL_id (webhookURL : Option String) (u : User) : (User.setURL webhookURL u).id = u.id := rfl

theorem User.setURL_email (webhookURL : Option String) (u : User) : (User.setURL webhookURL u).email = u.email := rfl

def Profiles.setURL (profiles : Profiles) (userID : UserID) (webhookURL : Option String) : Profiles :=
  { profiles with
    users := profiles.users.assign userID (User.setURL webhookURL) (User.setURL_id webhookURL)
      (User.setURL_email webhookURL) }

structure ConfigureWebhookParams where
  webhookURL : String
  deriving DecidableEq, Repr

structure ConfigureWebhookResponse where
  webhookURL : String
  webhookSecret : String
  deriving DecidableEq, Repr

def unauthenticated : APIError := ⟨.Unauthenticated, "not authenticated"⟩

def isHTTPS (url : String) : Bool := "https://".toList.isPrefixOf url.toList

-- What the SELECT found, if it did; what rand.Read drew; and the error of the UPDATE.
-- The error of the UPDATE that clears the URL is ignored, and so is that of the
-- SELECT.
def configureWebhook (auth : Option AuthData) (p : ConfigureWebhookParams) (existingSecret : Option (Option String))
    (random : Except String (List UInt8)) (fault : Option String) (profiles : Profiles) :
    Except APIError ConfigureWebhookResponse × Profiles :=
  match auth with
  | none => (.error unauthenticated, profiles)
  | some ad =>
      if p.webhookURL = "" then
        (.ok ⟨"", ""⟩, if fault.isSome then profiles else profiles.setURL ad.userID none)
      else if p.webhookURL.utf8ByteSize < 9 ∨ isHTTPS p.webhookURL = false then
        (.error ⟨.InvalidArgument, "webhook_url must start with https://"⟩, profiles)
      else
        match existingSecret.join.filter (· ≠ ""), random, fault with
        | some _, _, some e => (.error ⟨.Unknown, e⟩, profiles)
        | some secret, _, none => (.ok ⟨p.webhookURL, secret⟩, profiles.setURL ad.userID (some p.webhookURL))
        | none, .error e, _ => (.error ⟨.Unknown, e⟩, profiles)
        | none, .ok _, some e => (.error ⟨.Unknown, e⟩, profiles)
        | none, .ok b, none =>
            (.ok ⟨p.webhookURL, encodeToString b⟩,
              (profiles.setURL ad.userID (some p.webhookURL)).setSecret ad.userID (encodeToString b))

def resetWebhookSecret (auth : Option AuthData) (random : Except String (List UInt8)) (fault : Option String)
    (profiles : Profiles) : Except APIError ConfigureWebhookResponse × Profiles :=
  match auth, random, fault with
  | none, _, _ => (.error unauthenticated, profiles)
  | some _, .error e, _ => (.error ⟨.Unknown, e⟩, profiles)
  | some _, .ok _, some e => (.error ⟨.Unknown, e⟩, profiles)
  | some ad, .ok b, none =>
      match profiles.users.find ad.userID with
      | none => (.error ⟨.Unknown, "sql: no rows in result set"⟩, profiles)
      | some u => (.ok ⟨u.webhookURL.getD "", encodeToString b⟩, profiles.setSecret ad.userID (encodeToString b))

-- The requests that write these columns. An endpoint behind authentication has a
-- caller; the others check for one.
inductive ProfilesLabel
  | createUser (auth : Option AuthData) (r : Auth.CreateUserRequest) (hash : Option String)
      (answer : Option (UserID × Time))
  | updateProfile (userID : UserID) (r : Auth.UpdateProfileRequest) (answer : Option Time)
  | configureWebhook (auth : Option AuthData) (p : ConfigureWebhookParams) (existingSecret : Option (Option String))
      (random : Except String (List UInt8)) (fault : Option String)
  | resetWebhookSecret (auth : Option AuthData) (random : Except String (List UInt8)) (fault : Option String)

def Profiles.step (profiles : Profiles) : ProfilesLabel → Option Profiles
  | .createUser auth r hash answer =>
      some { profiles with users := (Auth.createUser auth r hash answer profiles.users).2 }
  | .updateProfile userID r answer =>
      some { profiles with users := (Auth.updateProfile userID r answer profiles.users).2 }
  | .configureWebhook auth p existingSecret random fault =>
      some (Webhook.configureWebhook auth p existingSecret random fault profiles).2
  | .resetWebhookSecret auth random fault => some (Webhook.resetWebhookSecret auth random fault profiles).2

-- The row that the migrations insert.
def seededAdmin (now : Time) : User where
  id := 1
  email := "admin@localhost"
  username := "admin"
  passwordHash := "$2a$10$R/XHEykG1mObVZdEwMryfe4r8Nmzy8gdxO5YLVLRlVtcuJjm5RzYS"
  role := .admin
  balance := 0
  creditLimit := 0
  maxConcurrent := 0
  dailyLimit := 0
  ratePlanID := none
  aLegRate := none
  bLegRate := none
  status := .active
  webhookURL := none
  createdAt := now
  updatedAt := now

def seeded (now : Time) : Profiles where
  users := ⟨⟨[seededAdmin now], List.nodup_singleton _⟩, List.nodup_singleton _⟩
  secrets := fun _ => none

-- What a stored URL may be, besides NULL.
def allowedURL (url : String) : Bool := url = "" || isHTTPS url

def HTTPSTargets (profiles : Profiles) : Prop :=
  ∀ u ∈ profiles.users.rows, u.webhookURL.all allowedURL

instance (profiles : Profiles) : Decidable (HTTPSTargets profiles) := inferInstanceAs (Decidable (∀ _ ∈ _, _))

section CreateUser

variable {auth : Option AuthData} {r : Auth.CreateUserRequest} {hash : Option String} {answer : Option (UserID × Time)}
    {users next : Users}

-- The INSERT of CreateUser, where it comes to that and goes through.
def inserted (auth : Option AuthData) (r : Auth.CreateUserRequest) (hash : Option String)
    (answer : Option (UserID × Time)) (users : Users) : Option Users :=
  if r.validate.isOk && (Auth.requireAdmin auth).isOk then
    hash.bind fun hash => answer.bind fun (id, now) => (r.row hash id now).bind fun row => users.insert row
  else none

theorem createUser_snd :
    (Auth.createUser auth r hash answer users).2 = (inserted auth r hash answer users).getD users := by
  unfold Auth.createUser inserted
  cases r.validate with
  | error e => rfl
  | ok _ =>
      cases Auth.requireAdmin auth with
      | error e => rfl
      | ok _ =>
          cases hash with
          | none => rfl
          | some hash =>
              cases answer with
              | none => rfl
              | some drawn =>
                  obtain ⟨id, now⟩ := drawn
                  cases hrow : r.row hash id now with
                  | none => simp [Except.isOk, Except.toBool, hrow]
                  | some row =>
                      cases hinsert : users.insert row with
                      | none => simp [Except.isOk, Except.toBool, hrow, hinsert]
                      | some next => simp [Except.isOk, Except.toBool, hrow, hinsert]

theorem row_webhookURL {passwordHash : String} {id : UserID} {now : Time} {u : User}
    (h : r.row passwordHash id now = some u) : u.webhookURL = some r.webhookURL := by
  simp only [Auth.CreateUserRequest.row, Option.bind_eq_bind, Option.bind_eq_some_iff, Option.pure_def,
    Option.some.injEq] at h
  obtain ⟨_, _, _, _, _, _, _, _, _, _, rfl⟩ := h
  rfl

theorem inserted_rows (h : inserted auth r hash answer users = some next) :
    ∃ u, u.webhookURL = some r.webhookURL ∧ next.rows = users.rows ++ [u] := by
  unfold inserted at h
  split at h
  · obtain ⟨passwordHash, _, h⟩ := Option.bind_eq_some_iff.mp h
    obtain ⟨⟨id, now⟩, _, h⟩ := Option.bind_eq_some_iff.mp h
    obtain ⟨u, hrow, hinsert⟩ := Option.bind_eq_some_iff.mp h
    exact ⟨u, row_webhookURL hrow, (Table.insert_eq_some (IndexedTable.insert_eq_some.mp hinsert)).1⟩
  · cases h

end CreateUser

theorem mem_setProfile {users : Users} {userID : UserID} {username webhookURL : Option String} {now : Time}
    {row : User} :
    row ∈ (users.assign userID (.setProfile username webhookURL now) (User.setProfile_id username webhookURL now)
      (User.setProfile_email username webhookURL now)).rows ↔
      ∃ old ∈ users.rows, row = if old.id = userID then old.setProfile username webhookURL now else old :=
  @Table.mem_update _ _ _ _ users.toTable row userID _ (User.setProfile_id username webhookURL now)

theorem mem_setURL {profiles : Profiles} {userID : UserID} {webhookURL : Option String} {row : User} :
    row ∈ (profiles.setURL userID webhookURL).users.rows ↔
      ∃ old ∈ profiles.users.rows, row = if old.id = userID then User.setURL webhookURL old else old :=
  @Table.mem_update _ _ _ _ profiles.users.toTable row userID _ (User.setURL_id webhookURL)

-- The UPDATE of UpdateProfile goes through.
def updates (userID : UserID) (r : Auth.UpdateProfileRequest) (answer : Option Time) (users : Users) : Bool :=
  answer.isSome && (Auth.keptName r.username).isSome && (users.find userID).isSome

theorem mem_updateProfile {userID : UserID} {r : Auth.UpdateProfileRequest} {answer : Option Time} {users : Users}
    {row : User} (hrow : row ∈ (Auth.updateProfile userID r answer users).2.rows) : row ∈ users.rows ∨
      updates userID r answer users = true ∧ ∃ old ∈ users.rows,
      row.webhookURL = r.webhookURL.or old.webhookURL := by
  by_cases hempty : r.username = none ∧ r.webhookURL = none
  · rw [Auth.updateProfile_empty hempty.1 hempty.2] at hrow
    exact .inl hrow
  · have hasks : r.username ≠ none ∨ r.webhookURL ≠ none := by tauto
    obtain ⟨hfails, _⟩ | ⟨u, now, kept, hfind, rfl, hkept⟩ :=
      @Auth.updateReturning_cases userID answer users r.username r.webhookURL
    · rw [Auth.updateProfile_eq hasks, hfails] at hrow
      exact .inl hrow
    · rw [Auth.updateProfile_written hasks hfind hkept] at hrow
      obtain ⟨old, hold, rfl⟩ := mem_setProfile.mp hrow
      split
      · exact .inr ⟨by simp [updates, hkept, hfind], old, hold, rfl⟩
      · exact .inl hold

-- CreateUser and UpdateProfile store what they are given; ConfigureWebhook checks it.
def keepsHTTPS (profiles : Profiles) : ProfilesLabel → Bool
  | .createUser auth r hash answer => (inserted auth r hash answer profiles.users).isNone || allowedURL r.webhookURL
  | .updateProfile userID r answer => !updates userID r answer profiles.users || r.webhookURL.all allowedURL
  | .configureWebhook .. | .resetWebhookSecret .. => true

theorem setSecret_users (profiles : Profiles) (userID : UserID) (secret : String) :
    (profiles.setSecret userID secret).users = profiles.users := by
  unfold Profiles.setSecret
  split <;> rfl

theorem setURL_targets {profiles : Profiles} (hall : HTTPSTargets profiles) (userID : UserID)
    {webhookURL : Option String} (hurl : webhookURL.all allowedURL = true) :
    HTTPSTargets (profiles.setURL userID webhookURL) := by
  intro row hrow
  obtain ⟨old, hold, rfl⟩ := mem_setURL.mp hrow
  split
  · exact hurl
  · exact hall old hold

theorem configureWebhook_targets {profiles : Profiles} (hall : HTTPSTargets profiles) (auth : Option AuthData)
    (p : ConfigureWebhookParams) (existingSecret : Option (Option String)) (random : Except String (List UInt8))
    (fault : Option String) :
    HTTPSTargets (configureWebhook auth p existingSecret random fault profiles).2 := by
  unfold configureWebhook
  split
  · exact hall
  · rename_i ad
    split
    · simp only
      split
      · exact hall
      · exact setURL_targets hall ad.userID rfl
    · split
      · exact hall
      · rename_i hcheck
        have hurl : (some p.webhookURL).all allowedURL = true := by
          simp only [not_or, Bool.not_eq_false] at hcheck
          simp [allowedURL, hcheck.2]
        split
        · exact hall
        · exact setURL_targets hall ad.userID hurl
        · exact hall
        · exact hall
        · have hset := setURL_targets hall ad.userID hurl
          intro row hrow
          rw [setSecret_users] at hrow
          exact hset row hrow

theorem resetWebhookSecret_users (auth : Option AuthData) (random : Except String (List UInt8))
    (fault : Option String) (profiles : Profiles) :
    (resetWebhookSecret auth random fault profiles).2.users = profiles.users := by
  unfold resetWebhookSecret
  split
  · rfl
  · rfl
  · rfl
  · split
    · rfl
    · exact setSecret_users ..

theorem Profiles.step_targets {profiles next : Profiles} {label : ProfilesLabel} (hall : HTTPSTargets profiles)
    (hkeeps : keepsHTTPS profiles label = true) (hstep : profiles.step label = some next) : HTTPSTargets next := by
  cases label with
  | createUser auth r hash answer =>
      cases hstep
      intro row hrow
      rw [createUser_snd] at hrow
      cases hinserted : inserted auth r hash answer profiles.users with
      | none =>
          rw [hinserted] at hrow
          exact hall row hrow
      | some users =>
          obtain ⟨u, hurl, hrows⟩ := inserted_rows hinserted
          rw [hinserted, Option.getD_some, hrows, List.mem_append, List.mem_singleton] at hrow
          obtain hrow | rfl := hrow
          · exact hall row hrow
          · rw [hurl]
            simpa [keepsHTTPS, hinserted] using hkeeps
  | updateProfile userID r answer =>
      cases hstep
      intro row hrow
      obtain hold | ⟨hupdates, old, hold, hurl⟩ := mem_updateProfile hrow
      · exact hall row hold
      · rw [hurl]
        cases hgiven : r.webhookURL with
        | none => exact hall old hold
        | some url => simpa [keepsHTTPS, hupdates, hgiven] using hkeeps
  | configureWebhook auth p existingSecret random fault =>
      cases hstep
      exact configureWebhook_targets hall auth p existingSecret random fault
  | resetWebhookSecret auth random fault =>
      cases hstep
      intro row hrow
      rw [resetWebhookSecret_users] at hrow
      exact hall row hrow

-- A request that fails the condition leaves a URL in its row that is not allowed.
theorem Profiles.step_untargeted {profiles next : Profiles} {label : ProfilesLabel}
    (hkeeps : keepsHTTPS profiles label = false) (hstep : profiles.step label = some next) : ¬ HTTPSTargets next := by
  intro hall
  cases label with
  | createUser auth r hash answer =>
      cases hstep
      simp only [keepsHTTPS, Bool.or_eq_false_iff, Option.isNone_eq_false_iff, Option.isSome_iff_exists] at hkeeps
      obtain ⟨⟨users, hinserted⟩, hbad⟩ := hkeeps
      obtain ⟨u, hurl, hrows⟩ := inserted_rows hinserted
      have hmem : u ∈ (Auth.createUser auth r hash answer profiles.users).2.rows := by
        rw [createUser_snd, hinserted, Option.getD_some, hrows]
        simp
      have hgood := hall u hmem
      rw [hurl, Option.all_some, hbad] at hgood
      cases hgood
  | updateProfile userID r answer =>
      cases hstep
      simp only [keepsHTTPS, Bool.or_eq_false_iff, Bool.not_eq_false'] at hkeeps
      obtain ⟨hupdates, hbad⟩ := hkeeps
      obtain ⟨url, hurl⟩ : ∃ url, r.webhookURL = some url := by
        cases hurl : r.webhookURL with
        | none => simp [hurl] at hbad
        | some url => exact ⟨url, rfl⟩
      rw [hurl, Option.all_some] at hbad
      simp only [updates, Bool.and_eq_true, Option.isSome_iff_exists] at hupdates
      obtain ⟨⟨⟨now, hanswer⟩, kept, hkept⟩, u, hfind⟩ := hupdates
      subst hanswer
      have hwritten := @Auth.updateProfile_written userID r profiles.users u now kept (.inr (by simp [hurl])) hfind
          hkept
      obtain ⟨hu, rfl⟩ := Table.find_eq_some.mp hfind
      have hmem : u.setProfile kept r.webhookURL now ∈
          (Auth.updateProfile u.id r (some now) profiles.users).2.rows := by
        rw [hwritten]
        exact mem_setProfile.mpr ⟨u, hu, (if_pos rfl).symm⟩
      have hgood := hall _ hmem
      rw [hurl, show (u.setProfile kept (some url) now).webhookURL = some url from rfl, Option.all_some, hbad] at hgood
      cases hgood
  | configureWebhook | resetWebhookSecret => cases hkeeps

-- A customer is created, and clears the URL.
def cleared : List ProfilesLabel :=
  [ProfilesLabel.createUser (some ⟨1, "admin"⟩)
      ⟨"a@example.com", "before", "password", 0, 10, 1000, none, none, none, ""⟩ (some "hash") (some (2, 5)),
    .configureWebhook (some ⟨2, "client"⟩) ⟨""⟩ none (.ok []) none]

-- Changing the name then fails, and the name is changed.
theorem profile_changed_by_failure : ∃ profiles, Machine.run Profiles.step (seeded 0) cleared = some profiles ∧
    (profiles.users.find 2).map Auth.User.username = some "before" ∧
    (Auth.updateProfile 2 ⟨some "after", none⟩ (some 9) profiles.users).1 =
      .error ⟨.Internal, "failed to update profile"⟩ ∧
    ((Auth.updateProfile 2 ⟨some "after", none⟩ (some 9) profiles.users).2.find 2).map Auth.User.username =
      some "after" ∧
    ¬ Auth.ProfileAtomic 2 ⟨some "after", none⟩ (some 9) profiles.users := by
  refine ⟨_, rfl, rfl, rfl, rfl, fun hatomic => ?_⟩
  have hsame := congrArg (Option.map Auth.User.username) (hatomic.refused _ rfl)
  exact absurd hsame (by decide +kernel)

end Bos3000.Webhook
