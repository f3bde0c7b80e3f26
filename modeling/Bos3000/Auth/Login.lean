import Bos3000.Auth.APIKeys

-- Logins, and the tokens they hand out.
namespace Bos3000.Auth

structure LoginRequest where
  email : String
  password : String
  deriving DecidableEq, Repr

structure UserRecord where
  id : UserID
  email : String
  username : String
  role : Role
  passwordHash : String
  deriving DecidableEq, Repr

-- The claims of a token, which its signature protects. The subject is written in decimal.
structure Claims where
  sub : UserID
  role : String
  username : String
  exp : Int
  iat : Int
  deriving DecidableEq, Repr

-- What the environment of a login answers: whether the query and the signing go
-- through, and two readings of the clock.
structure LoginAnswers where
  query : Bool
  signs : Bool
  now : Time
  issued : Time
  deriving DecidableEq, Repr

-- bcrypt.CompareHashAndPassword finds no error.
variable (compareHashAndPassword : String → String → Bool)

def invalidCredentials : APIError := ⟨.Unauthenticated, "invalid credentials"⟩

def authenticateUser (r : LoginRequest) (expectedRole : Role) (query : Option AuthDB) :
    Except APIError UserRecord :=
  match query.bind fun db => db.users.findBy r.email with
  | none => .error invalidCredentials
  | some u =>
      if u.role ≠ expectedRole then .error invalidCredentials
      else if !compareHashAndPassword u.passwordHash r.password then .error invalidCredentials
      else .ok ⟨u.id, u.email, u.username, u.role, u.passwordHash⟩

def unixSeconds (t : Time) : Int := t / second.toInt

-- 24 hours
def tokenLifetime : Int := 24 * 3600 * second.toInt

def createJWT (user : UserRecord) (a : LoginAnswers) : Option (Claims × Time) :=
  let expiresAt := a.now + tokenLifetime
  if a.signs then
    some (⟨user.id, user.role.text, user.username, unixSeconds expiresAt, unixSeconds a.issued⟩, expiresAt)
  else none

structure HTTPError where
  status : Nat
  body : String
  deriving DecidableEq, Repr

-- The session cookie and the body of a login.
structure AdminLoginResponse where
  session : Claims
  message : String
  expiresAt : Time
  deriving DecidableEq, Repr

-- The body is the request, if it decodes.
def adminLogin (body : Option LoginRequest) (a : LoginAnswers) (db : AuthDB) :
    Except HTTPError AdminLoginResponse :=
  match body with
  | none =>
      .error ⟨400, "\x7b\"code\":\"invalid_argument\",\"message\":\"invalid request body\"\x7d"⟩
  | some r =>
      match authenticateUser compareHashAndPassword r .admin (db.seen a.query) with
      | .error _ =>
          .error ⟨401, "\x7b\"code\":\"unauthenticated\",\"message\":\"invalid credentials\"\x7d"⟩
      | .ok user =>
          match createJWT user a with
          | none => .error ⟨500, "\x7b\"code\":\"internal\",\"message\":\"failed to create token\"\x7d"⟩
          | some (claims, expiresAt) => .ok ⟨claims, "login successful", expiresAt⟩

structure ClientLoginResponse where
  token : Claims
  expiresAt : Time
  deriving DecidableEq, Repr

def clientLogin (r : LoginRequest) (a : LoginAnswers) (db : AuthDB) :
    Except APIError ClientLoginResponse :=
  match authenticateUser compareHashAndPassword r .client (db.seen a.query) with
  | .error e => .error e
  | .ok user =>
      match createJWT user a with
      | none => .error ⟨.Internal, "failed to create token"⟩
      | some (claims, expiresAt) => .ok ⟨claims, expiresAt⟩

-- A login of a user that succeeds: the user has the email, the role and the password.
def logsIn (userID : UserID) (r : LoginRequest) (role : Role) (a : LoginAnswers) (db : AuthDB) : Bool :=
  a.query && a.signs && (db.users.findBy r.email).any fun u =>
    u.id = userID && u.role = role && compareHashAndPassword u.passwordHash r.password

section Outcomes

variable {compareHashAndPassword} {userID : UserID} {r : LoginRequest} {role : Role} {a : LoginAnswers}
    {db : AuthDB}

theorem authenticateUser_eq_ok {user : UserRecord} :
    authenticateUser compareHashAndPassword r role (db.seen a.query) = .ok user ↔
      a.query = true ∧ ∃ u : User, db.users.findBy r.email = some u ∧ u.role = role ∧
        compareHashAndPassword u.passwordHash r.password = true ∧
        ⟨u.id, u.email, u.username, u.role, u.passwordHash⟩ = user := by
  unfold authenticateUser AuthDB.seen
  cases a.query with
  | false => simp
  | true =>
      simp only [if_true, Option.bind_some, true_and]
      cases hfind : db.users.findBy r.email with
      | none => simp
      | some u =>
          by_cases hrole : u.role = role <;>
            cases hcompare : compareHashAndPassword u.passwordHash r.password <;>
            simp [hrole, hcompare]

theorem logsIn_iff : logsIn compareHashAndPassword userID r role a db = true ↔
    ∃ user, authenticateUser compareHashAndPassword r role (db.seen a.query) = .ok user ∧
      user.id = userID ∧ a.signs = true := by
  simp only [authenticateUser_eq_ok, logsIn, Bool.and_eq_true, Option.any_eq_true, decide_eq_true_eq]
  constructor
  · rintro ⟨⟨hquery, hsigns⟩, u, hfind, ⟨hid, hrole⟩, hcompare⟩
    exact ⟨_, ⟨hquery, u, hfind, hrole, hcompare, rfl⟩, hid, hsigns⟩
  · rintro ⟨_, ⟨hquery, u, hfind, hrole, hcompare, rfl⟩, hid, hsigns⟩
    exact ⟨⟨hquery, hsigns⟩, u, hfind, ⟨hid, hrole⟩, hcompare⟩

theorem createJWT_eq (user : UserRecord) (a : LoginAnswers) :
    (a.signs = true ∧ ∃ claims expiresAt, createJWT user a = some (claims, expiresAt) ∧
      claims.sub = user.id) ∨ a.signs = false ∧ createJWT user a = none := by
  unfold createJWT
  cases a.signs with
  | false => exact .inr ⟨rfl, rfl⟩
  | true => exact .inl ⟨rfl, _, _, rfl, rfl⟩

-- A login hands out a token of a user exactly where it succeeds for the user.
theorem adminLogin_sub {body : Option LoginRequest} :
    (∃ response, adminLogin compareHashAndPassword body a db = .ok response ∧
      response.session.sub = userID) ↔
      ∃ r, body = some r ∧ logsIn compareHashAndPassword userID r .admin a db = true := by
  cases body with
  | none => simp [adminLogin]
  | some r =>
      simp only [adminLogin, Option.some.injEq, exists_eq_left', logsIn_iff]
      cases authenticateUser compareHashAndPassword r .admin (db.seen a.query) with
      | error e => simp
      | ok user =>
          obtain ⟨hsigns, claims, expiresAt, hjwt, hsub⟩ | ⟨hsigns, hjwt⟩ := createJWT_eq user a
          · simp [hjwt, hsigns, hsub]
          · simp [hjwt, hsigns]

theorem clientLogin_sub :
    (∃ response, clientLogin compareHashAndPassword r a db = .ok response ∧
      response.token.sub = userID) ↔ logsIn compareHashAndPassword userID r .client a db = true := by
  simp only [clientLogin, logsIn_iff]
  cases authenticateUser compareHashAndPassword r .client (db.seen a.query) with
  | error e => simp
  | ok user =>
      obtain ⟨hsigns, claims, expiresAt, hjwt, hsub⟩ | ⟨hsigns, hjwt⟩ := createJWT_eq user a
      · simp [hjwt, hsigns, hsub]
      · simp [hjwt, hsigns]

-- A login does not depend on the status of a user.
theorem logsIn_setStatus (id : UserID) (status : UserStatus) (now : Time) :
    logsIn compareHashAndPassword userID r role a { db with
      users := db.users.assign id (.setStatus status now) (User.setStatus_id status now)
        (User.setStatus_email status now) } =
      logsIn compareHashAndPassword userID r role a db := by
  simp only [logsIn, IndexedTable.findBy_assign, Option.any_map]
  congr 2
  funext u
  split <;> rfl

end Outcomes

end Bos3000.Auth
