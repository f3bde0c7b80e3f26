import Bos3000.Lib.Table
import Bos3000.Types

-- The users of the auth service. Each operation is one statement on users, but for
-- ListUsers, which is two.
namespace Bos3000.Auth

inductive Role
  | admin | client
  deriving DecidableEq, Repr

def Role.text : Role → String
  | .admin => "admin"
  | .client => "client"

inductive UserStatus
  | active | frozen | suspended
  deriving DecidableEq, Repr

def UserStatus.text : UserStatus → String
  | .active => "active"
  | .frozen => "frozen"
  | .suspended => "suspended"

-- A row of users.
structure User where
  id : UserID
  email : String
  username : String
  passwordHash : String
  role : Role
  balance : Money
  creditLimit : Money
  maxConcurrent : Int32
  dailyLimit : Int32
  ratePlanID : Option Int64
  aLegRate : Option Money
  bLegRate : Option Money
  status : UserStatus
  webhookURL : Option String
  createdAt : Time
  updatedAt : Time
  deriving DecidableEq, Repr

abbrev Users := IndexedTable User.id User.email

def requireAdmin (auth : Option AuthData) : Except APIError Unit :=
  match auth with
  | some ad =>
      if ad.role = "admin" then .ok () else .error ⟨.PermissionDenied, "admin access required"⟩
  | none => .error ⟨.PermissionDenied, "admin access required"⟩

structure CreateUserRequest where
  email : String
  username : String
  password : String
  creditLimit : Money
  maxConcurrent : Int64
  dailyLimit : Int64
  ratePlanID : Option Int64
  aLegRate : Option Money
  bLegRate : Option Money
  webhookURL : String
  deriving DecidableEq, Repr

def CreateUserRequest.validate (r : CreateUserRequest) : Except APIError Unit :=
  if r.email = "" then .error ⟨.InvalidArgument, "email is required"⟩
  else if r.username = "" then .error ⟨.InvalidArgument, "username is required"⟩
  else if r.password = "" ∨ r.password.utf8ByteSize < 8 then
    .error ⟨.InvalidArgument, "password must be at least 8 characters"⟩
  else .ok ()

structure CreateUserResponse where
  id : UserID
  email : String
  username : String
  deriving DecidableEq, Repr

-- A number stored in an INT column.
def int4 (n : Int64) : Option Int32 :=
  if -2147483648 ≤ n.toInt ∧ n.toInt ≤ 2147483647 then some (Int32.ofInt n.toInt) else none

-- The row that the INSERT writes, where each value fits its column.
def CreateUserRequest.row (r : CreateUserRequest) (hash : String) (id : UserID) (now : Time) :
    Option User := do
  let email ← varchar 255 r.email
  let username ← varchar 100 r.username
  let passwordHash ← varchar 255 hash
  let maxConcurrent ← int4 r.maxConcurrent
  let dailyLimit ← int4 r.dailyLimit
  return { id, email, username, passwordHash, role := .client, balance := 0,
           creditLimit := r.creditLimit, maxConcurrent, dailyLimit, ratePlanID := r.ratePlanID,
           aLegRate := r.aLegRate, bLegRate := r.bLegRate, status := .active,
           webhookURL := some r.webhookURL, createdAt := now, updatedAt := now }

-- The hash is what bcrypt made of the password, if anything. The answer of the
-- INSERT is the id it drew and the time, or it fails.
def createUser (auth : Option AuthData) (r : CreateUserRequest) (hash : Option String)
    (answer : Option (UserID × Time)) (users : Users) : Except APIError CreateUserResponse × Users :=
  match r.validate, requireAdmin auth with
  | .error e, _ => (.error e, users)
  | .ok _, .error e => (.error e, users)
  | .ok _, .ok _ =>
      match hash with
      | none => (.error ⟨.Internal, "failed to hash password"⟩, users)
      | some hash =>
          let inserted := answer.bind fun (id, now) =>
            (r.row hash id now).bind fun row => (users.insert row).map fun next => (id, next)
          match inserted with
          | none => (.error ⟨.AlreadyExists, "user with this email already exists"⟩, users)
          | some (id, next) => (.ok ⟨id, r.email, r.username⟩, next)

theorem CreateUserRequest.row_eq_some {r : CreateUserRequest} {passwordHash : String} {id : UserID}
    {now : Time} {u : User}
    (h : r.row passwordHash id now = some u) :
    u.id = id ∧ u.balance = 0 ∧ u.creditLimit = r.creditLimit := by
  simp only [CreateUserRequest.row, Option.bind_eq_bind, Option.bind_eq_some_iff, Option.pure_def,
    Option.some.injEq] at h
  obtain ⟨_, _, _, _, _, _, _, _, _, _, rfl⟩ := h
  exact ⟨rfl, rfl, rfl⟩

theorem createUser_users (auth : Option AuthData) (r : CreateUserRequest) (hash : Option String)
    (answer : Option (UserID × Time)) (users : Users) : (createUser auth r hash answer users).2 = users ∨
    ∃ u, answer.map Prod.fst = some u.id ∧ u.balance = 0 ∧ u.creditLimit = r.creditLimit ∧
      users.insert u = some (createUser auth r hash answer users).2 := by
  fun_cases createUser auth r hash answer users
  case case5 hash inserted id next hinserted =>
      obtain ⟨⟨drawn, now⟩, rfl, hrow⟩ := Option.bind_eq_some_iff.mp hinserted
      obtain ⟨u, hu, hnext⟩ := Option.bind_eq_some_iff.mp hrow
      obtain ⟨_, hinsert, heq⟩ := Option.map_eq_some_iff.mp hnext
      cases heq
      obtain ⟨hid, hbalance, hlimit⟩ := CreateUserRequest.row_eq_some hu
      exact .inr ⟨u, congrArg some hid.symm, hbalance, hlimit, hinsert⟩
  all_goals exact .inl rfl

def User.setStatus (status : UserStatus) (now : Time) (u : User) : User :=
  { u with status, updatedAt := now }

theorem User.setStatus_id (status : UserStatus) (now : Time) (u : User) :
    (u.setStatus status now).id = u.id := rfl

theorem User.setStatus_email (status : UserStatus) (now : Time) (u : User) :
    (u.setStatus status now).email = u.email := rfl

-- FreezeUser and UnfreezeUser: an UPDATE of the row with the id and a status. Its
-- answer is the time, or it fails.
def moveStatus (source target : UserStatus) (failed notFound : String) (auth : Option AuthData)
    (id : UserID) (answer : Option Time) (users : Users) : Except APIError Unit × Users :=
  match requireAdmin auth with
  | .error e => (.error e, users)
  | .ok _ =>
      match answer with
      | none => (.error ⟨.Internal, failed⟩, users)
      | some now =>
          if (users.find id).any (·.status = source) then
            (.ok (), users.assign id (.setStatus target now) (User.setStatus_id target now)
              (User.setStatus_email target now))
          else (.error ⟨.NotFound, notFound⟩, users)

def freezeUser : Option AuthData → UserID → Option Time → Users → Except APIError Unit × Users :=
  moveStatus .active .frozen "failed to freeze user" "user not found or not in active status"

def unfreezeUser : Option AuthData → UserID → Option Time → Users → Except APIError Unit × Users :=
  moveStatus .frozen .active "failed to unfreeze user" "user not found or not in frozen status"

theorem moveStatus_users (source target : UserStatus) (failed notFound : String) (auth : Option AuthData)
    (id : UserID) (answer : Option Time) (users : Users) :
    (moveStatus source target failed notFound auth id answer users).2 = users ∨
    ∃ now, (moveStatus source target failed notFound auth id answer users).2 =
      users.assign id (.setStatus target now) (User.setStatus_id target now)
        (User.setStatus_email target now) := by
  fun_cases moveStatus source target failed notFound auth id answer users
  case case3 now _ => exact .inr ⟨now, rfl⟩
  all_goals exact .inl rfl

structure UserDetail where
  id : UserID
  email : String
  username : String
  role : String
  status : String
  balance : Money
  creditLimit : Money
  maxConcurrent : Int32
  dailyLimit : Int32
  ratePlanID : Option Int64
  aLegRate : Option Money
  bLegRate : Option Money
  webhookURL : String
  createdAt : Time
  updatedAt : Time
  deriving DecidableEq, Repr

def User.detail (u : User) : UserDetail :=
  { id := u.id, email := u.email, username := u.username, role := u.role.text, status := u.status.text,
    balance := u.balance, creditLimit := u.creditLimit, maxConcurrent := u.maxConcurrent,
    dailyLimit := u.dailyLimit, ratePlanID := u.ratePlanID, aLegRate := u.aLegRate,
    bLegRate := u.bLegRate, webhookURL := u.webhookURL.getD "", createdAt := u.createdAt,
    updatedAt := u.updatedAt }

-- A query sees the table as it stands, or fails.
def getUser (auth : Option AuthData) (id : UserID) (query : Option Users) :
    Except APIError UserDetail :=
  match requireAdmin auth with
  | .error e => .error e
  | .ok _ =>
      match query.bind fun users => users.find id with
      | none => .error ⟨.NotFound, "user not found"⟩
      | some u => .ok u.detail

structure UserSummary where
  id : UserID
  email : String
  username : String
  role : String
  status : String
  balance : Money
  creditLimit : Money
  maxConcurrent : Int32
  dailyLimit : Int32
  createdAt : Time
  updatedAt : Time
  deriving DecidableEq, Repr

def User.summary (u : User) : UserSummary :=
  { id := u.id, email := u.email, username := u.username, role := u.role.text, status := u.status.text,
    balance := u.balance, creditLimit := u.creditLimit, maxConcurrent := u.maxConcurrent,
    dailyLimit := u.dailyLimit, createdAt := u.createdAt, updatedAt := u.updatedAt }

structure ListUsersParams where
  page : Int64
  limit : Int64
  search : String
  status : String
  deriving DecidableEq, Repr

structure ListUsersResponse where
  users : List UserSummary
  total : Nat
  page : Int64
  limit : Int64
  deriving DecidableEq, Repr

def ListUsersParams.limitOf (p : ListUsersParams) : Int64 :=
  if p.limit ≤ 0 ∨ 100 < p.limit then 20 else p.limit

def ListUsersParams.pageOf (p : ListUsersParams) : Int64 := if p.page ≤ 0 then 1 else p.page

section List

-- The database's ILIKE: a text and a pattern.
variable (ilike : String → String → Bool)

-- The rows a search matches.
def ListUsersParams.selects (p : ListUsersParams) (u : User) : Bool :=
  let search := "%" ++ p.search ++ "%"
  (ilike u.email search || ilike u.username search) && (p.status = "" || u.status.text = p.status)

-- Whether the database can read the texts of the search.
def ListUsersParams.readable (p : ListUsersParams) : Bool :=
  '\x00' ∉ p.search.toList ∧ '\x00' ∉ p.status.toList

-- A negative OFFSET fails while the query is executed.
def queryUserSummaries (p : ListUsersParams) (limit offset : Int64) (query : Option Users) :
    Except APIError (List UserSummary) :=
  match query with
  | none => .error ⟨.Internal, "failed to query users"⟩
  | some users =>
      if offset < 0 then .error ⟨.Internal, "failed to iterate users"⟩
      else
        let matching := (users.rows.filter (p.selects ilike)).mergeSort fun u v => u.id ≤ v.id
        .ok (((matching.drop offset.toNatClampNeg).take limit.toNatClampNeg).map User.summary)

def listUsers (auth : Option AuthData) (p : ListUsersParams) (count query : Option Users) :
    Except APIError ListUsersResponse :=
  match requireAdmin auth with
  | .error e => .error e
  | .ok _ =>
      match count.filter fun _ => p.readable with
      | none => .error ⟨.Internal, "failed to count users"⟩
      | some users =>
          match queryUserSummaries ilike p p.limitOf ((p.pageOf - 1) * p.limitOf) query with
          | .error e => .error e
          | .ok found => .ok ⟨found, (users.rows.filter (p.selects ilike)).length, p.pageOf, p.limitOf⟩

-- The summaries are those of rows.
theorem mem_queryUserSummaries {p : ListUsersParams} {limit offset : Int64} {users : Users}
    {found : List UserSummary} {summary : UserSummary}
    (h : queryUserSummaries ilike p limit offset (some users) = .ok found) (hmem : summary ∈ found) :
    ∃ u ∈ users.rows, u.summary = summary := by
  simp only [queryUserSummaries] at h
  split at h
  · cases h
  · cases h
    obtain ⟨u, hu, rfl⟩ := List.mem_map.mp hmem
    have hsorted := List.mem_of_mem_drop (List.mem_of_mem_take hu)
    exact ⟨u, (List.mem_filter.mp (List.mem_mergeSort.mp hsorted)).1, rfl⟩

theorem mem_listUsers {auth : Option AuthData} {p : ListUsersParams} {count : Option Users} {users : Users}
    {response : ListUsersResponse} {summary : UserSummary}
    (h : listUsers ilike auth p count (some users) = .ok response) (hmem : summary ∈ response.users) :
    ∃ u ∈ users.rows, u.summary = summary := by
  revert h
  fun_cases listUsers ilike auth p count (some users)
  case case4 found hquery =>
      intro h
      cases h
      exact mem_queryUserSummaries ilike hquery hmem
  all_goals
    intro h
    cases h

end List

theorem getUser_eq_ok {auth : Option AuthData} {id : UserID} {users : Users} {u : User} {detail : UserDetail}
    (hu : users.find id = some u) (h : getUser auth id (some users) = .ok detail) : detail = u.detail := by
  revert h
  fun_cases getUser auth id (some users)
  case case3 found hfound =>
      intro h
      cases h
      cases hu.symm.trans hfound
      rfl
  all_goals
    intro h
    cases h

end Bos3000.Auth
