import Bos3000.Auth.Users
import Bos3000.Lib.Net
import Bos3000.Webhook.Sign

-- API keys: how they are issued, revoked and checked. A key is stored as the
-- SHA-256 of its text only.
namespace Bos3000.Auth

open Webhook (encodeToString utf8)

inductive KeyStatus
  | active | revoked
  deriving DecidableEq, Repr

-- A row of api_keys.
structure APIKey where
  id : Int64
  userID : UserID
  keyPrefix : String
  keyHash : String
  status : KeyStatus
  ipWhitelist : List String
  deriving DecidableEq, Repr

abbrev APIKeys := IndexedTable APIKey.id APIKey.keyHash

structure AuthDB where
  users : Users
  apiKeys : APIKeys

-- The caller of an endpoint, as the auth handler identified it: auth.UID and AuthData.
structure Principal where
  uid : String
  data : AuthData
  username : String
  deriving DecidableEq, Repr

-- The bytes that rand.Read fills in.
structure RawKey where
  bytes : List UInt8
  length : bytes.length = 32
  deriving DecidableEq

def base64Char (n : UInt8) : Char :=
  "ABCDEFGHIJKLMNOPQRSTUVWXYZabcdefghijklmnopqrstuvwxyz0123456789-_".toList.getD n.toNat 'A'

-- base64.RawURLEncoding
def rawURLEncoding : List UInt8 → List Char
  | a :: b :: c :: rest =>
      base64Char (a >>> 2) :: base64Char ((a &&& 3) <<< 4 ||| b >>> 4) ::
        base64Char ((b &&& 15) <<< 2 ||| c >>> 6) :: base64Char (c &&& 63) :: rawURLEncoding rest
  | [a, b] =>
      [base64Char (a >>> 2), base64Char ((a &&& 3) <<< 4 ||| b >>> 4), base64Char ((b &&& 15) <<< 2)]
  | [a] => [base64Char (a >>> 2), base64Char ((a &&& 3) <<< 4)]
  | [] => []

def RawKey.fullKey (raw : RawKey) : String := "bos_" ++ String.ofList (rawURLEncoding raw.bytes)

def RawKey.keyPrefix (raw : RawKey) : String := String.ofList (raw.fullKey.toList.take 12)

def keyHashOf (key : String) : String := encodeToString (Sha256.sum256 (utf8 key))

structure CreateAPIKeyResponse where
  id : Int64
  key : String
  keyPrefix : String
  deriving DecidableEq, Repr

-- The INSERT draws an id, or fails; the user must exist.
def createAPIKey (caller : Principal) (raw : Option RawKey) (answer : Option Int64) (db : AuthDB) :
    Except APIError CreateAPIKeyResponse × AuthDB :=
  match raw with
  | none => (.error ⟨.Internal, "failed to generate key"⟩, db)
  | some raw =>
      let inserted := answer.bind fun id =>
        (db.users.find caller.data.userID).bind fun u =>
          (db.apiKeys.insert ⟨id, u.id, raw.keyPrefix, keyHashOf raw.fullKey, .active, []⟩).map fun apiKeys =>
            (id, apiKeys)
      match inserted with
      | none => (.error ⟨.Internal, "failed to create API key"⟩, db)
      | some (id, apiKeys) => (.ok ⟨id, raw.fullKey, raw.keyPrefix⟩, { db with apiKeys })

-- A query sees the database as it stands, or fails.
def verifyKeyOwnership (caller : Principal) (keyID : Int64) (query : Option AuthDB) :
    Except APIError Unit :=
  if caller.data.role = "admin" then .ok ()
  else
    match query.bind fun db => db.apiKeys.find keyID with
    | none => .error ⟨.NotFound, "API key not found"⟩
    | some row =>
        if toString row.userID ≠ caller.uid then
          .error ⟨.PermissionDenied, "not the owner of this API key"⟩
        else .ok ()

def APIKey.reset (raw : RawKey) (row : APIKey) : APIKey :=
  { row with keyHash := keyHashOf raw.fullKey, keyPrefix := raw.keyPrefix }

def APIKey.revoke (row : APIKey) : APIKey := { row with status := .revoked }

theorem APIKey.reset_id (raw : RawKey) (row : APIKey) : (row.reset raw).id = row.id := rfl

theorem APIKey.revoke_id (row : APIKey) : row.revoke.id = row.id := rfl

theorem APIKey.revoke_keyHash (row : APIKey) : row.revoke.keyHash = row.keyHash := rfl

-- Whether the statements of an operation on a key go through. No operation changes
-- the owner of a key or deletes a key, so that it does not matter how much earlier
-- than the UPDATE the owner is read.
structure KeyAnswers where
  owner : Bool
  exec : Bool
  deriving DecidableEq, Repr

def AuthDB.seen (db : AuthDB) (answered : Bool) : Option AuthDB := if answered then some db else none

def resetAPIKey (caller : Principal) (id : Int64) (raw : Option RawKey) (answers : KeyAnswers)
    (db : AuthDB) : Except APIError CreateAPIKeyResponse × AuthDB :=
  match verifyKeyOwnership caller id (db.seen answers.owner) with
  | .error e => (.error e, db)
  | .ok _ =>
      match raw with
      | none => (.error ⟨.Internal, "failed to generate key"⟩, db)
      | some raw =>
          let updated := (db.seen answers.exec).bind fun db =>
            db.apiKeys.update id (.reset raw) (APIKey.reset_id raw)
          match updated with
          | none => (.error ⟨.Internal, "failed to reset API key"⟩, db)
          | some apiKeys =>
              if (db.apiKeys.find id).isNone then (.error ⟨.NotFound, "API key not found"⟩, db)
              else (.ok ⟨id, raw.fullKey, raw.keyPrefix⟩, { db with apiKeys })

def revokeAPIKey (caller : Principal) (id : Int64) (answers : KeyAnswers) (db : AuthDB) :
    Except APIError Unit × AuthDB :=
  match verifyKeyOwnership caller id (db.seen answers.owner) with
  | .error e => (.error e, db)
  | .ok _ =>
      match db.seen answers.exec with
      | none => (.error ⟨.Internal, "failed to revoke API key"⟩, db)
      | some db =>
          if (db.apiKeys.find id).isNone then (.error ⟨.NotFound, "API key not found"⟩, db)
          else
            (.ok (), { db with
              apiKeys := db.apiKeys.assign id .revoke APIKey.revoke_id APIKey.revoke_keyHash })

section Outcomes

variable {caller : Principal} {db next : AuthDB} {id : Int64} {answers : KeyAnswers}

theorem AuthDB.seen_eq_some {seen : AuthDB} {answered : Bool} (h : db.seen answered = some seen) :
    seen = db := by
  unfold AuthDB.seen at h
  split at h
  · exact (Option.some.inj h).symm
  · cases h

-- An operation on keys is refused and changes nothing, or it returns a key.
theorem createAPIKey_eq {raw : Option RawKey} {answer : Option Int64}
    {response : Except APIError CreateAPIKeyResponse}
    (h : createAPIKey caller raw answer db = (response, next)) :
    (∃ e, response = .error e) ∧ next = db ∨
    ∃ (raw : RawKey) (row : APIKey) (apiKeys : APIKeys), response = .ok ⟨row.id, raw.fullKey, raw.keyPrefix⟩ ∧
      next = { db with apiKeys } ∧ row.keyHash = keyHashOf raw.fullKey ∧ row.status = .active ∧
      row.ipWhitelist = [] ∧ (db.users.find row.userID).isSome ∧ db.apiKeys.insert row = some apiKeys := by
  revert h
  fun_cases createAPIKey caller raw answer db
  case case3 raw inserted id apiKeys hinserted =>
      intro h
      cases h
      obtain ⟨drawn, _, hrow⟩ := Option.bind_eq_some_iff.mp hinserted
      obtain ⟨u, hu, hrow⟩ := Option.bind_eq_some_iff.mp hrow
      obtain ⟨inserted, hinsert, heq⟩ := Option.map_eq_some_iff.mp hrow
      cases heq
      have huser : (db.users.find u.id).isSome := by
        rw [(Table.find_eq_some.mp hu).2, hu]
        rfl
      exact .inr ⟨raw, ⟨id, u.id, raw.keyPrefix, keyHashOf raw.fullKey, .active, []⟩, apiKeys, rfl, rfl,
        rfl, rfl, rfl, huser, hinsert⟩
  all_goals
    intro h
    cases h
    exact .inl ⟨⟨_, rfl⟩, rfl⟩

theorem resetAPIKey_eq {raw : Option RawKey} {response : Except APIError CreateAPIKeyResponse}
    (h : resetAPIKey caller id raw answers db = (response, next)) :
    (∃ e, response = .error e) ∧ next = db ∨
    ∃ (raw : RawKey) (apiKeys : APIKeys), response = .ok ⟨id, raw.fullKey, raw.keyPrefix⟩ ∧
      next = { db with apiKeys } ∧ (db.apiKeys.find id).isSome ∧
      db.apiKeys.update id (.reset raw) (APIKey.reset_id raw) = some apiKeys := by
  revert h
  fun_cases resetAPIKey caller id raw answers db
  case case5 raw updated apiKeys hupdated hsome =>
      intro h
      cases h
      obtain ⟨seen, hseen, hupdate⟩ := Option.bind_eq_some_iff.mp hupdated
      cases AuthDB.seen_eq_some hseen
      exact .inr ⟨raw, apiKeys, rfl, rfl, by simpa [Option.isSome_iff_ne_none] using hsome, hupdate⟩
  all_goals
    intro h
    cases h
    exact .inl ⟨⟨_, rfl⟩, rfl⟩

theorem revokeAPIKey_eq {response : Except APIError Unit}
    (h : revokeAPIKey caller id answers db = (response, next)) :
    (∃ e, response = .error e) ∧ next = db ∨
    response = .ok () ∧ (db.apiKeys.find id).isSome ∧
      next = { db with
        apiKeys := db.apiKeys.assign id .revoke APIKey.revoke_id APIKey.revoke_keyHash } := by
  revert h
  fun_cases revokeAPIKey caller id answers db
  case case4 seen hseen hsome =>
      intro h
      cases h
      cases AuthDB.seen_eq_some hseen
      exact .inr ⟨rfl, by simpa [Option.isSome_iff_ne_none] using hsome, rfl⟩
  case case3 seen hseen hsome =>
      intro h
      cases h
      cases AuthDB.seen_eq_some hseen
      exact .inl ⟨⟨_, rfl⟩, rfl⟩
  all_goals
    intro h
    cases h
    exact .inl ⟨⟨_, rfl⟩, rfl⟩

end Outcomes

-- The request headers that the whitelist is checked against.
structure Headers where
  xForwardedFor : String
  xRealIP : String
  deriving DecidableEq, Repr

-- unicode.IsSpace
def isSpace (c : Char) : Bool :=
  c ∈ ['\t', '\n', '\x0b', '\x0c', '\r', ' ', '\u0085', '\u00a0', '\u1680', '\u2028', '\u2029',
    '\u202f', '\u205f', '\u3000'] ∨ '\u2000' ≤ c ∧ c ≤ '\u200a'

-- strings.TrimSpace
def trimSpace (cs : List Char) : String :=
  String.ofList (((cs.dropWhile isSpace).reverse.dropWhile isSpace).reverse)

def remoteIP (h : Headers) : String :=
  if h.xForwardedFor ≠ "" then trimSpace (h.xForwardedFor.toList.takeWhile (· ≠ ','))
  else if h.xRealIP ≠ "" then trimSpace h.xRealIP.toList
  else ""

def matchesEntry (clientIP : Net.IP) (entry : String) : Bool :=
  if '/' ∈ entry.toList then (Net.parseCIDR entry).any fun cidr => cidr.contains clientIP
  else (Net.parseIP entry).isSome && entry = Net.text clientIP

def checkIPWhitelist (whitelist : List String) (h : Headers) : Except APIError Unit :=
  if remoteIP h = "" then .error ⟨.PermissionDenied, "could not determine client IP"⟩
  else
    match Net.parseIP (remoteIP h) with
    | none => .error ⟨.PermissionDenied, "invalid client IP"⟩
    | some clientIP =>
        if whitelist.any (matchesEntry clientIP) then .ok ()
        else .error ⟨.PermissionDenied, "IP address not in whitelist"⟩

-- The row with a hash joined with its user.
def AuthDB.lookup (db : AuthDB) (hash : String) : Option (APIKey × User) :=
  (db.apiKeys.findBy hash).bind fun row => (db.users.find row.userID).map fun u => (row, u)

def validateAPIKey (h : Headers) (apiKey : String) (query : Option AuthDB) :
    Except APIError Principal :=
  match query.bind fun db => db.lookup (keyHashOf apiKey) with
  | none => .error ⟨.Unauthenticated, "invalid API key"⟩
  | some (row, u) =>
      if row.status ≠ .active then .error ⟨.Unauthenticated, "API key has been revoked"⟩
      else
        let principal : Principal := ⟨toString u.id, ⟨u.id, u.role.text⟩, u.username⟩
        if row.ipWhitelist = [] then .ok principal
        else (checkIPWhitelist row.ipWhitelist h).map fun _ => principal

-- A request that an API key of the user authenticates.
def keyAdmits (userID : UserID) (h : Headers) (key : String) (db : AuthDB) : Bool :=
  (db.lookup (keyHashOf key)).any fun (row, u) =>
    u.id = userID && row.status = .active &&
      (row.ipWhitelist = [] || (checkIPWhitelist row.ipWhitelist h).isOk)

theorem validateAPIKey_userID {userID : UserID} {h : Headers} {key : String} {query : Option AuthDB} :
    (∃ principal, validateAPIKey h key query = .ok principal ∧ principal.data.userID = userID) ↔
      query.any (keyAdmits userID h key) = true := by
  cases query with
  | none => simp [validateAPIKey]
  | some db =>
      simp only [validateAPIKey, Option.bind_some, Option.any_some, keyAdmits]
      cases hlookup : db.lookup (keyHashOf key) with
      | none => simp
      | some found =>
          obtain ⟨row, u⟩ := found
          simp only [Option.any_some]
          by_cases hactive : row.status = .active
          · by_cases hempty : row.ipWhitelist = []
            · simp [hactive, hempty]
            · cases hcheck : checkIPWhitelist row.ipWhitelist h <;>
                simp [hactive, hempty, Except.map, Except.isOk, Except.toBool]
          · simp [hactive]

-- Nor does a key depend on the status of its user.
theorem keyAdmits_setStatus (userID : UserID) (h : Headers) (key : String) (db : AuthDB) (id : UserID)
    (status : UserStatus) (now : Time) :
    keyAdmits userID h key { db with
      users := db.users.assign id (.setStatus status now) (User.setStatus_id status now)
        (User.setStatus_email status now) } =
      keyAdmits userID h key db := by
  unfold keyAdmits AuthDB.lookup
  cases db.apiKeys.findBy (keyHashOf key) with
  | none => rfl
  | some row =>
      simp only [Option.bind_some, IndexedTable.find_assign, Option.map_map, Option.any_map]
      congr 1
      funext u
      simp only [Function.comp_def]
      split <;> rfl

end Bos3000.Auth
