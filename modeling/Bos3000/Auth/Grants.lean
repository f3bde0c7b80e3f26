import Bos3000.Auth.Whitelist
import Bos3000.Lib.Machine
import Bos3000.Listing

-- The service of API keys as a whole: keys are issued, reset and revoked, their
-- whitelists are edited and requests come in with them. What was answered is kept as
-- acts, and what the acts come to as grants.
namespace Bos3000.Auth

structure APIKeyInfo where
  id : Int64
  keyPrefix : String
  status : String
  createdAt : Time
  lastUsedAt : Option Time
  deriving DecidableEq, Repr

def KeyStatus.text : KeyStatus → String
  | .active => "active"
  | .revoked => "revoked"

-- The columns created_at and last_used_at of api_keys, by the ids of the rows.
structure KeyTimes where
  created : Int64 → Time
  lastUsed : Int64 → Option Time

def KeyTimes.insert (times : KeyTimes) (id : Int64) (now : Time) : KeyTimes where
  created := fun other => if other = id then now else times.created other
  lastUsed := fun other => if other = id then none else times.lastUsed other

-- UPDATE api_keys SET last_used_at = NOW() WHERE key_hash = ...
def KeyTimes.stamp (times : KeyTimes) (apiKeys : APIKeys) (keyHash : String) (now : Time) : KeyTimes :=
  { times with
    lastUsed := fun id =>
      if (apiKeys.find id).any (·.keyHash = keyHash) then some now else times.lastUsed id }

def APIKey.info (times : KeyTimes) (row : APIKey) : APIKeyInfo :=
  ⟨row.id, row.keyPrefix, row.status.text, times.created row.id, times.lastUsed row.id⟩

-- ORDER BY created_at DESC. The keys are those received: rows.Err() is not read.
def listAPIKeys (newestFirst : List APIKey → List APIKey) (times : KeyTimes) (caller : Principal)
    (fault : Option PageFault) (db : AuthDB) : Except APIError (List APIKeyInfo) :=
  match fault with
  | some (.refused _) => .error ⟨.Internal, "failed to list API keys"⟩
  | fault =>
      let listed := newestFirst (db.apiKeys.rows.filter fun row => row.userID = caller.data.userID)
      .ok ((received fault listed).map (APIKey.info times))

def listIPWhitelist (caller : Principal) (id : Int64) (answers : KeyAnswers) (db : AuthDB) :
    Except APIError IPListResponse :=
  match verifyKeyOwnership caller id (db.seen answers.owner) with
  | .error e => .error e
  | .ok _ =>
      match (db.seen answers.exec).bind fun db => db.apiKeys.find id with
      | none => .error ⟨.NotFound, "API key not found"⟩
      | some row => .ok ⟨row.ipWhitelist⟩

-- What a caller was answered: a key was issued or reset, a row was revoked or had an
-- address added or removed, a request was let in, and its time was noted.
inductive KeyOp
  | issue (id : Int64) (key : String) (now : Time)
  | reissue (id : Int64) (key : String)
  | revoke (id : Int64)
  | allow (id : Int64) (ip : String)
  | disallow (id : Int64) (ip : String)
  | accept (h : Headers) (key : String)
  | stamp (key : String) (now : Time)
  deriving DecidableEq

structure KeyAct where
  caller : Principal
  op : KeyOp
  deriving DecidableEq

-- What has become of a key that was issued.
structure Grant where
  id : Int64
  owner : UserID
  key : String
  revoked : Bool
  ips : List String
  created : Time
  lastUsed : Option Time
  deriving DecidableEq

def changeGrant (id : Int64) (f : Grant → Grant) (gs : List Grant) : List Grant :=
  gs.map fun g => if g.id = id then f g else g

def KeyAct.apply (gs : List Grant) (a : KeyAct) : List Grant :=
  match a.op with
  | .issue id key now => gs ++ [⟨id, a.caller.data.userID, key, false, [], now, none⟩]
  | .reissue id key => changeGrant id (fun g => { g with key }) gs
  | .revoke id => changeGrant id (fun g => { g with revoked := true }) gs
  | .allow id ip => changeGrant id (fun g => { g with ips := g.ips ++ [ip] }) gs
  | .disallow id ip => changeGrant id (fun g => { g with ips := g.ips.filter (· ≠ ip) }) gs
  | .accept _ _ => gs
  | .stamp key now => gs.map fun g => if keyHashOf g.key = keyHashOf key then { g with lastUsed := some now } else g

def grants (acts : List KeyAct) : List Grant := acts.foldl KeyAct.apply []

theorem grants_concat (acts : List KeyAct) (a : KeyAct) : grants (acts ++ [a]) = a.apply (grants acts) := by
  simp [grants]

-- A whitelist admits any client where it is empty.
def Grant.Admits (g : Grant) (h : Headers) : Prop := g.ips = [] ∨ checkIPWhitelist g.ips h = .ok ()

-- Who may do what: a key is changed by its owner or an administrator, and a request
-- is let in with a key that is not revoked, from where it may be used.
def KeyAct.Permitted (a : KeyAct) (before : List KeyAct) : Prop :=
  match a.op with
  | .issue _ _ _ => True
  | .reissue id _ | .revoke id | .allow id _ | .disallow id _ =>
      a.caller.data.role = "admin" ∨ ∃ g ∈ grants before, g.id = id ∧ toString g.owner = a.caller.uid
  | .accept h key => ∃ g ∈ grants before, keyHashOf g.key = keyHashOf key ∧ g.revoked = false ∧ g.Admits h ∧
      a.caller.data.userID = g.owner
  | .stamp key _ => ∃ h, ⟨a.caller, .accept h key⟩ ∈ before

-- The service, with the requests that were let in and whose time is to be noted.
structure KeyService where
  db : AuthDB
  times : KeyTimes
  accepted : List (Principal × String)
  acts : List KeyAct

inductive KeyServiceLabel
  | create (caller : Principal) (raw : Option RawKey) (answer : Option Int64) (now : Time)
  | reset (caller : Principal) (id : Int64) (raw : Option RawKey) (answers : KeyAnswers)
  | revoke (caller : Principal) (id : Int64) (answers : KeyAnswers)
  | addIP (caller : Principal) (id : Int64) (ip : String) (answers : KeyAnswers)
  | removeIP (caller : Principal) (id : Int64) (ip : String) (answers : KeyAnswers)
  | use (h : Headers) (key : String)
  | stamp (caller : Principal) (key : String) (now : Time)

def KeyService.act (s : KeyService) (caller : Principal) (op : KeyOp) : List KeyAct := s.acts ++ [⟨caller, op⟩]

def KeyService.step (s : KeyService) : KeyServiceLabel → Option KeyService
  | .create caller raw answer now =>
      match createAPIKey caller raw answer s.db with
      | (.error _, db) => some { s with db }
      | (.ok r, db) =>
          some { s with db, times := s.times.insert r.id now, acts := s.act caller (.issue r.id r.key now) }
  | .reset caller id raw answers =>
      match resetAPIKey caller id raw answers s.db with
      | (.error _, db) => some { s with db }
      | (.ok r, db) => some { s with db, acts := s.act caller (.reissue r.id r.key) }
  | .revoke caller id answers =>
      match revokeAPIKey caller id answers s.db with
      | (.error _, db) => some { s with db }
      | (.ok _, db) => some { s with db, acts := s.act caller (.revoke id) }
  | .addIP caller id ip answers =>
      match addIPWhitelist caller id ip answers s.db with
      | (.error _, db) => some { s with db }
      | (.ok _, db) => some { s with db, acts := s.act caller (.allow id ip) }
  | .removeIP caller id ip answers =>
      match removeIPWhitelist caller id ip answers s.db with
      | (.error _, db) => some { s with db }
      | (.ok _, db) => some { s with db, acts := s.act caller (.disallow id ip) }
  | .use h key =>
      match validateAPIKey h key (some s.db) with
      | .error _ => some s
      | .ok principal =>
          some { s with accepted := s.accepted ++ [(principal, key)], acts := s.act principal (.accept h key) }
  | .stamp caller key now =>
      if (caller, key) ∈ s.accepted then
        some { s with
          times := s.times.stamp s.db.apiKeys (keyHashOf key) now
          accepted := s.accepted.erase (caller, key)
          acts := s.act caller (.stamp key now) }
      else none

-- Runs over any users, from an empty table of keys.
def KeyService.run (users : Users) (labels : List KeyServiceLabel) : Option KeyService :=
  Machine.run KeyService.step ⟨⟨users, IndexedTable.empty⟩, ⟨fun _ => 0, fun _ => none⟩, [], []⟩ labels

end Bos3000.Auth
