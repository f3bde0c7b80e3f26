import Bos3000.Auth.Passwords
import Bos3000.Webhook.Event

-- Who a request is from: by a session cookie, a bearer token or an API key.
namespace Bos3000.Auth

open JsonText (decimal isDigit_toDigits)

-- A value of jwt.MapClaims, as encoding/json decodes it.
inductive ClaimValue
  | string (s : String)
  | number (n : Int)
  | bool (b : Bool)
  | other
  deriving DecidableEq, Repr

abbrev MapClaims := String → Option ClaimValue

-- The claims that a token of createJWT carries.
def Claims.mapClaims (c : Claims) : MapClaims := fun key =>
  if key = "sub" then some (.string (toString c.sub))
  else if key = "role" then some (.string c.role)
  else if key = "username" then some (.string c.username)
  else if key = "exp" then some (.number c.exp)
  else if key = "iat" then some (.number c.iat)
  else none

def MapClaims.text (claims : MapClaims) (key : String) : Option String :=
  match claims key with
  | some (.string s) => some s
  | _ => none

-- SkipSpace of fmt.Sscanf, which stops at a newline.
def skipSpace : List Char → Option (List Char)
  | [] => some []
  | c :: rest => if c = '\n' then none else if isSpace c then skipSpace rest else some (c :: rest)

-- The sign and the digits that %d takes; what follows them is left.
def scanInt (cs : List Char) : List Char :=
  match cs with
  | '-' :: rest => '-' :: rest.takeWhile Char.isDigit
  | '+' :: rest => '+' :: rest.takeWhile Char.isDigit
  | cs => cs.takeWhile Char.isDigit

-- The id stays 0 where the scan fails.
def parseUserID (sub : String) : UserID :=
  match (skipSpace sub.toList).bind fun cs => parseInt (String.ofList (scanInt cs)) with
  | some n => Int64.ofInt n
  | none => 0

structure AuthParams where
  sessionCookie : String
  authorization : String
  apiKey : String
  deriving DecidableEq, Repr

section Tokens

-- jwt.Parse with the secret, at a time: the claims of a token that is valid.
variable (parseJWT : Time → String → Option MapClaims)

def principalOf (claims : MapClaims) : Principal :=
  let sub := (claims.text "sub").getD ""
  ⟨sub, ⟨parseUserID sub, (claims.text "role").getD ""⟩, (claims.text "username").getD ""⟩

def validateSessionCookie (now : Time) (cookieValue : String) : Except APIError Principal :=
  match parseJWT now cookieValue with
  | none => .error ⟨.Unauthenticated, "invalid session cookie"⟩
  | some claims =>
      if (claims.text "role").getD "" ≠ "admin" then
        .error ⟨.PermissionDenied, "session cookies are only valid for admin users"⟩
      else .ok (principalOf claims)

def validateBearerToken (now : Time) (token : String) : Except APIError Principal :=
  match parseJWT now token with
  | none => .error ⟨.Unauthenticated, "invalid bearer token"⟩
  | some claims => .ok (principalOf claims)

def bearerPrefix : List Char := "Bearer ".toList

-- Dispatch order: session cookie -> Bearer token -> API key
def authHandler (now : Time) (p : AuthParams) (h : Headers) (query : Option AuthDB) : Except APIError Principal :=
  if p.sessionCookie ≠ "" then validateSessionCookie parseJWT now p.sessionCookie
  else if bearerPrefix <+: p.authorization.toList then
    validateBearerToken parseJWT now (String.ofList (p.authorization.toList.drop bearerPrefix.length))
  else if p.apiKey ≠ "" then validateAPIKey h p.apiKey query
  else .error ⟨.Unauthenticated, "no authentication credentials provided"⟩

end Tokens

theorem toString_eq_decimal (n : Int64) : toString n = String.ofList (decimal n.toInt) := by
  change toString n.toInt = _
  unfold decimal
  cases hn : n.toInt with
  | ofNat m =>
      simp
      rfl
  | negSucc m =>
      simp [Int.toString_eq_repr, Int.repr]
      rfl

theorem isSpace_digit {c : Char} (h : c.isDigit = true) : isSpace c = false := by
  simp only [Char.isDigit, Bool.and_eq_true, decide_eq_true_eq] at h
  obtain ⟨hlow, hhigh⟩ := h
  have hrange : ¬ '\u2000' ≤ c := by
    intro hle
    exact absurd (UInt32.le_trans hle hhigh) (by decide)
  simp only [isSpace, hrange, false_and, or_false, decide_eq_false_iff_not, List.mem_cons, List.not_mem_nil]
  rintro h
  rcases h with rfl | rfl | rfl | rfl | rfl | rfl | rfl | rfl | rfl | rfl | rfl | rfl | rfl | rfl <;>
    first | exact absurd hlow (by decide) | exact absurd hhigh (by decide)

theorem skipSpace_cons {c : Char} (rest : List Char)
    (h : isSpace c = false) : skipSpace (c :: rest) = some (c :: rest) := by
  have hnewline : c ≠ '\n' := by
    rintro rfl
    cases h
  simp [skipSpace, hnewline, h]

theorem scanInt_decimal (n : Int) : scanInt (decimal n) = decimal n := by
  have htake : (Nat.toDigits 10 n.natAbs).takeWhile Char.isDigit = Nat.toDigits 10 n.natAbs :=
    List.takeWhile_eq_self_iff.mpr (isDigit_toDigits _)
  unfold decimal
  split
  · simp [scanInt, htake]
  · unfold scanInt
    split
    · rename_i rest heq
      cases isDigit_toDigits n.natAbs '-' (by simp [heq])
    · rename_i rest heq
      cases isDigit_toDigits n.natAbs '+' (by simp [heq])
    · exact htake

theorem skipSpace_decimal (n : Int) : skipSpace (decimal n) = some (decimal n) := by
  unfold decimal
  split
  · exact skipSpace_cons _ (by decide)
  · cases heq : Nat.toDigits 10 n.natAbs with
    | nil => rfl
    | cons c rest => exact skipSpace_cons _ (isSpace_digit (isDigit_toDigits n.natAbs c (by simp [heq])))

-- The id that createJWT writes is read back.
theorem parseUserID_toString (n : UserID) : parseUserID (toString n) = n := by
  rw [parseUserID, toString_eq_decimal, String.toList_ofList, skipSpace_decimal, Option.bind_some, scanInt_decimal,
    Webhook.parseInt_decimal]
  exact Int64.ofInt_toInt n

section Tokens

variable {compareHashAndPassword : String → String → Bool} {db : AuthDB} {labels : List AccountLabel}

-- A token was handed out for a user at a time of the run: by the endpoint for its
-- role, to a request with its email and a password that matched its hash.
def LoggedIn (compareHashAndPassword : String → String → Bool) (db : AuthDB) (labels : List AccountLabel) (u : User)
    (now : Time) (token : String) : Prop :=
  ∃ first s r a, Accounts.run compareHashAndPassword db first = some s ∧ a.now = now ∧
    s.db.users.findBy r.email = some u ∧ compareHashAndPassword u.passwordHash r.password = true ∧
    (u.role = .admin ∧ first ++ [.adminLogin (some r) a token] <+: labels ∨
      u.role = .client ∧ first ++ [.clientLogin r a token] <+: labels)

-- The claims that name a user and its role.
def ClaimsOf (u : User) (now : Time) (claims : Claims) : Prop :=
  claims.sub = u.id ∧ claims.role = u.role.text ∧ claims.username = u.username ∧
    claims.exp = unixSeconds (now + tokenLifetime)

theorem LoggedIn.later {u : User} {now : Time} {token : String}
    (h : LoggedIn compareHashAndPassword db labels u now token) (l : AccountLabel) :
    LoggedIn compareHashAndPassword db (labels ++ [l]) u now token := by
  obtain ⟨first, s, r, a, hrun, hnow, hfind, hmatches, hlogin⟩ := h
  refine ⟨first, s, r, a, hrun, hnow, hfind, hmatches, ?_⟩
  obtain ⟨hrole, hbegins⟩ | ⟨hrole, hbegins⟩ := hlogin
  · exact .inl ⟨hrole, hbegins.trans (List.prefix_append labels [l])⟩
  · exact .inr ⟨hrole, hbegins.trans (List.prefix_append labels [l])⟩

theorem createJWT_claims {user : UserRecord} {a : LoginAnswers} {claims : Claims} {expiresAt : Time}
    (h : createJWT user a = some (claims, expiresAt)) : claims.sub = user.id ∧ claims.role = user.role.text ∧
      claims.username = user.username ∧ claims.exp = unixSeconds (a.now + tokenLifetime) := by
  unfold createJWT at h
  split at h <;> cases h
  exact ⟨rfl, rfl, rfl, rfl⟩

theorem adminLogin_claims {body : Option LoginRequest} {a : LoginAnswers} {response : AdminLoginResponse}
    (h : adminLogin compareHashAndPassword body a db = .ok response) :
    ∃ r u, body = some r ∧ db.users.findBy r.email = some u ∧ u.role = .admin ∧
      compareHashAndPassword u.passwordHash r.password = true ∧ ClaimsOf u a.now response.session := by
  revert h
  fun_cases adminLogin compareHashAndPassword body a db
  case case4 r user huser claims expiresAt hjwt =>
      intro h
      cases h
      obtain ⟨_, u, hfind, hrole, hmatches, rfl⟩ := authenticateUser_eq_ok.mp huser
      exact ⟨r, u, rfl, hfind, hrole, hmatches, createJWT_claims hjwt⟩
  all_goals
    intro h
    cases h

theorem clientLogin_claims {r : LoginRequest} {a : LoginAnswers} {response : ClientLoginResponse}
    (h : clientLogin compareHashAndPassword r a db = .ok response) :
    ∃ u, db.users.findBy r.email = some u ∧ u.role = .client ∧
      compareHashAndPassword u.passwordHash r.password = true ∧ ClaimsOf u a.now response.token := by
  revert h
  fun_cases clientLogin compareHashAndPassword r a db
  case case3 user huser claims expiresAt hjwt =>
      intro h
      cases h
      obtain ⟨_, u, hfind, hrole, hmatches, rfl⟩ := authenticateUser_eq_ok.mp huser
      exact ⟨u, hfind, hrole, hmatches, createJWT_claims hjwt⟩
  all_goals
    intro h
    cases h

-- Only a login adds a token.
theorem step_tokens {s t : Accounts} {l : AccountLabel} (hstep : s.step compareHashAndPassword l = some t) :
    t.tokens = s.tokens ∨ ∃ token claims r u a, t.tokens = s.tokens ++ [(token, claims)] ∧
      s.db.users.findBy r.email = some u ∧ compareHashAndPassword u.passwordHash r.password = true ∧
      ClaimsOf u a.now claims ∧
      (u.role = .admin ∧ l = .adminLogin (some r) a token ∨ u.role = .client ∧ l = .clientLogin r a token) := by
  cases l with
  | adminLogin body a token =>
      simp only [Accounts.step] at hstep
      split at hstep
      · cases hstep
        exact .inl rfl
      · rename_i response hlogin
        cases hstep
        obtain ⟨r, u, rfl, hfind, hrole, hmatches, hclaims⟩ := adminLogin_claims hlogin
        exact .inr ⟨token, _, r, u, a, rfl, hfind, hmatches, hclaims, .inl ⟨hrole, rfl⟩⟩
  | clientLogin r a token =>
      simp only [Accounts.step] at hstep
      split at hstep
      · cases hstep
        exact .inl rfl
      · rename_i response hlogin
        cases hstep
        obtain ⟨u, hfind, hrole, hmatches, hclaims⟩ := clientLogin_claims hlogin
        exact .inr ⟨token, _, r, u, a, rfl, hfind, hmatches, hclaims, .inr ⟨hrole, rfl⟩⟩
  | move i answer =>
      simp only [Accounts.step] at hstep
      split at hstep
      · cases hstep
      · obtain ⟨_, _, rfl⟩ := Option.map_eq_some_iff.mp hstep
        exact .inl rfl
  | createUser | freezeUser | unfreezeUser | updateProfile | resetAdminPassword | changePassword =>
      cases hstep
      exact .inl rfl

theorem tokens_run {s : Accounts} (hrun : Accounts.run compareHashAndPassword db labels = some s) :
    ∀ token claims, (token, claims) ∈ s.tokens →
      ∃ u now, LoggedIn compareHashAndPassword db labels u now token ∧ ClaimsOf u now claims := by
  refine Machine.run_induction (motive := fun labels s => ∀ token claims, (token, claims) ∈ s.tokens →
      ∃ u now, LoggedIn compareHashAndPassword db labels u now token ∧ ClaimsOf u now claims) ?_ ?_ hrun
  · intro token claims htoken
    cases htoken
  · intro labels l s t hbefore ih hstep token claims htoken
    have hold : (token, claims) ∈ s.tokens →
        ∃ u now, LoggedIn compareHashAndPassword db (labels ++ [l]) u now token ∧ ClaimsOf u now claims := by
      intro hmem
      obtain ⟨u, now, hlogin, hclaims⟩ := ih token claims hmem
      exact ⟨u, now, hlogin.later l, hclaims⟩
    obtain hsame | ⟨new, given, r, u, a, htokens, hfind, hmatches, hclaims, hlogin⟩ := step_tokens hstep
    · exact hold (hsame ▸ htoken)
    · rw [htokens] at htoken
      rcases List.mem_append.mp htoken with hmem | hmem
      · exact hold hmem
      · cases List.mem_singleton.mp hmem
        refine ⟨u, a.now, ⟨labels, s, r, a, hbefore, rfl, hfind, hmatches, ?_⟩, hclaims⟩
        obtain ⟨hrole, rfl⟩ | ⟨hrole, rfl⟩ := hlogin
        · exact .inl ⟨hrole, List.prefix_refl _⟩
        · exact .inr ⟨hrole, List.prefix_refl _⟩

-- jwt.Parse accepts a token that was signed with the secret until it expires.
def Verifies (parseJWT : Time → String → Option MapClaims) (token : String) (claims : Claims) : Prop :=
  ∀ now, parseJWT now token = if now < claims.exp * second.toInt then some claims.mapClaims else none

def User.principal (u : User) : Principal := ⟨toString u.id, ⟨u.id, u.role.text⟩, u.username⟩

theorem principalOf_mapClaims {u : User} {now : Time} {claims : Claims} (h : ClaimsOf u now claims) :
    principalOf claims.mapClaims = u.principal := by
  obtain ⟨hsub, hrole, hname, _⟩ := h
  simp [principalOf, MapClaims.text, Claims.mapClaims, hsub, hrole, hname, parseUserID_toString, User.principal]

theorem drop_bearerPrefix (token : String) :
    bearerPrefix <+: ("Bearer " ++ token).toList ∧
      String.ofList (("Bearer " ++ token).toList.drop bearerPrefix.length) = token := by
  have htext : ("Bearer " ++ token).toList = bearerPrefix ++ token.toList := by
    rw [String.toList_append]
    rfl
  rw [htext, List.drop_left]
  exact ⟨List.prefix_append _ _, String.ofList_toList⟩

-- Whether a token of a login at a time is still accepted.
def unexpired (login now : Time) : Bool := now < unixSeconds (login + tokenLifetime) * second.toInt

section Authenticates

variable {parseJWT : Time → String → Option MapClaims} {token : String} {claims : Claims} {u : User} {login : Time}

theorem parseJWT_claims (hjwt : Verifies parseJWT token claims) (hclaims : ClaimsOf u login claims) (now : Time) :
    parseJWT now token = if unexpired login now then some claims.mapClaims else none := by
  rw [hjwt now, hclaims.2.2.2]
  simp [unexpired]

theorem validateBearerToken_eq (hjwt : Verifies parseJWT token claims) (hclaims : ClaimsOf u login claims)
    (now : Time) : validateBearerToken parseJWT now token =
      if unexpired login now then .ok u.principal else .error ⟨.Unauthenticated, "invalid bearer token"⟩ := by
  rw [validateBearerToken, parseJWT_claims hjwt hclaims]
  cases unexpired login now with
  | false => rfl
  | true => simp [principalOf_mapClaims hclaims]

theorem role_mapClaims (hclaims : ClaimsOf u login claims) :
    (claims.mapClaims.text "role").getD "" = u.role.text := by
  simp [MapClaims.text, Claims.mapClaims, hclaims.2.1]

theorem validateSessionCookie_eq (hjwt : Verifies parseJWT token claims) (hclaims : ClaimsOf u login claims)
    (now : Time) : validateSessionCookie parseJWT now token =
      if !unexpired login now then .error ⟨.Unauthenticated, "invalid session cookie"⟩
      else if u.role = .admin then .ok u.principal
      else .error ⟨.PermissionDenied, "session cookies are only valid for admin users"⟩ := by
  rw [validateSessionCookie, parseJWT_claims hjwt hclaims]
  cases unexpired login now with
  | false => rfl
  | true =>
      simp only [if_true, role_mapClaims hclaims, principalOf_mapClaims hclaims]
      cases u.role <;> rfl

end Authenticates

-- Whatever becomes of the user, its password and its status: a token that was
-- handed out at a login stands for that user, with the role and the name it had,
-- until the second in which 24 hours have passed; as a cookie an admin's only.
theorem token_authenticates {s : Accounts} (hrun : Accounts.run compareHashAndPassword db labels = some s)
    {token : String} {claims : Claims} (htoken : (token, claims) ∈ s.tokens)
    {parseJWT : Time → String → Option MapClaims} (hjwt : Verifies parseJWT token claims) :
    ∃ u login, LoggedIn compareHashAndPassword db labels u login token ∧ ∀ now apiKey h query,
      authHandler parseJWT now ⟨"", "Bearer " ++ token, apiKey⟩ h query =
        (if unexpired login now then .ok u.principal else .error ⟨.Unauthenticated, "invalid bearer token"⟩) ∧
      ∀ authorization, token ≠ "" → authHandler parseJWT now ⟨token, authorization, apiKey⟩ h query =
        if !unexpired login now then .error ⟨.Unauthenticated, "invalid session cookie"⟩
        else if u.role = .admin then .ok u.principal
        else .error ⟨.PermissionDenied, "session cookies are only valid for admin users"⟩ := by
  obtain ⟨u, login, hlogin, hclaims⟩ := tokens_run hrun token claims htoken
  refine ⟨u, login, hlogin, fun now apiKey h query => ⟨?_, fun authorization hne => ?_⟩⟩
  · obtain ⟨hbegins, hrest⟩ := drop_bearerPrefix token
    have hbearer := validateBearerToken_eq hjwt hclaims now
    unfold authHandler
    rw [if_neg (by simp), if_pos hbegins, hrest]
    exact hbearer
  · unfold authHandler
    rw [if_pos hne]
    exact validateSessionCookie_eq hjwt hclaims now

-- A client logs in, changes its password and is frozen.
def leaving : List AccountLabel :=
  [.clientLogin ⟨"dana@example.com", "secret"⟩ ⟨true, true, 0, 0⟩ "t",
   .changePassword ⟨"4", ⟨4, "client"⟩, "dana"⟩ ⟨"secret", "better secret"⟩,
   .move 0 (.fetched true (some "better secret")), .move 0 (.updated (some 7)),
   .freezeUser (some ⟨5, "admin"⟩) 4 (some 8)]

def danaClaims : Claims := ⟨4, "client", "dana", 86400, 0⟩

def acceptsDana (now : Time) (token : String) : Option MapClaims :=
  if token = "t" ∧ now < 86400 * second.toInt then some danaClaims.mapClaims else none

theorem verifies_acceptsDana : Verifies acceptsDana "t" danaClaims := by
  intro now
  by_cases hnow : now < 86400 * second.toInt
  · rw [acceptsDana, if_pos ⟨rfl, hnow⟩]
    exact (if_pos hnow).symm
  · rw [acceptsDana, if_neg fun h => hnow h.2]
    exact (if_neg hnow).symm

theorem token_authenticates_leaving :
    ∃ s u login, Accounts.run (fun hash password => hash = password) danaAndErin leaving = some s ∧
      LoggedIn (fun hash password => hash = password) danaAndErin leaving u login "t" ∧ ∀ now apiKey h query,
        authHandler acceptsDana now ⟨"", "Bearer " ++ "t", apiKey⟩ h query =
          (if unexpired login now then .ok u.principal else .error ⟨.Unauthenticated, "invalid bearer token"⟩) ∧
        ∀ authorization, "t" ≠ "" → authHandler acceptsDana now ⟨"t", authorization, apiKey⟩ h query =
          if !unexpired login now then .error ⟨.Unauthenticated, "invalid session cookie"⟩
          else if u.role = .admin then .ok u.principal
          else .error ⟨.PermissionDenied, "session cookies are only valid for admin users"⟩ := by
  have hrun : ∃ s, Accounts.run (fun hash password => hash = password) danaAndErin leaving = some s ∧
      s.tokens = [("t", danaClaims)] := ⟨_, rfl, rfl⟩
  obtain ⟨s, hrun, htokens⟩ := hrun
  have htoken : ("t", danaClaims) ∈ s.tokens := by simp [htokens]
  obtain ⟨u, login, hall⟩ := token_authenticates hrun htoken verifies_acceptsDana
  exact ⟨s, u, login, hrun, hall⟩

end Tokens

end Bos3000.Auth
