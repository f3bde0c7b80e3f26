import Bos3000.Auth.Handler
import Bos3000.Callback.HubRouting

-- The live feed from the login to the events: clients connect with the tokens that
-- the auth service hands out, and the hub sends to them.
namespace Bos3000.Callback

open Auth (AccountLabel Accounts AuthDB Claims ClaimsOf HTTPError LoggedIn MapClaims User Verifies)

-- Support both "user_id" and "sub" claim formats, and both "is_admin" bool and
-- "role" string formats. The error is only logged.
def wsClaims (claims : MapClaims) : Option (String × Bool) :=
  let uid := (claims.text "user_id").getD ""
  let uid := if uid = "" then (claims.text "sub").getD "" else uid
  if uid = "" then none
  else
    let isAdmin :=
      match claims "is_admin" with
      | some (.bool admin) => admin
      | _ => claims.text "role" = some "admin"
    some (uid, isAdmin)

section Feed

variable (compareHashAndPassword : String → String → Bool) (parseJWT : Time → String → Option MapClaims)

def validateWSToken (now : Time) (token : String) : Option (String × Bool) := (parseJWT now token).bind wsClaims

-- The client that is to be registered, unless the connection cannot be upgraded.
def webSocketHandler (now : Time) (token : String) (upgrades : Bool) (conn : Nat) :
    Except HTTPError (Option Client) :=
  if token = "" then .error ⟨401, "missing token"⟩
  else
    match validateWSToken parseJWT now token with
    | none => .error ⟨401, "unauthorized"⟩
    | some (userID, isAdmin) => .ok (if upgrades then some ⟨conn, userID, isAdmin⟩ else none)

-- The accounts, the hub, and the clients so far with the tokens they presented.
structure Feed where
  accounts : Accounts
  hub : Hub
  clients : List (Client × String)

inductive Feed.Label
  | account (l : AccountLabel)
  | connect (now : Time) (token : String) (upgrades : Bool)
  | hub (l : Hub.Label)
  deriving DecidableEq

-- The handler waits until the hub takes its client. Nothing else registers one.
def Feed.step (s : Feed) : Feed.Label → Option Feed
  | .account l => (s.accounts.step compareHashAndPassword l).map fun accounts => { s with accounts }
  | .connect now token upgrades =>
      match webSocketHandler parseJWT now token upgrades s.clients.length with
      | .ok (some client) =>
          (s.hub.step (.register client)).map fun hub =>
            { s with hub, clients := s.clients ++ [(client, token)] }
      | _ => some s
  | .hub (.register _) => none
  | .hub l => (s.hub.step l).map fun hub => { s with hub }

def Feed.run (db : AuthDB) (labels : List Feed.Label) : Option Feed :=
  Machine.run (Feed.step compareHashAndPassword parseJWT) ⟨⟨db, [], []⟩, .new, []⟩ labels

end Feed

def Feed.accountLabels (labels : List Feed.Label) : List AccountLabel :=
  labels.filterMap fun
    | .account l => some l
    | _ => none

section Runs

variable {compareHashAndPassword : String → String → Bool} {parseJWT : Time → String → Option MapClaims}
  {db : AuthDB} {labels : List Feed.Label} {s : Feed}

-- The steps of the auth service are a run of it.
theorem accounts_run (hrun : Feed.run compareHashAndPassword parseJWT db labels = some s) :
    Accounts.run compareHashAndPassword db (Feed.accountLabels labels) = some s.accounts := by
  refine Machine.run_induction (motive := fun labels s =>
    Accounts.run compareHashAndPassword db (Feed.accountLabels labels) = some s.accounts) rfl ?_ hrun
  intro labels l s t _ ih hstep
  cases l with
  | account l =>
      obtain ⟨accounts, haccounts, rfl⟩ := Option.map_eq_some_iff.mp hstep
      have hlabels : Feed.accountLabels (labels ++ [.account l]) = Feed.accountLabels labels ++ [l] := by
        simp [Feed.accountLabels]
      rw [hlabels]
      exact (Machine.run_concat _ _ _ _).mpr ⟨s.accounts, ih, haccounts⟩
  | connect now token upgrades =>
      have hlabels : Feed.accountLabels (labels ++ [.connect now token upgrades]) = Feed.accountLabels labels := by
        simp [Feed.accountLabels]
      rw [hlabels]
      simp only [Feed.step] at hstep
      split at hstep
      · obtain ⟨_, _, rfl⟩ := Option.map_eq_some_iff.mp hstep
        exact ih
      · cases hstep
        exact ih
  | hub l =>
      have hlabels : Feed.accountLabels (labels ++ [.hub l]) = Feed.accountLabels labels := by
        simp [Feed.accountLabels]
      rw [hlabels]
      cases l with
      | register => cases hstep
      | _ =>
          obtain ⟨_, _, rfl⟩ := Option.map_eq_some_iff.mp hstep
          exact ih

-- The hub takes each client once.
structure HubRun (s : Feed) (labels : List Hub.Label) : Prop where
  run : Hub.run labels = some s.hub
  once : ∀ client, labels.count (.register client) ≤ 1
  known : ∀ client, .register client ∈ labels → client.conn < s.clients.length

-- A client is who its token names.
def Presented (parseJWT : Time → String → Option MapClaims) (s : Feed) : Prop :=
  ∀ client token, (client, token) ∈ s.clients →
    ∃ now, validateWSToken parseJWT now token = some (client.userID, client.isAdmin)

theorem HubRun.step {s t : Feed} {labels : List Hub.Label} (h : HubRun s labels) {l : Hub.Label}
    (hhub : s.hub.step l = some t.hub) (hclients : t.clients = s.clients) (hl : ∀ client, l ≠ .register client) :
    HubRun t (labels ++ [l]) where
  run := (Machine.run_concat _ _ _ _).mpr ⟨s.hub, h.run, hhub⟩
  once client := by
    have hzero : [l].count (.register client) = 0 :=
      List.count_eq_zero.mpr fun hmem => hl client (List.mem_singleton.mp hmem).symm
    rw [List.count_append, hzero]
    exact h.once client
  known client hmem := by
    rw [hclients]
    rcases List.mem_append.mp hmem with hold | hnew
    · exact h.known client hold
    · exact absurd (List.mem_singleton.mp hnew).symm (hl client)

theorem HubRun.register {s : Feed} {labels : List Hub.Label} (h : HubRun s labels) {client : Client} {hub : Hub}
    (hhub : s.hub.step (.register client) = some hub) (hconn : client.conn = s.clients.length) (token : String) :
    HubRun { s with hub, clients := s.clients ++ [(client, token)] } (labels ++ [.register client]) where
  run := (Machine.run_concat _ _ _ _).mpr ⟨s.hub, h.run, hhub⟩
  once other := by
    rw [List.count_append]
    have hold := h.once other
    by_cases hother : other = client
    · subst hother
      have hnone : labels.count (.register other) = 0 := by
        refine List.count_eq_zero.mpr fun hmem => ?_
        have hlt := h.known other hmem
        omega
      rw [hnone, List.count_singleton_self]
    · have hzero : [Hub.Label.register client].count (.register other) = 0 :=
        List.count_eq_zero.mpr fun hmem => hother (Hub.Label.register.inj (List.mem_singleton.mp hmem))
      omega
  known other hmem := by
    simp only [List.length_append, List.length_singleton]
    rcases List.mem_append.mp hmem with hold | hnew
    · have hlt := h.known other hold
      omega
    · cases List.mem_singleton.mp hnew
      omega

theorem webSocketHandler_client {now : Time} {token : String} {upgrades : Bool} {conn : Nat} {client : Client}
    (h : webSocketHandler parseJWT now token upgrades conn = .ok (some client)) :
    client.conn = conn ∧ validateWSToken parseJWT now token = some (client.userID, client.isAdmin) := by
  unfold webSocketHandler at h
  split at h
  · cases h
  · split at h
    · cases h
    · rename_i userID isAdmin hvalid
      cases upgrades <;> cases h
      exact ⟨rfl, hvalid⟩

theorem feed_run (hrun : Feed.run compareHashAndPassword parseJWT db labels = some s) :
    (∃ hubLabels, HubRun s hubLabels) ∧ Presented parseJWT s := by
  refine Machine.invariant (P := fun s => (∃ hubLabels, HubRun s hubLabels) ∧ Presented parseJWT s) ?_ ?_ hrun
  · rintro s l t ⟨⟨hubLabels, h⟩, hpresented⟩ hstep
    cases l with
    | account l =>
        obtain ⟨accounts, _, rfl⟩ := Option.map_eq_some_iff.mp hstep
        exact ⟨⟨hubLabels, h.run, h.once, h.known⟩, hpresented⟩
    | connect now token upgrades =>
        simp only [Feed.step] at hstep
        split at hstep
        · rename_i client hhandler
          obtain ⟨hub, hhub, rfl⟩ := Option.map_eq_some_iff.mp hstep
          obtain ⟨hconn, hvalid⟩ := webSocketHandler_client hhandler
          refine ⟨⟨_, h.register hhub hconn token⟩, fun other presented hmem => ?_⟩
          rcases List.mem_append.mp hmem with hold | hnew
          · exact hpresented other presented hold
          · cases List.mem_singleton.mp hnew
            exact ⟨now, hvalid⟩
        · cases hstep
          exact ⟨⟨hubLabels, h⟩, hpresented⟩
    | hub l =>
        cases l with
        | register => cases hstep
        | _ =>
            obtain ⟨_, hhub, rfl⟩ := Option.map_eq_some_iff.mp hstep
            exact ⟨⟨_, h.step hhub rfl (fun _ => Hub.Label.noConfusion)⟩, hpresented⟩
  · refine ⟨⟨[], rfl, fun _ => Nat.zero_le 1, fun _ hmem => absurd hmem List.not_mem_nil⟩, ?_⟩
    intro client token hmem
    cases hmem

theorem wsClaims_eq {u : User} {login : Time} {claims : Claims} (hclaims : ClaimsOf u login claims) :
    wsClaims claims.mapClaims = some (toString u.id, decide (u.role = .admin)) := by
  have hne : toString u.id ≠ "" := by
    intro hempty
    have hback := Auth.parseUserID_toString u.id
    rw [Auth.toString_eq_decimal] at hempty
    obtain ⟨c, rest, hcons⟩ := JsonText.decimal_cons u.id.toInt
    rw [hcons] at hempty
    simp at hempty
  have hrole : (u.role.text = "admin") = (u.role = .admin) := by
    cases u.role <;> simp [Auth.Role.text]
  simp [wsClaims, MapClaims.text, Claims.mapClaims, hclaims.1, hclaims.2.1, hne, hrole]

-- A client of the live feed receives events for the user whose login its token
-- comes from, or that login was an admin's.
theorem feed_private (hrun : Feed.run compareHashAndPassword parseJWT db labels = some s) {token : String}
    {claims : Claims} (htoken : (token, claims) ∈ s.accounts.tokens) (hjwt : Verifies parseJWT token claims)
    {client : Client} (hclient : (client, token) ∈ s.clients) :
    ∃ u login, LoggedIn compareHashAndPassword db (Feed.accountLabels labels) u login token ∧
      client.userID = toString u.id ∧
      ∀ event ∈ (s.hub.send client).received, u.role = .admin ∨ event.userID = toString u.id := by
  obtain ⟨u, login, hlogin, hclaims⟩ := Auth.tokens_run (accounts_run hrun) token claims htoken
  obtain ⟨⟨hubLabels, hhub⟩, hpresented⟩ := feed_run hrun
  obtain ⟨now, hvalid⟩ := hpresented client token hclient
  have hsame : client.userID = toString u.id ∧ client.isAdmin = decide (u.role = .admin) := by
    rw [validateWSToken, Auth.parseJWT_claims hjwt hclaims] at hvalid
    split at hvalid
    · simp only [Option.bind_some, wsClaims_eq hclaims, Option.some.injEq, Prod.mk.injEq] at hvalid
      exact ⟨hvalid.1.symm, hvalid.2.symm⟩
    · cases hvalid
  refine ⟨u, login, hlogin, hsame.1, fun event hevent => ?_⟩
  have hinv := Hub.inv_run hhub.run hhub.once
  have hmay := Hub.mayReceive_of_offered ((hinv.received client).subset hevent)
  simpa [Hub.mayReceive, hsame.1, hsame.2] using hmay

-- A client logs in and connects, and an event of its call is broadcast.
def watching : List Feed.Label :=
  [.account (.clientLogin ⟨"dana@example.com", "secret"⟩ ⟨true, true, 0, 0⟩ "t"), .connect 5 "t" true,
   .hub (.broadcast ⟨"c1", "4", "bridged", "1111", "2222", 10, 0⟩ true), .hub .next,
   .hub (.send ⟨0, "4", false⟩)]

theorem feed_private_watching :
    ∃ s u login, Feed.run (fun hash password => hash = password) Auth.acceptsDana Auth.danaAndErin watching =
      some s ∧
      (s.hub.send ⟨0, "4", false⟩).received.length = 1 ∧
      LoggedIn (fun hash password => hash = password) Auth.danaAndErin (Feed.accountLabels watching) u login "t" ∧
      "4" = toString u.id ∧
      ∀ event ∈ (s.hub.send ⟨0, "4", false⟩).received, u.role = .admin ∨ event.userID = toString u.id := by
  have hrun : ∃ s, Feed.run (fun hash password => hash = password) Auth.acceptsDana Auth.danaAndErin watching =
      some s ∧
      s.accounts.tokens = [("t", Auth.danaClaims)] ∧ s.clients = [(⟨0, "4", false⟩, "t")] ∧
      (s.hub.send ⟨0, "4", false⟩).received.length = 1 := ⟨_, rfl, rfl, rfl, rfl⟩
  obtain ⟨s, hrun, htokens, hclients, hreceived⟩ := hrun
  have htoken : ("t", Auth.danaClaims) ∈ s.accounts.tokens := by simp [htokens]
  have hclient : (⟨0, "4", false⟩, "t") ∈ s.clients := by simp [hclients]
  obtain ⟨u, login, hall⟩ := feed_private hrun htoken Auth.verifies_acceptsDana hclient
  exact ⟨s, u, login, hrun, hreceived, hall⟩

end Runs

end Bos3000.Callback
