import Bos3000.Auth.Grants
import Bos3000.Auth.Handler
import Bos3000.Auth.KeyValidity

-- The table of keys holds what the acts come to.
namespace Bos3000.Auth

-- How a grant is stored.
def Grant.row (g : Grant) : APIKey :=
  ⟨g.id, g.owner, String.ofList (g.key.toList.take 12), keyHashOf g.key, if g.revoked then .revoked else .active,
    g.ips⟩

-- What its owner is shown of it.
def Grant.info (g : Grant) : APIKeyInfo :=
  ⟨g.id, String.ofList (g.key.toList.take 12), if g.revoked then "revoked" else "active", g.created, g.lastUsed⟩

structure Refines (s : KeyService) : Prop where
  rows : s.db.apiKeys.rows = (grants s.acts).map Grant.row
  times : ∀ g ∈ grants s.acts, s.times.created g.id = g.created ∧ s.times.lastUsed g.id = g.lastUsed
  owners : ∀ g ∈ grants s.acts, (s.db.users.find g.owner).isSome
  permitted : ∀ before a after, s.acts = before ++ a :: after → a.Permitted before
  accepted : ∀ caller key, (caller, key) ∈ s.accepted → ∃ h, ⟨caller, .accept h key⟩ ∈ s.acts

section Operations

variable {caller : Principal} {id : Int64} {answers : KeyAnswers} {db next : AuthDB}

theorem verifyKeyOwnership_ok {answered : Bool} {u : Unit}
    (h : verifyKeyOwnership caller id (db.seen answered) = .ok u) :
    caller.data.role = "admin" ∨ ∃ row ∈ db.apiKeys.rows, row.id = id ∧ toString row.userID = caller.uid := by
  unfold verifyKeyOwnership at h
  split at h
  · exact .inl ‹_›
  · split at h
    · cases h
    · rename_i row hrow
      split at h
      · cases h
      · rename_i howner
        obtain ⟨seen, hseen, hfind⟩ := Option.bind_eq_some_iff.mp hrow
        cases AuthDB.seen_eq_some hseen
        obtain ⟨hmem, hid⟩ := Table.find_eq_some.mp hfind
        exact .inr ⟨row, hmem, hid, not_not.mp howner⟩

theorem createAPIKey_error {raw : Option RawKey} {answer : Option Int64} {e : APIError}
    (h : createAPIKey caller raw answer db = (.error e, next)) : next = db := by
  obtain ⟨_, hnext⟩ | ⟨_, _, _, hok, _⟩ := createAPIKey_eq h
  · exact hnext
  · cases hok

theorem createAPIKey_ok {raw : Option RawKey} {answer : Option Int64} {r : CreateAPIKeyResponse}
    (h : createAPIKey caller raw answer db = (.ok r, next)) : ∃ raw apiKeys, r.key = RawKey.fullKey raw ∧
      next = { db with apiKeys } ∧ (db.users.find caller.data.userID).isSome ∧
      db.apiKeys.insert ⟨r.id, caller.data.userID, raw.keyPrefix, keyHashOf raw.fullKey, .active, []⟩ =
        some apiKeys := by
  revert h
  fun_cases createAPIKey caller raw answer db
  case case3 raw inserted id apiKeys hinserted =>
      intro h
      cases h
      obtain ⟨drawn, _, hrow⟩ := Option.bind_eq_some_iff.mp hinserted
      obtain ⟨u, hu, hrow⟩ := Option.bind_eq_some_iff.mp hrow
      obtain ⟨inserted, hinsert, heq⟩ := Option.map_eq_some_iff.mp hrow
      cases heq
      have hid : u.id = caller.data.userID := (Table.find_eq_some.mp hu).2
      rw [hid] at hinsert
      exact ⟨raw, apiKeys, rfl, rfl, by rw [hu]; rfl, hinsert⟩
  all_goals
    intro h
    cases h

theorem resetAPIKey_error {raw : Option RawKey} {e : APIError}
    (h : resetAPIKey caller id raw answers db = (.error e, next)) : next = db := by
  obtain ⟨_, hnext⟩ | ⟨_, _, hok, _⟩ := resetAPIKey_eq h
  · exact hnext
  · cases hok

theorem resetAPIKey_ok {raw : Option RawKey} {r : CreateAPIKeyResponse}
    (h : resetAPIKey caller id raw answers db = (.ok r, next)) :
    (∃ u, verifyKeyOwnership caller id (db.seen answers.owner) = .ok u) ∧
      ∃ raw apiKeys, r.id = id ∧ r.key = RawKey.fullKey raw ∧ next = { db with apiKeys } ∧
        apiKeys.rows = db.apiKeys.rows.map fun row => if row.id = id then row.reset raw else row := by
  obtain ⟨⟨_, hnot⟩, _⟩ | ⟨raw', apiKeys, hok, hnext, _, hupdate⟩ := resetAPIKey_eq h
  · cases hnot
  · cases hok
    refine ⟨?_, raw', apiKeys, rfl, rfl, hnext, ?_⟩
    · unfold resetAPIKey at h
      split at h
      · cases h
      · exact ⟨_, ‹_›⟩
    · rw [IndexedTable.ofTable?_eq_some.mp hupdate]
      rfl

theorem revokeAPIKey_error {e : APIError} (h : revokeAPIKey caller id answers db = (.error e, next)) : next = db := by
  obtain ⟨_, hnext⟩ | ⟨hok, _⟩ := revokeAPIKey_eq h
  · exact hnext
  · cases hok

theorem revokeAPIKey_ok {u : Unit} (h : revokeAPIKey caller id answers db = (.ok u, next)) :
    (∃ u, verifyKeyOwnership caller id (db.seen answers.owner) = .ok u) ∧ next = { db with
      apiKeys := db.apiKeys.assign id .revoke APIKey.revoke_id APIKey.revoke_keyHash } := by
  obtain ⟨⟨_, hnot⟩, _⟩ | ⟨_, _, hnext⟩ := revokeAPIKey_eq h
  · cases hnot
  · refine ⟨?_, hnext⟩
    unfold revokeAPIKey at h
    split at h
    · cases h
    · exact ⟨_, ‹_›⟩

theorem updateIPs_eq {f : List String → List String} {ips : List String} {answered : Bool}
    (h : ((db.seen answered).bind fun db => db.updateIPs id f) = some (ips, next)) : next = { db with
      apiKeys := db.apiKeys.assign id (.setIPs f) (APIKey.setIPs_id f) (APIKey.setIPs_keyHash f) } := by
  obtain ⟨seen, hseen, hupdate⟩ := Option.bind_eq_some_iff.mp h
  cases AuthDB.seen_eq_some hseen
  obtain ⟨row, _, heq⟩ := Option.map_eq_some_iff.mp hupdate
  cases heq
  rfl

theorem addIPWhitelist_eq {ip : String} {response : Except APIError IPListResponse}
    (h : addIPWhitelist caller id ip answers db = (response, next)) :
    (∃ e, response = .error e) ∧ next = db ∨ (∃ r, response = .ok r) ∧
      (∃ u, verifyKeyOwnership caller id (db.seen answers.owner) = .ok u) ∧ next = { db with
        apiKeys := db.apiKeys.assign id (.setIPs (· ++ [ip])) (APIKey.setIPs_id _) (APIKey.setIPs_keyHash _) } := by
  revert h
  fun_cases addIPWhitelist caller id ip answers db
  case case4 hverify _ _ _ _ hupdate =>
      intro h
      cases h
      exact .inr ⟨⟨_, rfl⟩, ⟨_, hverify⟩, updateIPs_eq hupdate⟩
  all_goals
    intro h
    cases h
    exact .inl ⟨⟨_, rfl⟩, rfl⟩

theorem removeIPWhitelist_eq {ip : String} {response : Except APIError IPListResponse}
    (h : removeIPWhitelist caller id ip answers db = (response, next)) :
    (∃ e, response = .error e) ∧ next = db ∨ (∃ r, response = .ok r) ∧
      (∃ u, verifyKeyOwnership caller id (db.seen answers.owner) = .ok u) ∧ next = { db with
        apiKeys := db.apiKeys.assign id (.setIPs (·.filter (· ≠ ip))) (APIKey.setIPs_id _)
          (APIKey.setIPs_keyHash _) } := by
  revert h
  fun_cases removeIPWhitelist caller id ip answers db
  case case3 hverify _ _ hupdate =>
      intro h
      cases h
      exact .inr ⟨⟨_, rfl⟩, ⟨_, hverify⟩, updateIPs_eq hupdate⟩
  all_goals
    intro h
    cases h
    exact .inl ⟨⟨_, rfl⟩, rfl⟩

end Operations

section Steps

variable {s t : KeyService} {caller : Principal} {id : Int64} {op : KeyOp}

theorem permitted_concat {acts : List KeyAct} {a : KeyAct}
    (h : ∀ before b after, acts = before ++ b :: after → b.Permitted before) (ha : a.Permitted acts)
    (before : List KeyAct) (b : KeyAct) (after : List KeyAct)
    (heq : acts ++ [a] = before ++ b :: after) : b.Permitted before := by
  rcases List.eq_nil_or_concat after with rfl | ⟨rest, last, rfl⟩
  · obtain ⟨rfl, hlast⟩ := List.append_inj' heq rfl
    cases hlast
    exact ha
  · rw [List.concat_eq_append, ← List.cons_append, ← List.append_assoc] at heq
    exact h before b rest (List.append_inj' heq rfl).1

theorem Refines.mem_rows (hinv : Refines s) {row : APIKey} : row ∈ s.db.apiKeys.rows ↔ ∃ g ∈ grants s.acts,
    g.row = row := by
  rw [hinv.rows, List.mem_map]

-- Who the owner's check lets through may change the key.
theorem Refines.allowed (hinv : Refines s) {answered : Bool}
    (h : ∃ u, verifyKeyOwnership caller id (s.db.seen answered) = .ok u) :
    caller.data.role = "admin" ∨ ∃ g ∈ grants s.acts, g.id = id ∧ toString g.owner = caller.uid := by
  obtain ⟨u, h⟩ := h
  obtain hadmin | ⟨row, hrow, hid, howner⟩ := verifyKeyOwnership_ok h
  · exact .inl hadmin
  · obtain ⟨g, hg, rfl⟩ := hinv.mem_rows.mp hrow
    exact .inr ⟨g, hg, hid, howner⟩

-- A change of one row that is a change of its grant.
theorem Refines.changed (hinv : Refines s) {f : Grant → Grant} {stored : APIKey → APIKey}
    (hstored : ∀ g, (f g).row = stored g.row)
    (hsame : ∀ g, (f g).id = g.id ∧ (f g).owner = g.owner ∧ (f g).created = g.created ∧
      (f g).lastUsed = g.lastUsed)
    {apiKeys : APIKeys}
    (htable : apiKeys.rows = s.db.apiKeys.rows.map fun row => if row.id = id then stored row else row)
    (happly : KeyAct.apply (grants s.acts) ⟨caller, op⟩ = changeGrant id f (grants s.acts))
    (hpermitted : KeyAct.Permitted ⟨caller, op⟩ s.acts) :
    Refines { s with db := { s.db with apiKeys }, acts := s.act caller op } := by
  have hgrants : grants (s.act caller op) = changeGrant id f (grants s.acts) := (grants_concat _ _).trans happly
  have hmem : ∀ g ∈ changeGrant id f (grants s.acts), ∃ old ∈ grants s.acts,
      g.id = old.id ∧ g.owner = old.owner ∧ g.created = old.created ∧ g.lastUsed = old.lastUsed := by
    intro g hg
    obtain ⟨old, hold, rfl⟩ := List.mem_map.mp hg
    refine ⟨old, hold, ?_⟩
    split
    · exact hsame old
    · exact ⟨rfl, rfl, rfl, rfl⟩
  refine ⟨?_, fun g hg => ?_, fun g hg => ?_, ?_, fun caller' key hkey => ?_⟩
  · rw [hgrants, htable, hinv.rows, changeGrant, List.map_map, List.map_map]
    refine List.map_congr_left fun g _ => ?_
    simp only [Function.comp_apply]
    have hid : g.row.id = g.id := rfl
    rw [hid]
    split
    · exact (hstored g).symm
    · rfl
  · obtain ⟨old, hold, hid, _, hcreated, hused⟩ := hmem g (hgrants ▸ hg)
    rw [hid, hcreated, hused]
    exact hinv.times old hold
  · obtain ⟨old, hold, _, howner, _⟩ := hmem g (hgrants ▸ hg)
    rw [howner]
    exact hinv.owners old hold
  · exact permitted_concat hinv.permitted hpermitted
  · obtain ⟨h, hact⟩ := hinv.accepted caller' key hkey
    exact ⟨h, List.mem_append_left _ hact⟩

theorem Refines.created (hinv : Refines s) {raw : RawKey} {now : Time} {apiKeys : APIKeys}
    (huser : (s.db.users.find caller.data.userID).isSome)
    (hinsert : s.db.apiKeys.insert ⟨id, caller.data.userID, raw.keyPrefix, keyHashOf raw.fullKey, .active, []⟩ =
      some apiKeys) :
    Refines { s with
      db := { s.db with apiKeys }
      times := s.times.insert id now
      acts := s.act caller (.issue id raw.fullKey now) } := by
  obtain ⟨hrows, hfresh⟩ := Table.insert_eq_some (IndexedTable.insert_eq_some.mp hinsert)
  have hgrants : grants (s.act caller (.issue id raw.fullKey now)) =
      grants s.acts ++ [⟨id, caller.data.userID, raw.fullKey, false, [], now, none⟩] := grants_concat _ _
  have hnew : ∀ g ∈ grants s.acts, g.id ≠ id := fun g hg =>
    Table.find_eq_none.mp hfresh g.row (hinv.mem_rows.mpr ⟨g, hg, rfl⟩)
  refine ⟨?_, fun g hg => ?_, fun g hg => ?_, permitted_concat hinv.permitted trivial, fun caller' key hkey => ?_⟩
  · rw [hgrants, hrows, hinv.rows, List.map_append]
    rfl
  · rw [hgrants, List.mem_append, List.mem_singleton] at hg
    rcases hg with hold | rfl
    · simp only [KeyTimes.insert, if_neg (hnew g hold)]
      exact hinv.times g hold
    · simp [KeyTimes.insert]
  · rw [hgrants, List.mem_append, List.mem_singleton] at hg
    rcases hg with hold | rfl
    · exact hinv.owners g hold
    · exact huser
  · obtain ⟨h, hact⟩ := hinv.accepted caller' key hkey
    exact ⟨h, List.mem_append_left _ hact⟩

theorem validateAPIKey_eq_ok {h : Headers} {key : String} {db : AuthDB} {principal : Principal} :
    validateAPIKey h key (some db) = .ok principal ↔ ∃ row ∈ db.apiKeys.rows, row.keyHash = keyHashOf key ∧
      row.status = .active ∧ (row.ipWhitelist = [] ∨ checkIPWhitelist row.ipWhitelist h = .ok ()) ∧
      ∃ u, db.users.find row.userID = some u ∧ principal = u.principal := by
  simp only [validateAPIKey, Option.bind_some]
  constructor
  · intro hok
    split at hok
    · cases hok
    · rename_i row u hlookup
      obtain ⟨found, hfound, hjoin⟩ := Option.bind_eq_some_iff.mp hlookup
      obtain ⟨user, huser, heq⟩ := Option.map_eq_some_iff.mp hjoin
      cases heq
      obtain ⟨hrow, hhash⟩ := IndexedTable.findBy_eq_some.mp hfound
      split at hok
      · cases hok
      · rename_i hactive
        refine ⟨row, hrow, hhash, not_not.mp hactive, ?_⟩
        split at hok
        · rename_i hempty
          cases hok
          exact ⟨.inl hempty, u, huser, rfl⟩
        · cases hcheck : checkIPWhitelist row.ipWhitelist h with
          | error e =>
              rw [hcheck] at hok
              cases hok
          | ok _ =>
              rw [hcheck] at hok
              cases hok
              exact ⟨.inr rfl, u, huser, rfl⟩
  · rintro ⟨row, hrow, hhash, hactive, hadmits, u, hu, rfl⟩
    have hlookup : db.lookup (keyHashOf key) = some (row, u) := by
      rw [AuthDB.lookup, IndexedTable.findBy_eq_some.mpr ⟨hrow, hhash⟩, Option.bind_some, hu, Option.map_some]
    simp only [hlookup, hactive, ne_eq, not_true_eq_false, if_false]
    rcases hadmits with hempty | hcheck
    · rw [if_pos hempty]
      rfl
    · split
      · rfl
      · rw [hcheck]
        rfl

theorem Grant.row_active {g : Grant} : g.row.status = .active ↔ g.revoked = false := by
  cases hrevoked : g.revoked <;> simp [Grant.row, hrevoked]

-- A request is let in with a key that was issued last for its row and is not revoked.
theorem Refines.accepts_iff (hinv : Refines s) {h : Headers} {key : String} {principal : Principal} :
    validateAPIKey h key (some s.db) = .ok principal ↔ ∃ g ∈ grants s.acts, keyHashOf g.key = keyHashOf key ∧
      g.revoked = false ∧ g.Admits h ∧ ∃ u, s.db.users.find g.owner = some u ∧ principal = u.principal := by
  rw [validateAPIKey_eq_ok]
  constructor
  · rintro ⟨row, hrow, hhash, hactive, hadmits, huser⟩
    obtain ⟨g, hg, rfl⟩ := hinv.mem_rows.mp hrow
    exact ⟨g, hg, hhash, Grant.row_active.mp hactive, hadmits, huser⟩
  · rintro ⟨g, hg, hhash, hactive, hadmits, huser⟩
    exact ⟨g.row, hinv.mem_rows.mpr ⟨g, hg, rfl⟩, hhash, Grant.row_active.mpr hactive, hadmits, huser⟩

theorem Refines.used (hinv : Refines s) {h : Headers} {key : String} {principal : Principal}
    (hok : validateAPIKey h key (some s.db) = .ok principal) :
    Refines { s with accepted := s.accepted ++ [(principal, key)], acts := s.act principal (.accept h key) } := by
  have hgrants : grants (s.act principal (.accept h key)) = grants s.acts := grants_concat _ _
  obtain ⟨g, hg, hhash, hactive, hadmits, u, hu, rfl⟩ := hinv.accepts_iff.mp hok
  have howner : u.principal.data.userID = g.owner := (Table.find_eq_some.mp hu).2
  refine ⟨by rw [hgrants]; exact hinv.rows, by rw [hgrants]; exact hinv.times, by rw [hgrants]; exact hinv.owners,
    permitted_concat hinv.permitted ⟨g, hg, hhash, hactive, hadmits, howner⟩, fun caller' key' hkey => ?_⟩
  rcases List.mem_append.mp hkey with hold | hnew
  · obtain ⟨h', hact⟩ := hinv.accepted caller' key' hold
    exact ⟨h', List.mem_append_left _ hact⟩
  · cases List.mem_singleton.mp hnew
    exact ⟨h, List.mem_append_right _ (List.mem_singleton_self _)⟩

theorem Refines.stamped (hinv : Refines s) {key : String} {now : Time} (hkey : (caller, key) ∈ s.accepted) :
    Refines { s with
      times := s.times.stamp s.db.apiKeys (keyHashOf key) now
      accepted := s.accepted.erase (caller, key)
      acts := s.act caller (.stamp key now) } := by
  have hgrants : grants (s.act caller (.stamp key now)) = (grants s.acts).map fun g =>
      if keyHashOf g.key = keyHashOf key then { g with lastUsed := some now } else g := grants_concat _ _
  refine ⟨?_, fun g hg => ?_, fun g hg => ?_, permitted_concat hinv.permitted (hinv.accepted caller key hkey),
    fun caller' key' hkey' => ?_⟩
  · rw [hgrants, hinv.rows, List.map_map]
    refine List.map_congr_left fun g _ => ?_
    simp only [Function.comp_apply]
    split <;> rfl
  · rw [hgrants] at hg
    obtain ⟨old, hold, rfl⟩ := List.mem_map.mp hg
    obtain ⟨hcreated, hused⟩ := hinv.times old hold
    have hfind : s.db.apiKeys.find old.id = some old.row :=
      Table.find_eq_some.mpr ⟨hinv.mem_rows.mpr ⟨old, hold, rfl⟩, rfl⟩
    have hhash : old.row.keyHash = keyHashOf old.key := rfl
    by_cases hsame : keyHashOf old.key = keyHashOf key
    · simp [KeyTimes.stamp, hsame, hfind, hhash, hcreated]
    · simp [KeyTimes.stamp, hsame, hfind, hhash, hcreated, hused]
  · rw [hgrants] at hg
    obtain ⟨old, hold, rfl⟩ := List.mem_map.mp hg
    have howner : (if keyHashOf old.key = keyHashOf key then { old with lastUsed := some now } else old).owner =
        old.owner := by
      split <;> rfl
    rw [howner]
    exact hinv.owners old hold
  · obtain ⟨h, hact⟩ := hinv.accepted caller' key' (List.mem_of_mem_erase hkey')
    exact ⟨h, List.mem_append_left _ hact⟩

-- One step of the service.
theorem step_refines (hinv : Refines s) {l : KeyServiceLabel} (hstep : s.step l = some t) : Refines t := by
  have hsame : ∀ {db}, db = s.db → Refines { s with db } := by
    rintro _ rfl
    exact hinv
  cases l with
  | create caller raw answer now =>
      simp only [KeyService.step] at hstep
      split at hstep
      · cases hstep
        exact hsame (createAPIKey_error ‹_›)
      · rename_i r db hcreate
        cases hstep
        obtain ⟨raw, apiKeys, hkey, rfl, huser, hinsert⟩ := createAPIKey_ok hcreate
        rw [hkey]
        exact hinv.created huser hinsert
  | reset caller id raw answers =>
      simp only [KeyService.step] at hstep
      split at hstep
      · cases hstep
        exact hsame (resetAPIKey_error ‹_›)
      · rename_i r db hreset
        cases hstep
        obtain ⟨howner, raw, apiKeys, hid, hkey, rfl, hrows⟩ := resetAPIKey_ok hreset
        rw [hid, hkey]
        exact hinv.changed (f := fun g => { g with key := raw.fullKey }) (fun _ => rfl)
          (fun _ => ⟨rfl, rfl, rfl, rfl⟩)
          hrows rfl (hinv.allowed howner)
  | revoke caller id answers =>
      simp only [KeyService.step] at hstep
      split at hstep
      · cases hstep
        exact hsame (revokeAPIKey_error ‹_›)
      · rename_i u db hrevoke
        cases hstep
        obtain ⟨howner, rfl⟩ := revokeAPIKey_ok hrevoke
        exact hinv.changed (f := fun g => { g with revoked := true }) (fun _ => rfl) (fun _ => ⟨rfl, rfl, rfl, rfl⟩)
          rfl rfl (hinv.allowed howner)
  | addIP caller id ip answers =>
      simp only [KeyService.step] at hstep
      split at hstep
      · rename_i e db hadd
        cases hstep
        obtain ⟨_, hdb⟩ | ⟨⟨_, hnot⟩, _⟩ := addIPWhitelist_eq hadd
        · exact hsame hdb
        · cases hnot
      · rename_i r db hadd
        cases hstep
        obtain ⟨⟨_, hnot⟩, _⟩ | ⟨_, howner, rfl⟩ := addIPWhitelist_eq hadd
        · cases hnot
        · exact hinv.changed (f := fun g => { g with ips := g.ips ++ [ip] }) (fun _ => rfl)
            (fun _ => ⟨rfl, rfl, rfl, rfl⟩)
            rfl rfl (hinv.allowed howner)
  | removeIP caller id ip answers =>
      simp only [KeyService.step] at hstep
      split at hstep
      · rename_i e db hremove
        cases hstep
        obtain ⟨_, hdb⟩ | ⟨⟨_, hnot⟩, _⟩ := removeIPWhitelist_eq hremove
        · exact hsame hdb
        · cases hnot
      · rename_i r db hremove
        cases hstep
        obtain ⟨⟨_, hnot⟩, _⟩ | ⟨_, howner, rfl⟩ := removeIPWhitelist_eq hremove
        · cases hnot
        · exact hinv.changed (f := fun g => { g with ips := g.ips.filter (· ≠ ip) }) (fun _ => rfl)
            (fun _ => ⟨rfl, rfl, rfl, rfl⟩) rfl rfl (hinv.allowed howner)
  | use h key =>
      simp only [KeyService.step] at hstep
      split at hstep
      · cases hstep
        exact hinv
      · cases hstep
        exact hinv.used ‹_›
  | stamp caller key now =>
      simp only [KeyService.step] at hstep
      split at hstep
      · cases hstep
        exact hinv.stamped ‹_›
      · cases hstep

end Steps

theorem run_refines {users : Users} {labels : List KeyServiceLabel} {s : KeyService}
    (hrun : KeyService.run users labels = some s) : Refines s := by
  refine Machine.invariant (fun _ _ _ hinv hstep => step_refines hinv hstep) ?_ hrun
  refine ⟨rfl, fun _ hg => ?_, fun _ hg => ?_, fun before _ after heq => ?_, fun _ _ hkey => ?_⟩
  · cases hg
  · cases hg
  · simp at heq
  · cases hkey

section Entries

variable {db next : AuthDB} {caller : Principal} {id : Int64} {answers : KeyAnswers}

-- Rows keep the entries they had, and new ones have none.
theorem AuthDB.ValidIPs.of_rows (h : db.ValidIPs) (hrows : ∀ row ∈ next.apiKeys.rows,
    row.ipWhitelist = [] ∨ ∃ old ∈ db.apiKeys.rows, row.ipWhitelist = old.ipWhitelist) : next.ValidIPs := by
  intro row hrow entry hentry
  obtain hnone | ⟨old, hold, hsame⟩ := hrows row hrow
  · rw [hnone] at hentry
    cases hentry
  · exact h old hold entry (hsame ▸ hentry)

theorem createAPIKey_valid (h : db.ValidIPs) (caller : Principal) (raw : Option RawKey) (answer : Option Int64) :
    (createAPIKey caller raw answer db).2.ValidIPs := by
  cases hcreate : createAPIKey caller raw answer db with
  | mk response next =>
      obtain ⟨_, rfl⟩ | ⟨_, row, apiKeys, _, rfl, _, _, hips, _, hinsert⟩ := createAPIKey_eq hcreate
      · exact h
      · refine AuthDB.ValidIPs.of_rows h fun other hother => ?_
        rw [(Table.insert_eq_some (IndexedTable.insert_eq_some.mp hinsert)).1] at hother
        rcases List.mem_append.mp hother with hold | hnew
        · exact .inr ⟨other, hold, rfl⟩
        · exact .inl (List.mem_singleton.mp hnew ▸ hips)

theorem mapped_valid (h : db.ValidIPs) {f : APIKey → APIKey} (hf : ∀ row, (f row).ipWhitelist = row.ipWhitelist)
    (hrows : next.apiKeys.rows = db.apiKeys.rows.map fun row => if row.id = id then f row else row) :
    next.ValidIPs := by
  refine h.of_rows fun row hrow => ?_
  rw [hrows] at hrow
  obtain ⟨old, hold, rfl⟩ := List.mem_map.mp hrow
  refine .inr ⟨old, hold, ?_⟩
  split
  · exact hf old
  · rfl

theorem resetAPIKey_valid (h : db.ValidIPs) (caller : Principal) (id : Int64) (raw : Option RawKey)
    (answers : KeyAnswers) : (resetAPIKey caller id raw answers db).2.ValidIPs := by
  cases hreset : resetAPIKey caller id raw answers db with
  | mk response next =>
      cases response with
      | error e =>
          rw [resetAPIKey_error hreset]
          exact h
      | ok r =>
          obtain ⟨_, raw, apiKeys, _, _, rfl, hrows⟩ := resetAPIKey_ok hreset
          exact mapped_valid h (f := APIKey.reset raw) (fun _ => rfl) hrows

theorem revokeAPIKey_valid (h : db.ValidIPs) (caller : Principal) (id : Int64) (answers : KeyAnswers) :
    (revokeAPIKey caller id answers db).2.ValidIPs := by
  cases hrevoke : revokeAPIKey caller id answers db with
  | mk response next =>
      cases response with
      | error e =>
          rw [revokeAPIKey_error hrevoke]
          exact h
      | ok u =>
          obtain ⟨_, rfl⟩ := revokeAPIKey_ok hrevoke
          exact mapped_valid h (f := APIKey.revoke) (fun _ => rfl) rfl

def KeyServiceLabel.after (db : AuthDB) : KeyServiceLabel → AuthDB
  | .create caller raw answer _ => (createAPIKey caller raw answer db).2
  | .reset caller id raw answers => (resetAPIKey caller id raw answers db).2
  | .revoke caller id answers => (revokeAPIKey caller id answers db).2
  | .addIP caller id ip answers => (addIPWhitelist caller id ip answers db).2
  | .removeIP caller id ip answers => (removeIPWhitelist caller id ip answers db).2
  | .use _ _ | .stamp _ _ _ => db

theorem step_db {s t : KeyService} {l : KeyServiceLabel} (hstep : s.step l = some t) : t.db = l.after s.db := by
  cases l <;> simp only [KeyService.step] at hstep <;> split at hstep <;> cases hstep <;>
    simp [KeyServiceLabel.after, *]

-- In every state of a run the entries of the stored whitelists are addresses and blocks.
theorem whitelists_valid {users : Users} {labels : List KeyServiceLabel} {s : KeyService}
    (hrun : KeyService.run users labels = some s) : s.db.ValidIPs := by
  refine Machine.invariant (P := fun s : KeyService => s.db.ValidIPs) (fun s l t h hstep => ?_) ?_ hrun
  · rw [step_db hstep]
    cases l with
    | create caller raw answer now => exact createAPIKey_valid h caller raw answer
    | reset caller id raw answers => exact resetAPIKey_valid h caller id raw answers
    | revoke caller id answers => exact revokeAPIKey_valid h caller id answers
    | addIP caller id ip answers => exact addIPWhitelist_valid h caller id ip answers
    | removeIP caller id ip answers => exact removeIPWhitelist_valid h caller id ip answers
    | use | stamp => exact h
  · intro row hrow
    cases hrow

end Entries

section Answers

variable {s : KeyService}

theorem Refines.listed (hinv : Refines s) (caller : Principal) {newestFirst : List APIKey → List APIKey}
    (horder : NewestFirst (fun row => s.times.created row.id) newestFirst) :
    ∃ infos, listAPIKeys newestFirst s.times caller none s.db = .ok infos ∧
      infos.Perm (((grants s.acts).filter fun g => g.owner = caller.data.userID).map Grant.info) ∧
      infos.Pairwise fun a b => b.createdAt ≤ a.createdAt := by
  refine ⟨_, rfl, ?_, ?_⟩
  · have hrows : s.db.apiKeys.rows.filter (fun row => row.userID = caller.data.userID) =
        ((grants s.acts).filter fun g => g.owner = caller.data.userID).map Grant.row := by
      rw [hinv.rows, List.filter_map]
      rfl
    have hinfos : (((grants s.acts).filter fun g => g.owner = caller.data.userID).map Grant.row).map
        (APIKey.info s.times) =
        ((grants s.acts).filter fun g => g.owner = caller.data.userID).map Grant.info := by
      rw [List.map_map]
      refine List.map_congr_left fun g hg => ?_
      obtain ⟨hcreated, hused⟩ := hinv.times g (List.mem_filter.mp hg).1
      cases hrevoked : g.revoked <;>
        simp [APIKey.info, Grant.row, Grant.info, hrevoked, hcreated, hused, KeyStatus.text]
    rw [← hinfos, ← hrows]
    exact (horder _).1.map _
  · exact List.pairwise_map.mpr (horder _).2

theorem Refines.whitelist (hinv : Refines s) (caller : Principal) (id : Int64) (ips : List String) :
    listIPWhitelist caller id ⟨true, true⟩ s.db = .ok ⟨ips⟩ ↔ ∃ g ∈ grants s.acts, g.id = id ∧
      g.ips = ips ∧
      (caller.data.role = "admin" ∨ toString g.owner = caller.uid) := by
  have hseen : s.db.seen true = some s.db := rfl
  constructor
  · intro hok
    unfold listIPWhitelist at hok
    split at hok
    · cases hok
    · rename_i u hverify
      rw [hseen, Option.bind_some] at hok
      split at hok
      · cases hok
      · rename_i row hfind
        cases hok
        obtain ⟨hrow, hid⟩ := Table.find_eq_some.mp hfind
        obtain ⟨g, hg, rfl⟩ := hinv.mem_rows.mp hrow
        refine ⟨g, hg, hid, rfl, ?_⟩
        obtain hadmin | ⟨row, hrow', hid', howner⟩ := verifyKeyOwnership_ok hverify
        · exact .inl hadmin
        · rw [s.db.apiKeys.row_unique hrow' hrow (hid'.trans hid.symm)] at howner
          exact .inr howner
  · rintro ⟨g, hg, hid, rfl, hallowed⟩
    have hfind : s.db.apiKeys.find id = some g.row :=
      Table.find_eq_some.mpr ⟨hinv.mem_rows.mpr ⟨g, hg, rfl⟩, hid⟩
    have hverify : verifyKeyOwnership caller id (s.db.seen true) = .ok () := by
      unfold verifyKeyOwnership
      split
      · rfl
      · rename_i hnot
        rw [hseen, Option.bind_some, hfind]
        have howner : toString g.row.userID = caller.uid := hallowed.resolve_left hnot
        simp [howner]
    rw [hseen] at hverify
    simp only [listIPWhitelist, hseen, hverify, Option.bind_some, hfind]
    rfl

end Answers

-- After any run of the key service, however its operations and requests interleave, what
-- it tells of keys is what it has answered so far. A key lets a request in exactly if
-- it was the last to be issued for its row, the row is not revoked, and the addresses
-- that were added and not removed since admit the client, or there are none. Its owner
-- is listed its keys, newest first, with what became of each and when it was last used,
-- and its addresses. Nobody but the owner of a key or an administrator has changed it.
theorem keys_as_granted {users : Users} {labels : List KeyServiceLabel} {s : KeyService}
    (hrun : KeyService.run users labels = some s) :
    (∀ h key principal, (∀ g ∈ grants s.acts, keyHashOf g.key = keyHashOf key → g.key = key) →
      (validateAPIKey h key (some s.db) = .ok principal ↔ ∃ g ∈ grants s.acts, g.key = key ∧
        g.revoked = false ∧
        g.Admits h ∧ ∃ u, s.db.users.find g.owner = some u ∧ principal = u.principal)) ∧
      (∀ caller newestFirst, NewestFirst (fun row : APIKey => s.times.created row.id) newestFirst →
        ∃ infos, listAPIKeys newestFirst s.times caller none s.db = .ok infos ∧
          infos.Perm (((grants s.acts).filter fun g => g.owner = caller.data.userID).map Grant.info) ∧
          infos.Pairwise fun a b => b.createdAt ≤ a.createdAt) ∧
      (∀ caller id ips, listIPWhitelist caller id ⟨true, true⟩ s.db = .ok ⟨ips⟩ ↔ ∃ g ∈ grants s.acts,
        g.id = id ∧
        g.ips = ips ∧ (caller.data.role = "admin" ∨ toString g.owner = caller.uid)) ∧
      ∀ before a after, s.acts = before ++ a :: after → a.Permitted before := by
  have hinv := run_refines hrun
  refine ⟨fun h key principal hcollision => ?_, fun caller _ horder => hinv.listed caller horder, hinv.whitelist,
    hinv.permitted⟩
  rw [hinv.accepts_iff]
  constructor
  · rintro ⟨g, hg, hhash, hrest⟩
    exact ⟨g, hg, hcollision g hg hhash, hrest⟩
  · rintro ⟨g, hg, rfl, hrest⟩
    exact ⟨g, hg, rfl, hrest⟩

-- A key is used, reset before the use is noted, and bound to a block of addresses.
def boundKey : List KeyServiceLabel :=
  [.create aliceCalls (some firstKey) (some 1) 10, .use noHeaders firstKey.fullKey,
   .reset aliceCalls 1 (some secondKey) ⟨true, true⟩, .stamp aliceCalls firstKey.fullKey 11,
   .addIP aliceCalls 1 "10.0.0.0/8" ⟨true, true⟩]

theorem keys_as_granted_bound : ∃ s, KeyService.run onlyAlice boundKey = some s ∧
    validateAPIKey ⟨"10.1.2.3", ""⟩ secondKey.fullKey (some s.db) = .ok aliceCalls ∧
    listIPWhitelist aliceCalls 1 ⟨true, true⟩ s.db = .ok ⟨["10.0.0.0/8"]⟩ := by
  have hgrants : (KeyService.run onlyAlice boundKey).map (fun s => (grants s.acts, s.db.users.find 7)) =
      some ([⟨1, 7, secondKey.fullKey, false, ["10.0.0.0/8"], 10, none⟩], some alice) := by decide +kernel
  obtain ⟨s, hrun, hboth⟩ := Option.map_eq_some_iff.mp hgrants
  obtain ⟨hgrants, hu⟩ := Prod.mk.inj hboth
  obtain ⟨haccepts, _, hwhitelist, _⟩ := keys_as_granted hrun
  have hcollision : ∀ g ∈ grants s.acts, keyHashOf g.key = keyHashOf secondKey.fullKey →
      g.key = secondKey.fullKey := by
    intro g hg _
    rw [hgrants, List.mem_singleton] at hg
    rw [hg]
  have hmem : (⟨1, 7, secondKey.fullKey, false, ["10.0.0.0/8"], 10, none⟩ : Grant) ∈
      grants s.acts := by simp [hgrants]
  have hadmits : checkIPWhitelist ["10.0.0.0/8"] ⟨"10.1.2.3", ""⟩ = .ok () := by decide +kernel
  refine ⟨s, hrun, (haccepts _ _ _ hcollision).mpr ⟨_, hmem, rfl, rfl, .inr hadmits, alice, hu, ?_⟩,
    (hwhitelist _ _ _).mpr ⟨_, hmem, rfl, rfl, .inr ?_⟩⟩
  · decide +kernel
  · decide +kernel

end Bos3000.Auth
