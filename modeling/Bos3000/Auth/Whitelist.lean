import Mathlib.Data.List.TakeDrop
import Bos3000.Auth.APIKeys
import Bos3000.Lib.NetText

-- The addresses that an API key may be used from: how they are stored, and which
-- clients they admit.
namespace Bos3000.Auth

def validateIPOrCIDR (input : String) : Except APIError Unit :=
  if (Net.parseIP input).isSome then .ok ()
  else if (Net.parseCIDR input).isSome then .ok ()
  else .error ⟨.InvalidArgument, "invalid IP address or CIDR"⟩

def APIKey.setIPs (f : List String → List String) (row : APIKey) : APIKey :=
  { row with ipWhitelist := f row.ipWhitelist }

theorem APIKey.setIPs_id (f : List String → List String) (row : APIKey) : (row.setIPs f).id = row.id := rfl

theorem APIKey.setIPs_keyHash (f : List String → List String) (row : APIKey) :
    (row.setIPs f).keyHash = row.keyHash := rfl

-- The UPDATE of a whitelist returns the new one. No row is an error as a failure is.
def AuthDB.updateIPs (db : AuthDB) (id : Int64) (f : List String → List String) : Option (List String × AuthDB) :=
  (db.apiKeys.find id).map fun row =>
    (f row.ipWhitelist, { db with
      apiKeys := db.apiKeys.assign id (.setIPs f) (APIKey.setIPs_id f) (APIKey.setIPs_keyHash f) })

structure IPListResponse where
  ips : List String
  deriving DecidableEq, Repr

def addIPWhitelist (caller : Principal) (id : Int64) (ip : String) (answers : KeyAnswers) (db : AuthDB) :
    Except APIError IPListResponse × AuthDB :=
  match verifyKeyOwnership caller id (db.seen answers.owner) with
  | .error e => (.error e, db)
  | .ok _ =>
      match validateIPOrCIDR ip with
      | .error e => (.error e, db)
      | .ok _ =>
          match (db.seen answers.exec).bind fun db => db.updateIPs id (· ++ [ip]) with
          | none => (.error ⟨.Internal, "failed to add IP"⟩, db)
          | some (ips, db) => (.ok ⟨ips⟩, db)

def removeIPWhitelist (caller : Principal) (id : Int64) (ip : String) (answers : KeyAnswers) (db : AuthDB) :
    Except APIError IPListResponse × AuthDB :=
  match verifyKeyOwnership caller id (db.seen answers.owner) with
  | .error e => (.error e, db)
  | .ok _ =>
      match (db.seen answers.exec).bind fun db => db.updateIPs id (·.filter (· ≠ ip)) with
      | none => (.error ⟨.Internal, "failed to remove IP"⟩, db)
      | some (ips, db) => (.ok ⟨ips⟩, db)

section Entries

-- Whether every stored entry is an address or a block.
def AuthDB.ValidIPs (db : AuthDB) : Prop :=
  ∀ row ∈ db.apiKeys.rows, ∀ entry ∈ row.ipWhitelist, validateIPOrCIDR entry = .ok ()

variable {db : AuthDB} {f : List String → List String}

theorem AuthDB.updateIPs_valid (h : db.ValidIPs) {id : Int64} {ips : List String} {next : AuthDB}
    (hf : ∀ stored, ∀ entry ∈ f stored, entry ∈ stored ∨ validateIPOrCIDR entry = .ok ())
    (hupdate : db.updateIPs id f = some (ips, next)) : next.ValidIPs := by
  obtain ⟨row, hrow, heq⟩ := Option.map_eq_some_iff.mp hupdate
  cases heq
  intro updated hupdated entry hentry
  obtain ⟨old, hold, rfl⟩ := List.mem_map.mp hupdated
  split at hentry
  · obtain hstored | hvalid := hf old.ipWhitelist entry hentry
    · exact h old hold entry hstored
    · exact hvalid
  · exact h old hold entry hentry

theorem addIPWhitelist_valid (h : db.ValidIPs) (caller : Principal) (id : Int64) (ip : String) (answers : KeyAnswers) :
    (addIPWhitelist caller id ip answers db).2.ValidIPs := by
  unfold addIPWhitelist
  split
  · exact h
  · split
    · exact h
    · rename_i hvalid
      split
      · exact h
      · rename_i hupdate
        obtain ⟨seen, hseen, hupdate⟩ := Option.bind_eq_some_iff.mp hupdate
        cases AuthDB.seen_eq_some hseen
        refine AuthDB.updateIPs_valid h ?_ hupdate
        intro stored entry hentry
        obtain hstored | hnew := List.mem_append.mp hentry
        · exact .inl hstored
        · exact .inr (List.mem_singleton.mp hnew ▸ hvalid)

theorem removeIPWhitelist_valid (h : db.ValidIPs) (caller : Principal) (id : Int64) (ip : String)
    (answers : KeyAnswers) : (removeIPWhitelist caller id ip answers db).2.ValidIPs := by
  unfold removeIPWhitelist
  split
  · exact h
  · split
    · exact h
    · rename_i hupdate
      obtain ⟨seen, hseen, hupdate⟩ := Option.bind_eq_some_iff.mp hupdate
      cases AuthDB.seen_eq_some hseen
      exact AuthDB.updateIPs_valid h (fun _ _ hentry => .inl (List.mem_filter.mp hentry).1) hupdate

end Entries

section Clients

-- What an entry means: an address, or the addresses of a block.
def Covers (entry : String) (clientIP : Net.IP) : Prop :=
  Net.parseIP entry = some clientIP ∨
    ∃ cidr, Net.parseCIDR entry = some cidr ∧ cidr.contains clientIP = true

-- What is compared with an entry: the text of the client's address, or its place in the block.
def Spells (entry : String) (clientIP : Net.IP) : Prop :=
  entry = Net.text clientIP ∨ ∃ cidr, Net.parseCIDR entry = some cidr ∧ cidr.contains clientIP = true

theorem slash_of_parseCIDR {entry : String} {cidr : Net.IPNet} (h : Net.parseCIDR entry = some cidr) :
    '/' ∈ entry.toList := by
  unfold Net.parseCIDR at h
  split at h
  · rename_i hspan
    rw [List.span_eq_takeWhile_dropWhile, Prod.mk.injEq] at hspan
    exact (List.dropWhile_sublist _).subset (hspan.2 ▸ List.mem_cons_self)
  · cases h

theorem not_slash_text (ip : Net.IP) : '/' ∉ (Net.text ip).toList := by
  intro hslash
  exact absurd (Net.mem_text ip '/' hslash) (by decide)

theorem matchesEntry_iff (clientIP : Net.IP) (entry : String) :
    matchesEntry clientIP entry = true ↔ Spells entry clientIP := by
  unfold matchesEntry Spells
  split
  · rename_i hslash
    rw [Option.any_eq_true]
    constructor
    · exact .inr
    · rintro (rfl | hcidr)
      · exact absurd hslash (not_slash_text clientIP)
      · exact hcidr
  · rename_i hslash
    rw [Bool.and_eq_true, decide_eq_true_eq]
    constructor
    · exact fun h => .inl h.2
    · rintro (rfl | ⟨cidr, hcidr, _⟩)
      · exact ⟨by rw [Net.parseIP_text]; rfl, rfl⟩
      · exact absurd (slash_of_parseCIDR hcidr) hslash

theorem covers_of_spells {entry : String} {clientIP : Net.IP} (h : Spells entry clientIP) : Covers entry clientIP := by
  obtain rfl | hcidr := h
  · exact .inl (Net.parseIP_text clientIP)
  · exact .inr hcidr

-- Whether an address text is that of an admitted client.
def listed (whitelist : List String) (s : String) : Bool :=
  (Net.parseIP s).any fun clientIP => whitelist.any (matchesEntry clientIP)

theorem checkIPWhitelist_ok {whitelist : List String} {h : Headers} :
    checkIPWhitelist whitelist h = .ok () ↔ listed whitelist (remoteIP h) = true := by
  unfold checkIPWhitelist listed
  by_cases hempty : remoteIP h = ""
  · rw [if_pos hempty, hempty, show Net.parseIP "" = none from rfl]
    simp
  · rw [if_neg hempty]
    cases Net.parseIP (remoteIP h) with
    | none => simp
    | some clientIP =>
        rw [Option.any_some]
        dsimp only
        split <;> simp [*]

-- The whitelist means what it says exactly if some entry that is the client's address has
-- the spelling that String gives it, or a block has the client.
theorem checkIPWhitelist_covers (whitelist : List String) (h : Headers) (clientIP : Net.IP)
    (hclient : Net.parseIP (remoteIP h) = some clientIP) :
    (checkIPWhitelist whitelist h = .ok () ↔ ∃ entry ∈ whitelist, Covers entry clientIP) ↔
      ((∃ entry ∈ whitelist, Net.parseIP entry = some clientIP) →
        ∃ entry ∈ whitelist, Spells entry clientIP) := by
  have hchecked : checkIPWhitelist whitelist h = .ok () ↔ ∃ entry ∈ whitelist, Spells entry clientIP := by
    rw [checkIPWhitelist_ok, listed, hclient, Option.any_some, List.any_eq_true]
    simp only [matchesEntry_iff]
  rw [hchecked]
  constructor
  · rintro hmeans ⟨entry, hentry, hparse⟩
    exact hmeans.mpr ⟨entry, hentry, .inl hparse⟩
  · intro hspelt
    constructor
    · rintro ⟨entry, hentry, hspells⟩
      exact ⟨entry, hentry, covers_of_spells hspells⟩
    · rintro ⟨entry, hentry, hparse | hcidr⟩
      · exact hspelt ⟨entry, hentry, hparse⟩
      · exact ⟨entry, hentry, .inr hcidr⟩

-- An address in upper case, in a block that was given.
theorem checkIPWhitelist_covers_block :
    Net.parseIP (remoteIP ⟨"2001:DB8::1", ""⟩) = some 0x20010db8000000000000000000000001 ∧
      (checkIPWhitelist ["10.0.0.1", "2001:db8::/32"] ⟨"2001:DB8::1", ""⟩ = .ok () ↔
        ∃ entry ∈ ["10.0.0.1", "2001:db8::/32"], Covers entry 0x20010db8000000000000000000000001) := by
  have hclient : Net.parseIP (remoteIP ⟨"2001:DB8::1", ""⟩) = some 0x20010db8000000000000000000000001 := by
    decide +kernel
  have hblock : (Net.parseCIDR "2001:db8::/32").any (fun cidr => cidr.contains 0x20010db8000000000000000000000001) =
      true := by decide +kernel
  exact ⟨hclient, (checkIPWhitelist_covers _ _ _ hclient).mpr fun _ =>
    ⟨"2001:db8::/32", by simp, .inr ((Option.any_eq_true ..).mp hblock)⟩⟩

-- The same address as an entry is accepted, and admits nobody.
theorem upper_case_unlisted : validateIPOrCIDR "2001:DB8::1" = .ok () ∧
    Net.parseIP (remoteIP ⟨"2001:DB8::1", ""⟩) = some 0x20010db8000000000000000000000001 ∧
    ¬ (checkIPWhitelist ["2001:DB8::1"] ⟨"2001:DB8::1", ""⟩ = .ok () ↔
      ∃ entry ∈ ["2001:DB8::1"], Covers entry 0x20010db8000000000000000000000001) := by
  have hclient : Net.parseIP "2001:DB8::1" = some 0x20010db8000000000000000000000001 := by decide +kernel
  have hrefused : checkIPWhitelist ["2001:DB8::1"] ⟨"2001:DB8::1", ""⟩ ≠ .ok () := by decide +kernel
  refine ⟨by decide +kernel, by decide +kernel, fun hmeans => hrefused (hmeans.mpr ?_)⟩
  exact ⟨"2001:DB8::1", by simp, .inl hclient⟩

end Clients

section Proxy

-- A request through a proxy that appends the address of its peer.
def proxied (xForwardedFor xRealIP : String) (peer : Net.IP) : Headers :=
  ⟨if xForwardedFor = "" then Net.text peer else xForwardedFor ++ ", " ++ Net.text peer, xRealIP⟩

-- The first element of a header.
def firstElement (xForwardedFor : String) : String := trimSpace (xForwardedFor.toList.takeWhile (· ≠ ','))

theorem trimSpace_of_none {cs : List Char} (h : ∀ c ∈ cs, isSpace c = false) : trimSpace cs = String.ofList cs := by
  have hkeep : ∀ cs : List Char, (∀ c ∈ cs, isSpace c = false) → cs.dropWhile isSpace = cs := by
    intro cs hcs
    cases cs with
    | nil => rfl
    | cons c rest => rw [List.dropWhile_cons, hcs c List.mem_cons_self]; rfl
  rw [trimSpace, hkeep cs h, hkeep cs.reverse (by simpa using h), List.reverse_reverse]

theorem firstElement_text (ip : Net.IP) : firstElement (Net.text ip) = Net.text ip := by
  have hcomma : ∀ c ∈ (Net.text ip).toList, decide (c ≠ ',') = true := by
    have hall : Net.addressChars.all (fun c => decide (c ≠ ',')) = true := by decide
    exact fun c hc => List.all_eq_true.mp hall c (Net.mem_text ip c hc)
  have hspace : ∀ c ∈ (Net.text ip).toList, isSpace c = false := by
    have hall : Net.addressChars.all (fun c => !isSpace c) = true := by decide
    exact fun c hc => Bool.not_eq_true' _ ▸ List.all_eq_true.mp hall c (Net.mem_text ip c hc)
  rw [firstElement, List.takeWhile_eq_self_iff.mpr hcomma, trimSpace_of_none hspace, String.ofList_toList]

theorem firstElement_append (s rest : String) : firstElement (s ++ ", " ++ rest) = firstElement s := by
  have htake : ∀ (cs more : List Char), (cs ++ ',' :: more).takeWhile (· ≠ ',') = cs.takeWhile (· ≠ ',') := by
    intro cs more
    induction cs with
    | nil => simp
    | cons c rest ih =>
        rw [List.cons_append, List.takeWhile_cons, List.takeWhile_cons, ih]
  rw [firstElement, firstElement, String.toList_append, String.toList_append, List.append_assoc]
  exact congrArg trimSpace (htake s.toList _)

theorem remoteIP_proxied (xForwardedFor xRealIP : String) (peer : Net.IP) :
    remoteIP (proxied xForwardedFor xRealIP peer) =
      if xForwardedFor = "" then Net.text peer else firstElement xForwardedFor := by
  unfold remoteIP proxied
  split
  · rw [if_pos (Net.text_ne_empty peer)]
    exact firstElement_text peer
  · rw [if_pos (by simp)]
    exact firstElement_append xForwardedFor _

theorem validateAPIKey_listed {h : Headers} {apiKey : String} {db : AuthDB} {row : APIKey} {u : User}
    (hrow : db.lookup (keyHashOf apiKey) = some (row, u)) (hwhitelist : row.ipWhitelist ≠ []) :
    (∃ principal, validateAPIKey h apiKey (some db) = .ok principal) ↔
      row.status = .active ∧ listed row.ipWhitelist (remoteIP h) = true := by
  simp only [validateAPIKey, Option.bind_some, hrow]
  by_cases hactive : row.status = .active
  · rw [if_neg (by simpa using hactive), if_neg hwhitelist, ← checkIPWhitelist_ok]
    cases checkIPWhitelist row.ipWhitelist h <;> simp [Except.map, hactive]
  · simp [hactive]

-- What the whitelist promises of a request through the proxy.
structure PeerDecides (whitelist : List String) (apiKey : String) (db : AuthDB) (xForwardedFor xRealIP : String)
    (peer : Net.IP) : Prop where
  peer_listed : (∃ principal, validateAPIKey (proxied xForwardedFor xRealIP peer) apiKey (some db) =
    .ok principal) →
    whitelist.any (matchesEntry peer) = true
  independent : (∃ principal, validateAPIKey (proxied xForwardedFor xRealIP peer) apiKey (some db) =
    .ok principal) ↔
    ∃ principal, validateAPIKey (proxied "" "" peer) apiKey (some db) = .ok principal

-- The peer decides exactly if the client sent no X-Forwarded-For, or the first element of
-- what it sent is as good as the peer's address.
theorem validateAPIKey_proxied (apiKey : String) (db : AuthDB) (row : APIKey) (u : User)
    (hrow : db.lookup (keyHashOf apiKey) = some (row, u)) (hwhitelist : row.ipWhitelist ≠ [])
    (xForwardedFor xRealIP : String) (peer : Net.IP) :
    PeerDecides row.ipWhitelist apiKey db xForwardedFor xRealIP peer ↔
      (row.status = .active → xForwardedFor = "" ∨
        listed row.ipWhitelist (firstElement xForwardedFor) = row.ipWhitelist.any (matchesEntry peer)) := by
  have hpeer : listed row.ipWhitelist (Net.text peer) = row.ipWhitelist.any (matchesEntry peer) := by
    rw [listed, Net.parseIP_text, Option.any_some]
  have hsent := @validateAPIKey_listed (proxied xForwardedFor xRealIP peer) _ _ _ _ hrow hwhitelist
  have hunsent := @validateAPIKey_listed (proxied "" "" peer) _ _ _ _ hrow hwhitelist
  rw [remoteIP_proxied] at hsent hunsent
  rw [if_pos rfl, hpeer] at hunsent
  constructor
  · rintro ⟨_, hindependent⟩ hactive
    by_cases hempty : xForwardedFor = ""
    · exact .inl hempty
    · rw [hsent, hunsent, if_neg hempty] at hindependent
      exact .inr (Bool.eq_iff_iff.mpr (by simpa [hactive] using hindependent))
  · intro hcondition
    have hsame : (∃ principal, validateAPIKey (proxied xForwardedFor xRealIP peer) apiKey (some db) =
        .ok principal) ↔
        row.status = .active ∧ row.ipWhitelist.any (matchesEntry peer) = true := by
      rw [hsent]
      refine and_congr_right fun hactive => ?_
      obtain hempty | hlisted := hcondition hactive
      · rw [if_pos hempty, hpeer]
      · split
        · rw [hpeer]
        · rw [hlisted]
    exact ⟨fun haccepted => (hsame.mp haccepted).2, hsame.trans hunsent.symm⟩

def officeKey : APIKey := ⟨1, 3, "bos_office", keyHashOf "bos_office", .active, ["10.0.0.0/8"]⟩

def office : User :=
  { id := 3, email := "office@example.com", username := "office", passwordHash := "hash", role := .client,
    balance := 0, creditLimit := 0, maxConcurrent := 10, dailyLimit := 1000, ratePlanID := none,
    aLegRate := none, bLegRate := none, status := .active, webhookURL := none, createdAt := 0,
    updatedAt := 0 }

def officeDB : AuthDB :=
  ⟨⟨⟨[office], List.nodup_singleton _⟩, List.nodup_singleton _⟩,
    ⟨⟨[officeKey], List.nodup_singleton _⟩, List.nodup_singleton _⟩⟩

theorem officeDB_lookup : officeDB.lookup (keyHashOf "bos_office") = some (officeKey, office) := by
  simp [AuthDB.lookup, officeDB, IndexedTable.findBy, Table.find, officeKey, office]

-- A client of the office that names another address of the office, behind a proxy.
theorem validateAPIKey_proxied_office :
    PeerDecides ["10.0.0.0/8"] "bos_office" officeDB "10.0.0.1" "" (Net.v4InV6 0x0a000002) :=
  (validateAPIKey_proxied "bos_office" officeDB officeKey office officeDB_lookup (by simp [officeKey]) "10.0.0.1" ""
    (Net.v4InV6 0x0a000002)).mpr fun _ => .inr (by decide +kernel)

-- A peer elsewhere that names an address of the office is let in.
theorem stolen_key_admitted : ¬ PeerDecides ["10.0.0.0/8"] "bos_office" officeDB "10.0.0.1" ""
    (Net.v4InV6 0xcb007109) := by
  intro hdecides
  have hadmitted := @validateAPIKey_listed (proxied "10.0.0.1" "" (Net.v4InV6 0xcb007109)) "bos_office" officeDB
    officeKey office officeDB_lookup (by simp [officeKey])
  have hlisted : listed ["10.0.0.0/8"] (remoteIP (proxied "10.0.0.1" "" (Net.v4InV6 0xcb007109))) = true := by
    decide +kernel
  exact absurd (hdecides.peer_listed (hadmitted.mpr ⟨rfl, hlisted⟩)) (by decide +kernel)

end Proxy

end Bos3000.Auth
