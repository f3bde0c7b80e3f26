import Mathlib.Algebra.GroupWithZero.Nat
import Bos3000.Routing.Operations
import Bos3000.Webhook.Sign

-- The prefixes of the gateways, and PickBLeg, which takes the first bytes of the
-- called number for a prefix and follows the failover links of unhealthy gateways.
namespace Bos3000.Routing

open Webhook (utf8)

-- A row of gateway_prefixes.
structure GatewayPrefix where
  gatewayID : Int64
  calledPrefix : String
  priority : Int64
  deriving DecidableEq, Repr

def GatewayPrefix.key (row : GatewayPrefix) : Int64 × String := (row.gatewayID, row.calledPrefix)

abbrev PrefixTable := Table GatewayPrefix.key

structure AddPrefixParams where
  calledPrefix : String
  priority : Int64
  deriving DecidableEq, Repr

-- Gateways are never deleted, so that the check and the INSERT see the same ids.
def addPrefix (auth : Option AuthData) (id : Int64) (p : AddPrefixParams) (fault : Option APIError) (e : APIError)
    (gateways : GatewayTable) (prefixes : PrefixTable) : Except APIError GatewayPrefix × PrefixTable :=
  match requireAdmin auth with
  | .error e => (.error e, prefixes)
  | .ok _ =>
      if p.calledPrefix = "" then (.error ⟨.InvalidArgument, "prefix is required"⟩, prefixes)
      else
        match fault, gateways.find id with
        | some e, _ => (.error e, prefixes)
        | none, none => (.error ⟨.NotFound, "gateway not found"⟩, prefixes)
        | none, some _ =>
            let inserted := (varchar 10 p.calledPrefix).bind fun calledPrefix =>
              prefixes.insert ⟨id, calledPrefix, p.priority⟩
            match inserted with
            | none => (.error e, prefixes)
            | some prefixes => (.ok ⟨id, p.calledPrefix, p.priority⟩, prefixes)

def removePrefix (auth : Option AuthData) (id : Int64) (calledPrefix : String) (fault : Option APIError)
    (prefixes : PrefixTable) : Except APIError Unit × PrefixTable :=
  match requireAdmin auth, fault with
  | .error e, _ => (.error e, prefixes)
  | .ok _, some e => (.error e, prefixes)
  | .ok _, none =>
      match prefixes.find (id, calledPrefix) with
      | none => (.error ⟨.NotFound, "prefix not found"⟩, prefixes)
      | some _ => (.ok (), prefixes.delete fun row => row.key = (id, calledPrefix))

-- The first n bytes of a string, unless the cut splits a character.
def takeBytes : Nat → List Char → Option (List Char)
  | 0, _ => some []
  | _ + 1, [] => some []
  | n + 1, c :: rest =>
      if c.utf8Size ≤ n + 1 then (takeBytes (n + 1 - c.utf8Size) rest).map (c :: ·) else none

-- The parameter of PickBLeg's query. PostgreSQL refuses a text that is no valid UTF-8
-- or has a NUL.
def queryPrefix (calledNumber : String) : Option String :=
  (takeBytes 3 calledNumber.toList).bind fun text => if '\x00' ∈ text then none else some (String.ofList text)

def GatewayPrefix.fits (calledNumber : String) (row : GatewayPrefix) : Bool :=
  utf8 row.calledPrefix = (utf8 calledNumber).take 3

-- The join of PickBLeg's query, before it is sorted.
def prefixRows (gateways : GatewayTable) (prefixes : PrefixTable) (calledNumber : String) :
    List (GatewayPrefix × Gateway) :=
  (prefixes.rows.filter (GatewayPrefix.fits calledNumber)).filterMap fun row =>
    ((gateways.find row.gatewayID).filter Gateway.enabled).map fun gw => (row, gw)

structure PickBLegResponse where
  gatewayID : Int64
  name : String
  sipAddress : String
  deriving DecidableEq, Repr

def Gateway.bLegResponse (gw : Gateway) : PickBLegResponse := ⟨gw.id, gw.name, gw.sipAddress⟩

-- The lookups are the answers of the database, one query after the other: none
-- where the gateway is missing and where the query fails.
def followFailover (lookup : Nat → Int64 → Option Gateway) : Nat → Option Int64 → Option PickBLegResponse
  | 0, _ => none
  | _, none => none
  | maxHops + 1, some failoverID =>
      match lookup 0 failoverID with
      | none => none
      | some gw =>
          if gw.healthy && gw.enabled then some gw.bLegResponse
          else followFailover (fun hop => lookup (hop + 1)) maxHops gw.failoverGatewayID

-- What one row of the query yields.
def Gateway.pick (lookup : Nat → Int64 → Option Gateway) (gw : Gateway) : Option PickBLegResponse :=
  if gw.healthy then some gw.bLegResponse else followFailover lookup 3 gw.failoverGatewayID

def pickFirst (lookup : Nat → Nat → Int64 → Option Gateway) : List Gateway → Option PickBLegResponse
  | [] => none
  | gw :: rest =>
      match gw.pick (lookup 0) with
      | some response => some response
      | none => pickFirst (fun place => lookup (place + 1)) rest

def prefixNotFound (calledPrefix : String) : APIError :=
  ⟨.NotFound, "no gateway configured for prefix " ++ calledPrefix⟩

def allUnhealthy (calledPrefix : String) : APIError :=
  ⟨.Unavailable, "all gateways for prefix " ++ calledPrefix ++ " are unhealthy"⟩

-- The query answers with its rows, and with an error that ended them early; or with
-- the error e where it refuses its parameter.
def pickBLeg (lookup : Nat → Nat → Int64 → Option Gateway) (calledNumber : String) (e : APIError)
    (query : Except APIError (List Gateway × Option APIError)) : Except APIError PickBLegResponse :=
  if (utf8 calledNumber).length < 3 then
    .error ⟨.InvalidArgument, "called_number must be at least 3 digits"⟩
  else
    match queryPrefix calledNumber, query with
    | none, _ => .error e
    | some _, .error e => .error e
    | some calledPrefix, .ok (rows, fault) =>
        match pickFirst lookup rows, fault with
        | some response, _ => .ok response
        | none, some e => .error e
        | none, none =>
            if rows = [] then .error (prefixNotFound calledPrefix) else .error (allUnhealthy calledPrefix)

-- The row that AddPrefix stores, where it stores one.
theorem addPrefix_cases {auth : Option AuthData} {id : Int64} {p : AddPrefixParams} {fault : Option APIError}
    {e : APIError} {gateways : GatewayTable} {prefixes after : PrefixTable} {outcome : Except APIError GatewayPrefix}
    (h : addPrefix auth id p fault e gateways prefixes = (outcome, after)) :
    ((∃ e, outcome = .error e) ∧ after = prefixes) ∨
    ∃ gw calledPrefix, requireAdmin auth = .ok () ∧ fault = none ∧ p.calledPrefix ≠ "" ∧
      gateways.find id = some gw ∧ varchar 10 p.calledPrefix = some calledPrefix ∧
        prefixes.insert ⟨id, calledPrefix, p.priority⟩ = some after ∧
          outcome = .ok ⟨id, p.calledPrefix, p.priority⟩ := by
  unfold addPrefix at h
  cases hadmin : requireAdmin auth with
  | error e =>
      rw [hadmin] at h
      cases h
      exact .inl ⟨⟨_, rfl⟩, rfl⟩
  | ok _ =>
      simp only [hadmin] at h
      split at h
      · cases h
        exact .inl ⟨⟨_, rfl⟩, rfl⟩
      · rename_i hnonempty
        cases fault with
        | some e =>
            cases h
            exact .inl ⟨⟨_, rfl⟩, rfl⟩
        | none =>
            cases hfind : gateways.find id with
            | none =>
                simp only [hfind] at h
                cases h
                exact .inl ⟨⟨_, rfl⟩, rfl⟩
            | some gw =>
                simp only [hfind] at h
                split at h
                · cases h
                  exact .inl ⟨⟨_, rfl⟩, rfl⟩
                · rename_i table hinserted
                  obtain ⟨calledPrefix, hvarchar, hinsert⟩ := Option.bind_eq_some_iff.mp hinserted
                  cases h
                  exact .inr ⟨gw, calledPrefix, rfl, rfl, hnonempty, rfl, hvarchar, hinsert, rfl⟩

theorem utf8_append (s t : String) : utf8 (s ++ t) = utf8 s ++ utf8 t := by
  simp [utf8]

theorem utf8_length (s : String) : (utf8 s).length = s.utf8ByteSize := by
  simp [utf8]

theorem length_le_utf8 (s : String) : s.length ≤ (utf8 s).length := by
  obtain ⟨cs, rfl⟩ : ∃ cs, s = String.ofList cs := ⟨s.toList, String.ofList_toList.symm⟩
  induction cs with
  | nil => exact Nat.zero_le _
  | cons c cs ih =>
      have hcons : String.ofList (c :: cs) = String.singleton c ++ String.ofList cs := by
        rw [String.singleton_eq_ofList, ← String.ofList_append]
        rfl
      have hpos : 1 ≤ (utf8 (String.singleton c)).length := by
        rw [utf8_length, String.utf8ByteSize_singleton]
        exact c.utf8Size_pos
      rw [hcons, utf8_append, List.length_append, String.length_append, String.length_singleton]
      omega

theorem utf8_length_eq_sum (s : String) : (utf8 s).length = (s.toList.map Char.utf8Size).sum := by
  obtain ⟨cs, rfl⟩ : ∃ cs, s = String.ofList cs := ⟨s.toList, String.ofList_toList.symm⟩
  rw [String.toList_ofList]
  induction cs with
  | nil => rfl
  | cons c cs ih =>
      have hcons : String.ofList (c :: cs) = String.singleton c ++ String.ofList cs := by
        rw [String.singleton_eq_ofList, ← String.ofList_append]
        rfl
      rw [hcons, utf8_append, List.length_append, utf8_length (String.singleton c),
        String.utf8ByteSize_singleton, ih, List.map_cons, List.sum_cons]

-- The first bytes of a string are a string if they end with a character.
theorem takeBytes_eq_some {n : Nat} {cs ds : List Char} (h : n ≤ (cs.map Char.utf8Size).sum) :
    takeBytes n cs = some ds ↔ ds <+: cs ∧ (ds.map Char.utf8Size).sum = n := by
  induction cs generalizing n ds with
  | nil =>
      cases Nat.le_zero.mp h
      cases ds <;> simp [takeBytes]
  | cons c cs ih =>
      cases n with
      | zero =>
          cases ds with
          | nil => simp [takeBytes]
          | cons d ds =>
              have hpos := d.utf8Size_pos
              simp [takeBytes]
              omega
      | succ n =>
          rw [List.map_cons, List.sum_cons] at h
          cases ds with
          | nil => simp [takeBytes]
          | cons d ds =>
              simp only [takeBytes]
              split
              · rename_i hle
                have ih := @ih (n + 1 - c.utf8Size) ds (by omega)
                simp only [Option.map_eq_some_iff, List.cons.injEq, List.cons_prefix_cons, List.map_cons,
                  List.sum_cons]
                constructor
                · rintro ⟨rest, hrest, rfl, rfl⟩
                  obtain ⟨hprefixed, hsum⟩ := ih.mp hrest
                  exact ⟨⟨rfl, hprefixed⟩, by omega⟩
                · rintro ⟨⟨rfl, hprefixed⟩, hsum⟩
                  exact ⟨ds, ih.mpr ⟨hprefixed, by omega⟩, rfl, rfl⟩
              · rename_i hgt
                simp only [reduceCtorEq, List.cons_prefix_cons, List.map_cons, List.sum_cons, false_iff]
                rintro ⟨⟨rfl, _⟩, hsum⟩
                omega

theorem utf8_eq_append {s p : String} {rest : List UInt8} (h : utf8 s = utf8 p ++ rest) : p.toList <+: s.toList := by
  refine List.isPrefix_of_utf8Encode_append_eq_utf8Encode ⟨rest.toArray⟩ ?_
  rw [String.utf8Encode_toList, String.utf8Encode_toList]
  apply ByteArray.ext
  apply Array.ext'
  simpa [utf8] using h.symm

-- The parameter is the text without NUL whose bytes are the first three, if there is one.
theorem queryPrefix_eq_some {s p : String} (h : 3 ≤ (utf8 s).length) :
    queryPrefix s = some p ↔ utf8 p = (utf8 s).take 3 ∧ '\x00' ∉ p.toList := by
  rw [utf8_length_eq_sum] at h
  have htext : takeBytes 3 s.toList = some p.toList ↔ utf8 p = (utf8 s).take 3 := by
    rw [takeBytes_eq_some h, ← utf8_length_eq_sum]
    constructor
    · rintro ⟨⟨rest, hrest⟩, hlength⟩
      rw [← String.ofList_toList (s := s), ← hrest, String.ofList_append, String.ofList_toList, utf8_append,
        ← hlength, List.take_left]
    · intro htake
      have hsplit : utf8 s = utf8 p ++ (utf8 s).drop 3 := by rw [htake, List.take_append_drop]
      refine ⟨utf8_eq_append hsplit, ?_⟩
      rw [htake, List.length_take, utf8_length_eq_sum]
      omega
  rw [← htext, queryPrefix]
  constructor
  · intro hsome
    obtain ⟨text, htake, hsome⟩ := Option.bind_eq_some_iff.mp hsome
    split at hsome
    · cases hsome
    · rename_i hnul
      cases hsome
      rw [String.toList_ofList]
      exact ⟨htake, hnul⟩
  · rintro ⟨htake, hnul⟩
    rw [htake, Option.bind_some, if_neg hnul, String.ofList_toList]

-- A value that the column takes as it is, or cuts to ten characters.
theorem varchar_cases {n : Nat} {s stored : String} (h : varchar n s = some stored) :
    stored = s ∨ (n < s.length ∧ stored.length = n) := by
  unfold varchar at h
  split at h
  · cases h
  · split at h
    · cases h
      exact .inl rfl
    · rename_i hlong
      split at h
      · cases h
        refine .inr ⟨by omega, ?_⟩
        simp only [String.length_ofList, List.length_take, String.length_toList]
        omega
      · cases h

end Bos3000.Routing
