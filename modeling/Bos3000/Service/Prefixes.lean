import Bos3000.Billing.Rates
import Bos3000.Routing.BLeg

-- The prefixes that the admin endpoints accept, next to the three bytes that
-- PickBLeg and InitiateCallback cut from a called number.
namespace Bos3000.Service

open Webhook (utf8)
open Routing (utf8_append utf8_length_eq_sum length_le_utf8)

-- The first n bytes of a string as text. What is left of a character that the cut
-- splits is shown as the replacement character, byte by byte.
def cutText : Nat → List Char → List Char
  | _, [] => []
  | n, c :: rest =>
      if c.utf8Size ≤ n then c :: cutText (n - c.utf8Size) rest else List.replicate n '\uFFFD'

-- The prefix for which InitiateCallback asks the billing service.
def calledPrefix (bNumber : String) : String :=
  if (utf8 bNumber).length > 3 then String.ofList (cutText 3 bNumber.toList) else bNumber

-- Both endpoints store the prefix in a column of ten characters.
def Acceptable (p : String) : Prop := p ≠ "" ∧ (varchar 10 p).isSome = true

-- Whatever gateway and plan the prefix was added to, the gateway is a candidate of
-- PickBLeg for the numbers that start with it, and the plan has a rate for them.
def TakesPart (numbers : String → Prop) (p : String) : Prop :=
  ∀ (auth : Option AuthData) (id priority : Int64) (e : APIError) (gateways : Routing.GatewayTable)
    (prefixes prefixes' : Routing.PrefixTable) (added : Routing.GatewayPrefix) (gw : Routing.Gateway)
    (auth' : Option AuthData) (planID : Int64) (a b : Money) (e' : String) (rates rates' : Billing.Rates)
    (rate : Billing.PrefixRate) (plan : Billing.RatePlan) (userID : UserID) (config : Billing.RateConfig)
    (number : String),
    Routing.addPrefix auth id ⟨p, priority⟩ none e gateways prefixes = (.ok added, prefixes') →
    gateways.find id = some gw → gw.enabled = true → gw.healthy = true →
    Billing.addPrefixRate auth' planID ⟨p, a, b⟩ none e' rates = (.ok rate, rates') →
    rates.plans.find planID = some plan → plan.mode = "prefix" →
    rates.configs.find userID = some config → config.ratePlanID = some planID →
    config.aLegRate = none ∨ config.bLegRate = none →
    numbers number → (∃ rest, number = p ++ rest) → 3 ≤ (utf8 number).length →
      (∃ row, (row, gw) ∈ Routing.prefixRows gateways prefixes' number) ∧
        ∃ response, Billing.resolveRate none none none ⟨userID, calledPrefix number⟩ rates' = .ok response

def isDigits (number : String) : Prop := number.toList.all Char.isDigit = true

-- A cut that falls between two characters.
theorem cutText_append (cs rest : List Char) :
    cutText (cs.map Char.utf8Size).sum (cs ++ rest) = cs := by
  induction cs with
  | nil =>
      cases rest with
      | nil => rfl
      | cons c rest =>
          have hpos := c.utf8Size_pos
          simp [cutText]
          omega
  | cons c cs ih =>
      simp [cutText, ih]

theorem eq_empty_of_utf8 {s : String} (h : (utf8 s).length = 0) : s = "" := by
  have hle := length_le_utf8 s
  have hzero : s.length = 0 := by omega
  exact String.length_eq_zero_iff.mp hzero

-- InitiateCallback cuts a number that starts with a prefix of three bytes to it.
theorem calledPrefix_append {p rest : String} (hlength : (utf8 p).length = 3) :
    calledPrefix (p ++ rest) = p := by
  unfold calledPrefix
  split
  · have hcut := cutText_append p.toList rest.toList
    rw [← utf8_length_eq_sum, hlength] at hcut
    rw [String.toList_append, hcut, String.ofList_toList]
  · rename_i hshort
    rw [utf8_append, List.length_append, hlength] at hshort
    have hempty : rest = "" := eq_empty_of_utf8 (by omega)
    rw [hempty, String.append_empty]

-- A stored value of three bytes is the value that was given.
theorem stored_eq {p stored : String} (hvarchar : varchar 10 p = some stored)
    (hlength : (utf8 p).length = 3 ∨ (utf8 stored).length = 3) : stored = p := by
  obtain hsame | ⟨hlong, hten⟩ := Routing.varchar_cases hvarchar
  · exact hsame
  · have hp := length_le_utf8 p
    have hstored := length_le_utf8 stored
    omega

-- The row that AddPrefixRate stores.
theorem addPrefixRate_ok {auth : Option AuthData} {id : Int64} {p : Billing.AddPrefixRateParams}
    {fault : Option String} {e : String} {rates after : Billing.Rates} {rate : Billing.PrefixRate}
    (h : Billing.addPrefixRate auth id p fault e rates = (.ok rate, after)) :
    ∃ stored, varchar 10 p.calledPrefix = some stored ∧ rate = ⟨id, stored, p.aRate, p.bRate⟩ ∧
      after.plans = rates.plans ∧ after.configs = rates.configs ∧
      rates.prefixes.insert rate = some after.prefixes := by
  unfold Billing.addPrefixRate at h
  cases hadmin : Billing.requireAdmin auth with
  | error e =>
      rw [hadmin] at h
      cases h
  | ok _ =>
      simp only [hadmin] at h
      split at h
      · cases h
      · split at h
        · cases h
        · cases h
        · rename_i row prefixes hinserted
          cases h
          obtain ⟨_, _, hinserted⟩ := Option.bind_eq_some_iff.mp hinserted
          obtain ⟨stored, hvarchar, hinserted⟩ := Option.bind_eq_some_iff.mp hinserted
          obtain ⟨table, hinsert, heq⟩ := Option.map_eq_some_iff.mp hinserted
          cases heq
          exact ⟨stored, hvarchar, rfl, rfl, rfl, hinsert⟩

-- A prefix of three bytes is the one that both lookups cut from the number.
theorem takesPart_of_three {p : String} (hlength : (utf8 p).length = 3) (numbers : String → Prop) :
    TakesPart numbers p := by
  rintro auth id priority e gateways prefixes prefixes' added gw auth' planID a b e' rates rates' rate plan userID
    config number hadded hgw henabled _ hrate hplan hmode hconfig hplanID hrates _ ⟨rest, rfl⟩ _
  constructor
  · obtain ⟨⟨_, herror⟩, _⟩ | ⟨gw', stored, _, _, _, _, hvarchar, hinsert, _⟩ :=
      Routing.addPrefix_cases hadded
    · cases herror
    · refine ⟨⟨id, stored, priority⟩, ?_⟩
      have hstored := stored_eq hvarchar (.inl hlength)
      have hcut : utf8 stored = (utf8 (p ++ rest)).take 3 := by
        rw [hstored, utf8_append, ← hlength, List.take_left]
      have hfits : Routing.GatewayPrefix.fits (p ++ rest) ⟨id, stored, priority⟩ = true := decide_eq_true hcut
      rw [Routing.prefixRows, List.mem_filterMap]
      refine ⟨_, List.mem_filter.mpr ⟨?_, hfits⟩, ?_⟩
      · rw [(Table.insert_eq_some hinsert).1]
        exact List.mem_append_right _ (List.mem_singleton_self _)
      · simp [hgw, henabled]
  · obtain ⟨stored, hvarchar, rfl, hplans, hconfigs, hinsert⟩ := addPrefixRate_ok hrate
    have hstored := stored_eq hvarchar (.inl hlength)
    have hfind := Table.find_insert hinsert (planID, p)
    rw [if_pos (by rw [hstored]; rfl)] at hfind
    have hplanKey : plan.id = planID := (Table.find_eq_some.mp hplan).2
    refine ⟨⟨a, b, "plan_prefix"⟩, ?_⟩
    obtain ⟨configUser, configPlan, aLegRate, bLegRate⟩ := config
    simp only at hplanID hrates
    subst hplanID
    rw [calledPrefix_append hlength]
    have hresolve : plan.resolve rates' p none = some ⟨a, b, "plan_prefix"⟩ := by
      simp [Billing.RatePlan.resolve, hmode, hplanKey, hfind]
    rcases hrates with rfl | rfl
    · simp only [Billing.resolveRate, hconfigs, hplans, hconfig, hplan, hresolve]
    · cases aLegRate <;> simp only [Billing.resolveRate, hconfigs, hplans, hconfig, hplan, hresolve]

-- A prefix of any other length, alone on a gateway and a plan.
theorem not_takesPart {p : String} (hacceptable : Acceptable p) (hlength : (utf8 p).length ≠ 3)
    {numbers : String → Prop} (hnumbers : numbers (p ++ "000")) : ¬TakesPart numbers p := by
  intro h
  obtain ⟨hnonempty, hsome⟩ := hacceptable
  obtain ⟨stored, hvarchar⟩ := Option.isSome_iff_exists.mp hsome
  let gw : Routing.Gateway := ⟨1, "trunk", .b_leg, "10.0.0.1:5060", 1, true, true, none, 0, 3⟩
  let gateways : Routing.GatewayTable := ⟨[gw], List.nodup_singleton _⟩
  let rates : Billing.Rates :=
    ⟨⟨[⟨1, "basic", "prefix", none, none⟩], List.nodup_singleton _⟩, .empty,
      ⟨[⟨7, some 1, none, none⟩], List.nodup_singleton _⟩⟩
  have hadded : Routing.addPrefix (some ⟨1, "admin"⟩) 1 ⟨p, 0⟩ none ⟨.Unknown, ""⟩ gateways .empty =
      (.ok ⟨1, p, 0⟩, ⟨[⟨1, stored, 0⟩], List.nodup_singleton _⟩) := by
    simp [Routing.addPrefix, Routing.requireAdmin, hnonempty, hvarchar, gateways, gw, Table.find, Table.insert,
      Table.empty]
  have hrate : Billing.addPrefixRate (some ⟨1, "admin"⟩) 1 ⟨p, 60, 120⟩ none "" rates =
      (.ok ⟨1, stored, 60, 120⟩,
      { rates with prefixes := ⟨[⟨1, stored, 60, 120⟩], List.nodup_singleton _⟩ }) := by
    simp [Billing.addPrefixRate, Billing.requireAdmin, hnonempty, hvarchar, rates, Table.find, Table.insert,
      Table.empty]
  have hthree : 3 ≤ (utf8 (p ++ "000")).length := by
    rw [utf8_append, List.length_append]
    have hzeros : (utf8 "000").length = 3 := by decide +kernel
    omega
  obtain ⟨⟨row, hrow⟩, _⟩ := h (some ⟨1, "admin"⟩) 1 0 ⟨.Unknown, ""⟩ gateways .empty _ _ gw
    (some ⟨1, "admin"⟩) 1 60 120 "" rates _ _ ⟨1, "basic", "prefix", none, none⟩ 7 ⟨7, some 1, none, none⟩
    (p ++ "000") hadded (by rfl) rfl rfl hrate (by rfl) rfl (by rfl) rfl (.inl rfl) hnumbers ⟨"000", rfl⟩ hthree
  rw [Routing.prefixRows, List.mem_filterMap] at hrow
  obtain ⟨found, hfound, _⟩ := hrow
  obtain ⟨hmem, hfits⟩ := List.mem_filter.mp hfound
  rw [List.mem_singleton] at hmem
  subst hmem
  have hcut : utf8 stored = (utf8 (p ++ "000")).take 3 := of_decide_eq_true hfits
  have hstoredLength : (utf8 stored).length = 3 := by
    rw [hcut, List.length_take]
    omega
  rw [stored_eq hvarchar (.inr hstoredLength)] at hstoredLength
  exact hlength hstoredLength

theorem takesPart_of_unacceptable {p : String} (hunacceptable : ¬Acceptable p) (numbers : String → Prop) :
    TakesPart numbers p := by
  intro auth id priority e gateways prefixes prefixes' added gw auth' planID a b e' rates rates' rate plan userID
    config number hadded
  obtain ⟨⟨_, herror⟩, _⟩ | ⟨_, stored, _, _, hnonempty, _, hvarchar, _⟩ := Routing.addPrefix_cases hadded
  · cases herror
  · exact absurd ⟨hnonempty, Option.isSome_iff_exists.mpr ⟨stored, hvarchar⟩⟩ hunacceptable

-- Of the prefixes that the endpoints accept, those of three bytes take part,
-- whether numbers are any strings or strings of digits.
theorem takesPart_iff (p : String) :
    (TakesPart (fun _ => True) p ↔ (Acceptable p → (utf8 p).length = 3)) ∧
      (isDigits p → (TakesPart isDigits p ↔ (Acceptable p → (utf8 p).length = 3))) := by
  have hiff : ∀ numbers : String → Prop, numbers (p ++ "000") →
      (TakesPart numbers p ↔ (Acceptable p → (utf8 p).length = 3)) := by
    intro numbers hnumbers
    constructor
    · intro htakes hacceptable
      by_contra hlength
      exact not_takesPart hacceptable hlength hnumbers htakes
    · intro hthree
      by_cases hacceptable : Acceptable p
      · exact takesPart_of_three (hthree hacceptable) numbers
      · exact takesPart_of_unacceptable hacceptable numbers
  refine ⟨hiff _ trivial, fun hdigits => hiff _ ?_⟩
  rw [isDigits, String.toList_append, List.all_append, hdigits]
  rfl

-- The area code of a fixed line has four digits.
theorem not_takesPart_four : Acceptable "0571" ∧ ¬TakesPart isDigits "0571" := by
  have hacceptable : Acceptable "0571" := ⟨by decide, by decide⟩
  exact ⟨hacceptable, not_takesPart hacceptable (by decide +kernel) (by rw [isDigits]; decide +kernel)⟩

end Bos3000.Service
