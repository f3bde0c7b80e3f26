import Bos3000.Lib.PercentEncoding
import Mathlib.Data.List.TakeWhile

-- The queries that the web clients put behind a path, and what the server reads
-- of them once the browser has sent the URL.
namespace Bos3000.Web

open PercentEncoding

-- The quotation mark that a URL's query has only escaped.
def quoteMark : Char := Char.ofNat 39

-- The characters that encodeURIComponent leaves as they are.
def isUnreserved (c : Char) : Bool := c.isAlphanum || c ∈ "-_.!~*()".toList || c = quoteMark

def encodeURIComponent (s : String) : String := String.ofList (escape isUnreserved s.toList)

-- A value of a parameter object.
inductive Value
  | undefined
  | null
  | text (s : String)
  | number (n : Int)
  deriving DecidableEq

-- String(v)
def Value.string : Value → String
  | .undefined => "undefined"
  | .null => "null"
  | .text s => s
  | .number n => toString n

def Value.present (v : Value) : Bool := v ≠ .undefined && v ≠ .null && v ≠ .text ""

-- The object's entries in their order.
def qs (params : List (String × Value)) : String :=
  let parts := (params.filter fun (_, v) => v.present).map fun (k, v) => k ++ "=" ++ encodeURIComponent v.string
  if parts.length ≠ 0 then "?" ++ "&".intercalate parts else ""

-- The URL of the live feed's socket. The admin console connects without a token
-- where it has none.
def wsUrl (protocol host : String) (token : Option String) : String :=
  let url := protocol ++ "//" ++ host ++ "/ws/calls"
  match token with
  | some token => if token = "" then url else url ++ "?token=" ++ encodeURIComponent token
  | none => url

-- The characters that a URL parser leaves as they are in a query.
def isQueryChar (c : Char) : Bool :=
  0x20 < c.toNat && c.toNat < 0x7f && c ∉ ['"', '#', '<', '>', quoteMark]

-- The query of a URL as the browser sends it: what is between the first question
-- mark and the fragment.
def sentQuery (url : String) : Text :=
  escape isQueryChar ((url.toList.takeWhile (· ≠ '#')).dropWhile (· ≠ '?')).tail

-- url.Values.Get
def queryGet (name : String) (query : List (List UInt8 × List UInt8)) : List UInt8 :=
  match query.find? fun pair => pair.1 = utf8 name.toList with
  | some pair => pair.2
  | none => []

-- What both leave as they are.
def isPlain (c : Char) : Bool := isUnreserved c && isQueryChar c

theorem safe_isPlain : Safe isPlain := ⟨by decide, by decide, by decide, by decide, by decide⟩

section Sent

theorem isQueryChar_hex : hexDigits.all isQueryChar = true := by decide

theorem escape_append (keeps : Char → Bool) (s t : Text) : escape keeps (s ++ t) = escape keeps s ++ escape keeps t :=
  List.flatMap_append

theorem escape_of_all {keeps : Char → Bool} {text : Text} (h : text.all keeps = true) : escape keeps text = text := by
  induction text with
  | nil => rfl
  | cons c text ih =>
      obtain ⟨hc, htext⟩ := Bool.and_eq_true_iff.mp h
      have hchar : escapeChar keeps c = [c] := if_pos hc
      rw [escape, List.flatMap_cons, hchar]
      exact congrArg (c :: ·) (ih htext)

theorem escape_escapeByte (b : UInt8) : escape isQueryChar (escapeByte b) = escapeByte b := by
  have hlt := UInt8.toNat_lt b
  have hhex := List.all_eq_true.mp isQueryChar_hex
  have hhigh := hhex _ (hexDigit_mem (b.toNat / 16) (by omega))
  have hlow := hhex _ (hexDigit_mem (b.toNat % 16) (by omega))
  refine escape_of_all ?_
  simp only [escapeByte, List.all_cons, List.all_nil, hhigh, hlow, Bool.and_true]
  decide

theorem escape_escapeBytes (bytes : List UInt8) :
    escape isQueryChar (bytes.flatMap escapeByte) = bytes.flatMap escapeByte := by
  induction bytes with
  | nil => rfl
  | cons b bytes ih => rw [List.flatMap_cons, escape_append, escape_escapeByte, ih]

-- The browser escapes what encodeURIComponent left.
theorem sent_escape (text : Text) : escape isQueryChar (escape isUnreserved text) = escape isPlain text := by
  induction text with
  | nil => rfl
  | cons c text ih =>
      have hchar : escape isQueryChar (escapeChar isUnreserved c) = escapeChar isPlain c := by
        cases hunreserved : isUnreserved c with
        | true =>
            cases hquery : isQueryChar c <;> simp [escapeChar, escape, isPlain, hunreserved, hquery]
        | false =>
            have hplain : isPlain c = false := by simp [isPlain, hunreserved]
            simp only [escapeChar, hunreserved, hplain, Bool.false_eq_true, if_false]
            exact escape_escapeBytes _
      have hunfold : escape isUnreserved (c :: text) = escapeChar isUnreserved c ++ escape isUnreserved text := rfl
      rw [hunfold, escape_append, hchar, ih]
      rfl

end Sent

section Round

-- A path that a query can be put behind.
def isPath (path : String) : Bool := path.toList.all fun c => c ≠ '?' && c ≠ '#'

-- The names of parameters are written as they are.
def named (params : List (String × Value)) : Bool := params.all fun (k, _) => k.toList.all isPlain

def pairs (params : List (String × Value)) : List (Text × Text) :=
  (params.filter fun (_, v) => v.present).map fun (k, v) => (k.toList, v.string.toList)

theorem takeWhile_sent {path : String} (hpath : isPath path = true) {query : Text} (hquery : '#' ∉ query) :
    (((path.toList ++ '?' :: query).takeWhile (· ≠ '#')).dropWhile (· ≠ '?')).tail = query := by
  have hchars := List.all_eq_true.mp hpath
  simp only [Bool.and_eq_true, decide_eq_true_eq] at hchars
  have hall : ∀ c ∈ path.toList ++ '?' :: query, (decide (c ≠ '#')) = true := by
    intro c hc
    rw [decide_eq_true_eq]
    rcases List.mem_append.mp hc with hleft | hright
    · exact (hchars c hleft).2
    · rcases List.mem_cons.mp hright with rfl | hin
      · decide
      · rintro rfl
        exact hquery hin
  rw [List.takeWhile_eq_self_iff.mpr hall]
  rw [List.dropWhile_append_of_pos fun c hc => by simpa using (hchars c hc).1]
  rfl

theorem escape_joinQuery (pieces : List Text) :
    escape isQueryChar (joinQuery pieces) = joinQuery (pieces.map (escape isQueryChar)) := by
  induction pieces with
  | nil => rfl
  | cons first rest ih =>
      cases rest with
      | nil => simp [joinQuery]
      | cons second rest =>
          have hamp : escape isQueryChar ['&'] = ['&'] := by decide
          simp only [joinQuery, List.intercalate_cons_cons, List.map_cons, escape_append, hamp] at ih ⊢
          rw [ih]

-- One pair as it is sent.
theorem sent_pair {key : Text} (hkey : key.all isPlain = true) (value : Text) :
    escape isQueryChar (key ++ '=' :: escape isUnreserved value) = writePair isPlain (key, value) := by
  have hquery : key.all isQueryChar = true :=
    List.all_eq_true.mpr fun c hc => (Bool.and_eq_true_iff.mp (List.all_eq_true.mp hkey c hc)).2
  have hequals : escape isQueryChar ['='] = ['='] := by decide
  have hsplit : '=' :: escape isUnreserved value = ['='] ++ escape isUnreserved value := rfl
  rw [hsplit, escape_append, escape_append, escape_of_all hquery, hequals, sent_escape, writePair,
    escape_of_all hkey]
  rfl

theorem mem_joinQuery {c : Char} {pieces : List Text} (h : c ∈ joinQuery pieces) :
    c = '&' ∨ ∃ piece ∈ pieces, c ∈ piece := by
  induction pieces with
  | nil => cases h
  | cons first rest ih =>
      cases rest with
      | nil => exact .inr ⟨first, List.mem_singleton_self _, by simpa [joinQuery] using h⟩
      | cons second rest =>
          rw [joinQuery, List.intercalate_cons_cons, List.mem_append, List.mem_append] at h
          obtain (hfirst | hamp) | hrest := h
          · exact .inr ⟨first, List.mem_cons_self, hfirst⟩
          · exact .inl (List.mem_singleton.mp hamp)
          · obtain heq | ⟨piece, hpiece, hc⟩ := ih hrest
            · exact .inl heq
            · exact .inr ⟨piece, List.mem_cons_of_mem _ hpiece, hc⟩

def piece (pair : Text × Text) : Text := pair.1 ++ '=' :: escape isUnreserved pair.2

theorem hash_not_mem {all : List (Text × Text)} (hkeys : ∀ pair ∈ all, pair.1.all isPlain = true) :
    '#' ∉ joinQuery (all.map piece) := by
  intro hmem
  obtain heq | ⟨p, hp, hin⟩ := mem_joinQuery hmem
  · cases heq
  · obtain ⟨pair, hpair, rfl⟩ := List.mem_map.mp hp
    rcases List.mem_append.mp hin with hkey | hvalue
    · exact absurd (List.all_eq_true.mp (hkeys pair hpair) '#' hkey) (by decide)
    · rcases List.mem_cons.mp hvalue with heq | hvalue
      · cases heq
      · exact not_mem_escape (by decide) (by decide) (by decide) _ hvalue

theorem join_toList (parts : List String) :
    (if parts.length ≠ 0 then "?" ++ "&".intercalate parts else "").toList =
      if parts = [] then [] else '?' :: joinQuery (parts.map String.toList) := by
  cases parts with
  | nil => rfl
  | cons first rest =>
      rw [if_pos (by simp), if_neg (by simp), String.toList_append, String.toList_intercalate]
      rfl

theorem qs_toList (params : List (String × Value)) :
    (qs params).toList =
      if pairs params = [] then [] else '?' :: joinQuery ((pairs params).map piece) := by
  have hparts : ((params.filter fun (_, v) => v.present).map fun (k, v) => k ++ "=" ++ encodeURIComponent v.string).map
      String.toList = (pairs params).map piece := by
    simp [pairs, piece, encodeURIComponent, Function.comp_def]
  have hempty : ((params.filter fun (_, v) => v.present).map fun (k, v) => k ++ "=" ++ encodeURIComponent v.string) =
      [] ↔
      pairs params = [] := by simp [pairs]
  unfold qs
  rw [join_toList, hparts]
  by_cases hnone : pairs params = []
  · rw [if_pos hnone, if_pos (hempty.mpr hnone)]
  · rw [if_neg hnone, if_neg fun h => hnone (hempty.mp h)]

-- What a query says behind a path.
theorem readQuery_sentQuery {path : String} (hpath : isPath path = true) {all : List (Text × Text)}
    (hkeys : ∀ pair ∈ all, pair.1.all isPlain = true) {url : String}
    (hurl : url.toList = path.toList ++ if all = [] then [] else '?' :: joinQuery (all.map piece)) :
    readQuery (sentQuery url) = all.map fun pair => (utf8 pair.1, utf8 pair.2) := by
  unfold sentQuery
  rw [hurl]
  by_cases hempty : all = []
  · subst hempty
    have hnone : (path.toList.takeWhile (· ≠ '#')).dropWhile (· ≠ '?') = [] := by
      refine List.dropWhile_eq_nil_iff.mpr fun c hc => ?_
      have hchar := List.all_eq_true.mp hpath c ((List.takeWhile_prefix _).subset hc)
      exact (Bool.and_eq_true_iff.mp hchar).1
    rw [if_pos rfl, List.append_nil, hnone]
    rfl
  · rw [if_neg hempty, takeWhile_sent hpath (hash_not_mem hkeys), escape_joinQuery, List.map_map]
    have hsent : all.map (escape isQueryChar ∘ piece) = all.map (writePair isPlain) :=
      List.map_congr_left fun pair hpair => sent_pair (hkeys pair hpair) pair.2
    rw [hsent]
    exact readQuery_joinQuery safe_isPlain all

-- The server reads of a request's URL the parameters that are set, in their
-- order and with the values that they were given.
theorem qs_read {path : String} (hpath : isPath path = true) {params : List (String × Value)}
    (hnamed : named params = true) :
    readQuery (sentQuery (path ++ qs params)) =
      (params.filter fun (_, v) => v.present).map fun (k, v) => (utf8 k.toList, utf8 v.string.toList) := by
  have hkeys : ∀ pair ∈ pairs params, pair.1.all isPlain = true := by
    intro pair hpair
    obtain ⟨⟨k, v⟩, hmem, rfl⟩ := List.mem_map.mp hpair
    exact List.all_eq_true.mp hnamed (k, v) (List.mem_filter.mp hmem).1
  have hurl : (path ++ qs params).toList = path.toList ++
      if pairs params = [] then [] else '?' :: joinQuery ((pairs params).map piece) := by
    rw [String.toList_append, qs_toList]
  rw [readQuery_sentQuery hpath hkeys hurl]
  simp [pairs]

theorem qs_read_search :
    readQuery (sentQuery ("/api/auth/admin/users" ++
      qs [("page", .number 1), ("search", .text "50% & 100=é"), ("status", .undefined)])) =
      [(utf8 "page".toList, utf8 "1".toList), (utf8 "search".toList, utf8 "50% & 100=é".toList)] :=
  @qs_read "/api/auth/admin/users" (by decide)
    [("page", .number 1), ("search", .text "50% & 100=é"), ("status", .undefined)] (by decide +kernel)

-- What a parameter's name stands for.
def given (name : String) (params : List (String × Value)) : List UInt8 :=
  match params.find? fun (k, v) => v.present && k = name with
  | some (_, v) => utf8 v.string.toList
  | none => []

theorem queryGet_read (name : String) (params : List (String × Value)) :
    queryGet name ((params.filter fun (_, v) => v.present).map fun (k, v) => (utf8 k.toList, utf8 v.string.toList)) =
      given name params := by
  unfold queryGet given
  rw [List.find?_map, List.find?_filter]
  have hsame : ∀ x : String × Value,
      decide (x.2.present = true ∧ decide (utf8 x.1.toList = utf8 name.toList) = true) =
      (x.2.present && decide (x.1 = name)) := by
    intro x
    simp [utf8_inj]
  simp only [Function.comp_def, hsame]
  cases params.find? fun x => x.2.present && decide (x.1 = name) <;> rfl

-- What the server reads under a name is what the client gave it.
theorem queryGet_qs {path : String} (hpath : isPath path = true) {params : List (String × Value)}
    (hnamed : named params = true) (name : String) :
    queryGet name (readQuery (sentQuery (path ++ qs params))) = given name params := by
  rw [qs_read hpath hnamed, queryGet_read]

-- The token that the live feed's server reads is the one that the client has.
theorem wsUrl_token {protocol host : String} (hprotocol : isPath protocol = true) (hhost : isPath host = true)
    {token : String} (htoken : token ≠ "") :
    queryGet "token" (readQuery (sentQuery (wsUrl protocol host (some token)))) = utf8 token.toList := by
  have hpath : isPath (protocol ++ "//" ++ host ++ "/ws/calls") = true := by
    have hslashes : isPath "//" = true := by decide
    have hcalls : isPath "/ws/calls" = true := by decide
    unfold isPath at *
    simp only [String.toList_append, List.all_append, hprotocol, hslashes, hhost, hcalls, Bool.and_self]
  have hurl : wsUrl protocol host (some token) =
      protocol ++ "//" ++ host ++ "/ws/calls" ++ qs [("token", .text token)] := by
    have hqs : qs [("token", .text token)] = "?token=" ++ encodeURIComponent token := by
      have hpresent : Value.present (.text token) = true := by simp [Value.present, htoken]
      have hname : "?token=" = "?" ++ ("token" ++ "=") := rfl
      rw [hname]
      simp [qs, hpresent, Value.string, String.append_assoc, -String.reduceAppend]
    rw [hqs, wsUrl]
    simp only [htoken, if_false, String.append_assoc]
  have hpresent : Value.present (.text token) = true := by simp [Value.present, htoken]
  have hnamed : named [("token", .text token)] = true := by
    have hname : ("token".toList.all isPlain) = true := by decide
    simp only [named, List.all_cons, List.all_nil, hname, Bool.and_self]
  rw [hurl, queryGet_qs hpath hnamed]
  simp [given, hpresent, Value.string]

end Round

end Bos3000.Web
