import Bos3000.Auth.KeyValidity
import Bos3000.Auth.Search
import Bos3000.Web.Lists

-- The admin console's list of customers and its search box.
namespace Bos3000.Web

open Auth (Found ListUsersParams Searched User Users ilike likeSigns listUsers)
open PercentEncoding

-- What a page of the customers is asked for with.
structure UsersParams where
  page : Int64
  limit : Int64
  search : Option String
  status : Option String

def UsersParams.entries (p : UsersParams) : List (String × Value) :=
  [("page", .number p.page.toInt), ("limit", .number p.limit.toInt), ("search", .ofOption p.search),
   ("status", .ofOption p.status)]

def listUsersUrl (p : UsersParams) : String := "/api/auth/admin/users" ++ qs p.entries

-- The decoder of requests fills each field from the parameter that its tag names.
structure DecodesUsers (decode : Query → Option ListUsersParams) : Prop where
  page {q : Query} {p : ListUsersParams} (h : decode q = some p) : IsNumber p.page (queryGet "page" q)
  limit {q : Query} {p : ListUsersParams} (h : decode q = some p) : IsNumber p.limit (queryGet "limit" q)
  search {q : Query} {p : ListUsersParams} (h : decode q = some p) : utf8 p.search.toList = queryGet "search" q
  status {q : Query} {p : ListUsersParams} (h : decode q = some p) : utf8 p.status.toList = queryGet "status" q

section Request

theorem usersEntries_named (p : UsersParams) : named p.entries = true := by
  have hnames : (["page", "limit", "search", "status"].all fun k => k.toList.all isPlain) = true := by
    decide +kernel
  simpa [named, UsersParams.entries] using hnames

theorem usersEntries_given (p : UsersParams) :
    given "page" p.entries = utf8 (toString p.page.toInt).toList ∧
      given "limit" p.entries = utf8 (toString p.limit.toInt).toList ∧
      given "search" p.entries = utf8 (p.search.getD "").toList ∧
      given "status" p.entries = utf8 (p.status.getD "").toList := by
  have hlast (name : String) (s : Option String) : given name [(name, .ofOption s)] = utf8 (s.getD "").toList := by
    rw [given_ofOption, given_nil]
    split
    · rename_i hempty
      rw [hempty]
      rfl
    · rfl
  unfold UsersParams.entries
  refine ⟨given_number .., ?_, ?_, ?_⟩
  · rw [given_other (by decide), given_number]
  · rw [given_other (by decide), given_other (by decide), given_ofOption, given_other (by decide), given_nil]
    split
    · rename_i hempty
      rw [hempty]
      rfl
    · rfl
  · rw [given_other (by decide), given_other (by decide), given_other (by decide), hlast]

-- The server gets the request that the console made, whatever is in the search box.
theorem listUsers_decoded {decode : Query → Option ListUsersParams} (hdecode : DecodesUsers decode) (p : UsersParams)
    {params : ListUsersParams} (h : decode (readQuery (sentQuery (listUsersUrl p))) = some params) :
    params = ⟨p.page, p.limit, p.search.getD "", p.status.getD ""⟩ := by
  have hread (name : String) : queryGet name (readQuery (sentQuery (listUsersUrl p))) = given name p.entries :=
    queryGet_qs (by decide +kernel) (usersEntries_named p) name
  obtain ⟨hpage, hlimit, hsearch, hstatus⟩ := usersEntries_given p
  have hpage' : params.page = p.page := (hdecode.page h).2 p.page ((hread "page").trans hpage)
  have hlimit' : params.limit = p.limit := (hdecode.limit h).2 p.limit ((hread "limit").trans hlimit)
  have hsearch' : params.search = p.search.getD "" :=
    utf8_inj.mp ((hdecode.search h).trans ((hread "search").trans hsearch))
  have hstatus' : params.status = p.status.getD "" :=
    utf8_inj.mp ((hdecode.status h).trans ((hread "status").trans hstatus))
  cases params
  simp only at hpage' hlimit' hsearch' hstatus'
  subst hpage' hlimit' hsearch' hstatus'
  rfl

end Request

-- The pages that the console shows of the customers are those of one list, in the order
-- of their ids: of the users in whose email or name the text of the search box is
-- found. A text without signs is found where it stands, upper and lower case alike. The
-- database reads no NUL.
theorem customers_found {decode : Query → Option ListUsersParams} (hdecode : DecodesUsers decode)
    (locale : likeSigns.Folding) {ad : AuthData} (hadmin : ad.role = "admin") (search status : Option String)
    {size : Nat}
    (hsize : 0 < size) (hlimit : size ≤ 100) (hsearch : '\x00' ∉ (search.getD "").toList)
    (hstatus : '\x00' ∉ (status.getD "").toList) (counted users : Users) :
    ∃ before found : List User, Searched locale (search.getD "") (status.getD "") counted before ∧
      Searched locale (search.getD "") (status.getD "") users found ∧
      (∀ i, (i + 1) * size < 2 ^ 63 → ∀ params,
        decode (readQuery (sentQuery (listUsersUrl ⟨Int64.ofNat (i + 1), Int64.ofNat size, search, status⟩))) =
          some params →
          listUsers (ilike locale) (some ad) params (some counted) (some users) =
            .ok ⟨(Paging.page size i found).map User.summary, before.length,
              Int64.ofNat (i + 1), Int64.ofNat size⟩) ∧
      ((List.range (Paging.pages found.length size)).flatMap fun i => Paging.page size i found) = found ∧
      ((∀ c ∈ (search.getD "").toList, c ≠ '%' ∧ c ≠ '_' ∧ c ≠ '\\') → ∀ text,
        Found locale (search.getD "") text ↔
        (search.getD "").toList.map locale.fold <:+: text.toList.map locale.fold) := by
  -- the lists depend on the text and the status only
  let p : ListUsersParams := ⟨0, 0, search.getD "", status.getD ""⟩
  refine ⟨p.found locale counted, p.found locale users, Auth.searched_found p, Auth.searched_found p,
    fun i hbound params h => ?_, Paging.flatMap_pages hsize _, fun hplain => Auth.found_plain hplain⟩
  rw [listUsers_decoded hdecode _ h]
  exact Auth.listUsers_page hadmin hsize hlimit hbound rfl rfl (decide_eq_true ⟨hsearch, hstatus⟩)

-- No lower case letter is an ASCII character before them.
theorem of_toLower_eq {c d : Char} (hd : d.toNat < 97) (h : c.toLower = d) : c = d := by
  unfold Char.toLower at h
  split at h
  · rename_i hupper
    obtain ⟨hlow, hhigh⟩ := hupper
    subst h
    rw [ge_iff_le, UInt32.le_iff_toNat_le] at hlow
    rw [UInt32.le_iff_toNat_le] at hhigh
    have hA : 'A'.val.toNat = 65 := rfl
    have hZ : 'Z'.val.toNat = 90 := rfl
    have hdiff : ('a'.val - 'A'.val).toNat = 32 := rfl
    have hval : (c.val + ('a'.val - 'A'.val)).toNat = c.val.toNat + 32 := by
      rw [UInt32.toNat_add, hdiff]
      omega
    simp only [Char.toNat, hval] at hd
    omega
  · exact h

-- The letter case of the C locale.
def asciiCase : likeSigns.Folding where
  fold := Char.toLower
  fold_sign := by
    rintro c (rfl | rfl | rfl) <;> decide
  sign_of_fold := by
    rintro c (h | h | h)
    · exact .inl (of_toLower_eq (by decide) h)
    · exact .inr (.inl (of_toLower_eq (by decide) h))
    · exact .inr (.inr (of_toLower_eq (by decide) h))

def decodeUsersParams (q : Query) : Option ListUsersParams :=
  (textOf (queryGet "search" q)).bind fun search =>
    (textOf (queryGet "status" q)).map fun status =>
      ⟨numberOf (queryGet "page" q), numberOf (queryGet "limit" q), search, status⟩

theorem decodesUsers_decodeUsersParams : DecodesUsers decodeUsersParams := by
  have hall : ∀ {q : Query} {p : ListUsersParams}, decodeUsersParams q = some p →
      textOf (queryGet "search" q) = some p.search ∧ textOf (queryGet "status" q) = some p.status ∧
        p.page = numberOf (queryGet "page" q) ∧ p.limit = numberOf (queryGet "limit" q) := by
    intro q p h
    obtain ⟨search, hsearch, h⟩ := Option.bind_eq_some_iff.mp h
    obtain ⟨status, hstatus, rfl⟩ := Option.map_eq_some_iff.mp h
    exact ⟨hsearch, hstatus, rfl, rfl⟩
  constructor
  · intro q p h
    obtain ⟨_, _, hpage, _⟩ := hall h
    rw [hpage]
    exact isNumber_numberOf _
  · intro q p h
    obtain ⟨_, _, _, hlimit⟩ := hall h
    rw [hlimit]
    exact isNumber_numberOf _
  · exact fun h => utf8_textOf (hall h).1
  · exact fun h => utf8_textOf (hall h).2.1

-- The request for the first page of a search for a part of a name, in capital letters.
def searchedName : UsersParams := ⟨1, 10, some "LIC", none⟩

theorem decode_searchedName : decodeUsersParams (readQuery (sentQuery (listUsersUrl searchedName))) =
    some ⟨numberOf (given "page" searchedName.entries), numberOf (given "limit" searchedName.entries), "LIC",
    ""⟩ := by
  have hread (name : String) : queryGet name (readQuery (sentQuery (listUsersUrl searchedName))) =
      given name searchedName.entries :=
    queryGet_qs (by decide +kernel) (usersEntries_named searchedName) name
  have hsearch : given "search" searchedName.entries = utf8 "LIC".toList := rfl
  have hstatus : given "status" searchedName.entries = utf8 "".toList := rfl
  simp only [decodeUsersParams, hread, hsearch, hstatus, textOf_utf8, Option.bind_some, Option.map_some]

theorem customers_found_alice : ∃ params response,
    decodeUsersParams (readQuery (sentQuery (listUsersUrl searchedName))) = some params ∧
    listUsers (ilike asciiCase) (some ⟨1, "admin"⟩) params (some Auth.onlyAlice) (some Auth.onlyAlice) =
      .ok response ∧
    response.users = [Auth.alice.summary] := by
  obtain ⟨before, found, _, hfound, hpages, _, hplain⟩ :=
    @customers_found _ decodesUsers_decodeUsersParams asciiCase
    ⟨1, "admin"⟩ rfl (some "LIC") none 10 (by decide) (by decide) (by decide)
      (by decide) Auth.onlyAlice Auth.onlyAlice
  have hletters : ("LIC".toList.all fun c => c ≠ '%' ∧ c ≠ '_' ∧ c ≠ '\\') = true := by decide
  have hname : Found asciiCase "LIC" "alice" :=
    (hplain (fun c hc => of_decide_eq_true (List.all_eq_true.mp hletters c hc)) "alice").mpr (by decide)
  have hmem : Auth.alice ∈ found := (hfound.mem Auth.alice).mpr ⟨List.mem_singleton_self _, .inr hname, .inl rfl⟩
  have honly : ∀ u ∈ found, u = Auth.alice := fun u hu => List.mem_singleton.mp ((hfound.mem u).mp hu).1
  refine ⟨_, _, decode_searchedName, hpages 0 (by decide) _ decode_searchedName, ?_⟩
  have hascending := hfound.ascending
  cases found with
  | nil => cases hmem
  | cons u rest =>
      have hfirst := honly u List.mem_cons_self
      cases rest with
      | nil =>
          rw [hfirst]
          rfl
      | cons v rest =>
          have hlt := (List.pairwise_cons.mp hascending).1 v List.mem_cons_self
          rw [hfirst, honly v (List.mem_cons_of_mem _ List.mem_cons_self)] at hlt
          exact absurd hlt (by decide)

end Bos3000.Web
