import Bos3000.Auth.Users
import Bos3000.Lib.Like
import Bos3000.Lib.Select
import Bos3000.Listing

-- The search for users: which users a text finds, and on which pages they are.
namespace Bos3000.Auth

-- The signs of the database's LIKE.
def likeSigns : Like.Signs Char := ⟨'%', '_', '\\', by decide, by decide, by decide⟩

-- ILIKE puts the text and the pattern into lower case first, as the database's locale
-- has it. A pattern that ends in an escape would be refused.
def ilike (locale : likeSigns.Folding) (text pattern : String) : Bool :=
  (likeSigns.like (pattern.toList.map locale.fold) (text.toList.map locale.fold)).getD false

-- What a text of the search box finds.
def Found (locale : likeSigns.Folding) (search text : String) : Prop :=
  likeSigns.Finds (search.toList.map locale.fold) (text.toList.map locale.fold)

section Search

variable {locale : likeSigns.Folding}

-- The search is put between two signs, so that its pattern is never refused.
theorem ilike_iff (search text : String) : ilike locale text ("%" ++ search ++ "%") = true ↔
    Found locale search text := by
  have hmany : locale.fold '%' = '%' := locale.fold_sign '%' (.inl rfl)
  have hpattern : ("%" ++ search ++ "%").toList.map locale.fold =
      likeSigns.many :: search.toList.map locale.fold ++ [likeSigns.many] := by
    simp [likeSigns, hmany]
  obtain ⟨found, hlike, hfound⟩ := @Like.like_around _ likeSigns (search.toList.map locale.fold)
    (text.toList.map locale.fold) _
  rw [ilike, hpattern, hlike]
  exact hfound

theorem found_plain {search : String} (hplain : ∀ c ∈ search.toList, c ≠ '%' ∧ c ≠ '_' ∧ c ≠ '\\')
    (text : String) :
    Found locale search text ↔ search.toList.map locale.fold <:+: text.toList.map locale.fold := by
  refine Like.finds_folded locale fun c hc hsign => ?_
  obtain ⟨hmany, hone, hescape⟩ := hplain c hc
  rcases hsign with rfl | rfl | rfl
  · exact hmany rfl
  · exact hone rfl
  · exact hescape rfl

end Search

-- The users of a list in the order of their ids.
def ListUsersParams.found (locale : likeSigns.Folding) (p : ListUsersParams) (users : Users) : List User :=
  users.select (p.selects (ilike locale))

-- What a search for a text and a status is to list of the users.
structure Searched (locale : likeSigns.Folding) (search status : String) (users : Users)
    (found : List User) : Prop where
  ascending : found.Pairwise fun u v => u.id < v.id
  mem : ∀ u, u ∈ found ↔ u ∈ users.rows ∧ (Found locale search u.email ∨ Found locale search u.username) ∧
    (status = "" ∨ u.status.text = status)

section Pages

variable {locale : likeSigns.Folding} {users counted : Users} {search status : String}

theorem searched_found (p : ListUsersParams) : Searched locale p.search p.status users (p.found locale users) where
  ascending := Table.select_ascending
  mem u := by
    rw [ListUsersParams.found, Table.mem_select, ListUsersParams.selects]
    simp only [Bool.and_eq_true, Bool.or_eq_true, decide_eq_true_eq, ilike_iff]

theorem limitOf_eq {p : ListUsersParams} (hlow : 0 < p.limit.toInt) (hhigh : p.limit.toInt ≤ 100) :
    p.limitOf = p.limit := by
  refine if_neg ?_
  rw [not_or, Int64.le_iff_toInt_le, Int64.lt_iff_toInt_lt, show (0 : Int64).toInt = 0 from rfl,
    show (100 : Int64).toInt = 100 from rfl]
  omega

theorem pageOf_eq {p : ListUsersParams} (hpage : 0 < p.page.toInt) : p.pageOf = p.page := by
  refine if_neg ?_
  rw [Int64.le_iff_toInt_le, show (0 : Int64).toInt = 0 from rfl]
  omega

-- A page of the list.
theorem listUsers_page {ad : AuthData} (hadmin : ad.role = "admin") {size : Nat} (hsize : 0 < size)
    (hlimit : size ≤ 100)
    {i : Nat} (hbound : (i + 1) * size < 2 ^ 63) {p : ListUsersParams} (hpage : p.page = Int64.ofNat (i + 1))
    (hp : p.limit = Int64.ofNat size) (hreadable : p.readable = true) :
    listUsers (ilike locale) (some ad) p (some counted) (some users) =
      .ok ⟨(Paging.page size i (p.found locale users)).map User.summary, (p.found locale counted).length, p.page,
        p.limit⟩ := by
  have hindex : i + 1 ≤ (i + 1) * size := Nat.le_mul_of_pos_right _ hsize
  have hpageInt : p.page.toInt = (i + 1 : Nat) := by
    rw [hpage, Int64.toInt_ofNat_of_lt (by omega)]
  have hlimitInt : p.limit.toInt = size := by
    rw [hp, Int64.toInt_ofNat_of_lt (by omega)]
  have hadmitted : requireAdmin (some ad) = .ok () := by simp [requireAdmin, hadmin]
  have hpages : i < Paging.pages ((i + 1) * size) size := by
    have hdiv := Paging.div_lt_pages hsize (show i * size < (i + 1) * size by rw [Nat.succ_mul]; omega)
    rwa [Nat.mul_div_cancel _ hsize] at hdiv
  obtain ⟨hoffset, hfits⟩ := offset_of_page hsize hbound hpages
  have hpageOf : p.pageOf = p.page := pageOf_eq (by omega)
  have hlimitOf : p.limitOf = p.limit := limitOf_eq (by omega) (by omega)
  have hstart : (p.page - 1) * p.limit = Int64.ofNat (i * size) := by
    have hmax : Bos3000.pageOf (Int64.ofNat (i + 1)) = Int64.ofNat (i + 1) :=
      pageOf_of_pos (by rw [Int64.toInt_ofNat_of_lt (by omega)]; omega)
    rw [hpage, hp, ← hoffset, hmax]
  have hnonneg : ¬ Int64.ofNat (i * size) < 0 := Int64.not_lt.mpr (Int64.zero_le_ofNat_of_lt hfits)
  have hsizeNat : p.limit.toNatClampNeg = size := by
    rw [Int64.toNatClampNeg, hlimitInt]
    rfl
  have htotal : (p.found locale counted).length = (counted.rows.filter (p.selects (ilike locale))).length :=
    Table.length_select
  simp only [listUsers, hadmitted, hreadable, Option.filter_some, if_true, queryUserSummaries, hpageOf, hlimitOf,
    hstart, if_neg hnonneg,
    Int64.toNatClampNeg_ofNat_of_lt hfits, hsizeNat, htotal]
  rfl

end Pages

end Bos3000.Auth
