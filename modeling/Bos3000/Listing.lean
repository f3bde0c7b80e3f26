import Mathlib.Algebra.Group.Nat.Defs
import Bos3000.Lib.ExactInt64
import Bos3000.Lib.Paging
import Bos3000.Types

-- The list endpoints: what their queries need of the database, and what their pages
-- come to together.
namespace Bos3000

-- How the database reads a time in a text, or refuses to, the order by creation time in
-- which it lists rows, and how it refuses a text with the character 0 and a negative
-- OFFSET.
structure Listing (ρ : Type) where
  timestamptz : String → Except String Time
  newestFirst : List ρ → List ρ
  invalidText : String
  negativeOffset : String

section Queries

variable {ρ : Type}

def Listing.readText (db : Listing ρ) (text : String) : Except String String :=
  if '\x00' ∈ text.toList then .error db.invalidText else .ok text

-- The rows that pass all the tests of a WHERE clause. A query fails where the database
-- does, or where it cannot read an argument.
def selectTests (fault : Option String) (tests : List (Except String (ρ → Bool))) (rows : List ρ) :
    Except String (List ρ) :=
  match fault with
  | some e => .error e
  | none => (tests.mapM id).map fun tests => rows.filter fun row => tests.all fun test => test row

-- LIMIT ... OFFSET ... A negative OFFSET fails before the first row.
def limitOffset (limit offset : Int64) (listed : List ρ) : List ρ :=
  if offset < 0 then [] else (listed.drop offset.toNatClampNeg).take limit.toNatClampNeg

-- How the query of a page fails besides: it is refused, or its rows break off after the
-- first n.
inductive PageFault
  | refused (e : String)
  | broken (n : Nat)
  deriving DecidableEq, Repr

def received (fault : Option PageFault) (page : List ρ) : List ρ :=
  match fault with
  | some (.broken n) => page.take n
  | _ => page

-- What db.Query and the loop over rows.Next() come to where rows.Err() is not read: an
-- error that ends the rows early is lost.
def Listing.readPage (db : Listing ρ) (fault : Option PageFault) (limit offset : Int64)
    (found : Except String (List ρ)) : Except String (List ρ) :=
  match fault, found with
  | some (.refused e), _ => .error e
  | _, .error _ => .ok []
  | fault, .ok found => .ok (received fault (limitOffset limit offset (db.newestFirst found)))

@[simp]
theorem readPage_none (db : Listing ρ) (limit offset : Int64) (found : List ρ) :
    db.readPage none limit offset (.ok found) = .ok (limitOffset limit offset (db.newestFirst found)) := rfl

theorem mem_of_limitOffset {limit offset : Int64} {listed : List ρ} {row : ρ}
    (h : row ∈ limitOffset limit offset listed) :
    row ∈ listed := by
  unfold limitOffset at h
  split at h
  · cases h
  · exact List.mem_of_mem_drop (List.mem_of_mem_take h)

theorem mem_of_received {fault : Option PageFault} {page : List ρ} {row : ρ} (h : row ∈ received fault page) :
    row ∈ page := by
  unfold received at h
  split at h
  · exact List.mem_of_mem_take h
  · exact h

-- A page shows rows that were selected.
theorem mem_of_readPage {db : Listing ρ} {fault : Option PageFault} {limit offset : Int64}
    {selected : Except String (List ρ)} {listed : List ρ} (h : db.readPage fault limit offset selected = .ok listed)
    {row : ρ} (hrow : row ∈ listed) : ∃ found, selected = .ok found ∧ row ∈ db.newestFirst found := by
  unfold Listing.readPage at h
  split at h
  · cases h
  · cases h
    cases hrow
  · rename_i found _
    cases h
    exact ⟨found, rfl, mem_of_limitOffset (mem_of_received hrow)⟩

theorem selectTests_sublist {fault : Option String} {tests : List (Except String (ρ → Bool))} {rows found : List ρ}
    (h : selectTests fault tests rows = .ok found) : found.Sublist rows := by
  unfold selectTests at h
  split at h
  · cases h
  · cases htests : tests.mapM id with
    | error e =>
        rw [htests] at h
        cases h
    | ok tests =>
        rw [htests] at h
        cases h
        exact List.filter_sublist

-- A list that shows of each row what tells it apart repeats none of its items.
theorem nodup_items {σ κ : Type} {fault : Option String} {tests : List (Except String (ρ → Bool))}
    {rows matching : List ρ} {key : ρ → κ} (hdistinct : (rows.map key).Nodup)
    (hmatching : selectTests fault tests rows = .ok matching) {f : ρ → σ} {shown : σ → κ}
    (hshown : ∀ row, shown (f row) = key row) : (matching.map f).Nodup := by
  refine List.Nodup.of_map shown ?_
  have hkey : shown ∘ f = key := funext hshown
  rw [List.map_map, hkey]
  exact hdistinct.sublist ((selectTests_sublist hmatching).map key)

def pageOf (page : Int64) : Int64 := max page 1

def pageSizeOf (pageSize : Int64) : Int64 := if pageSize < 1 ∨ 100 < pageSize then 20 else pageSize

-- The items of an answer, none of an error.
def itemsOf {ε β σ : Type} (items : β → List σ) : Except ε β → List σ
  | .ok response => items response
  | .error _ => []

-- What is asked of ORDER BY created_at DESC.
def NewestFirst (created : ρ → Time) (order : List ρ → List ρ) : Prop :=
  ∀ rows, Paging.Newest created rows (order rows)

end Queries

section Pages

variable {ρ σ : Type}

-- The pages of a list together, where `answer` gives the items of a page that the
-- database lists in an order.
structure Paginates (created : ρ → Time) (matching : List ρ) (f : ρ → σ) (size : Int64)
    (answer : (List ρ → List ρ) → Int64 → List σ) : Prop where
  partition : ∀ orders : Nat → List ρ → List ρ, (∀ i, NewestFirst created (orders i)) →
    ((List.range (Paging.pages matching.length size.toNatClampNeg)).flatMap fun i =>
      answer (orders i) (Int64.ofNat (i + 1))).Perm (matching.map f)
  beyond : ∀ order, NewestFirst created order → ∀ page : Int64,
    Paging.pages matching.length size.toNatClampNeg < page.toInt → answer order page = []

-- The condition on the rows and on the size of a page: no two pages share a time, and
-- the offset of no page beyond the last wraps around to one of the rows.
structure PagesApart (created : ρ → Time) (matching : List ρ) (size : Int64) : Prop where
  undivided : Paging.Undivided created matching size.toNatClampNeg
  unwrapped : ∀ page : Int64, Paging.pages matching.length size.toNatClampNeg < page.toInt →
    (page - 1) * size < 0 ∨ matching.length ≤ ((page - 1) * size).toNatClampNeg

theorem pageSizeOf_bounds (pageSize : Int64) : 0 < (pageSizeOf pageSize).toNatClampNeg ∧
    Int64.ofNat (pageSizeOf pageSize).toNatClampNeg = pageSizeOf pageSize := by
  have hbounds : 1 ≤ (pageSizeOf pageSize).toInt := by
    unfold pageSizeOf
    split
    · decide
    · rename_i hout
      rw [not_or, Int64.lt_iff_toInt_lt, Int64.lt_iff_toInt_lt, show (1 : Int64).toInt = 1 from rfl] at hout
      omega
  refine ⟨?_, Int64.ofNat_toNatClampNeg _ ?_⟩
  · rw [Int64.toNatClampNeg]
    omega
  · rw [Int64.le_iff_toInt_le, show (0 : Int64).toInt = 0 from rfl]
    omega

theorem pageOf_of_pos {page : Int64} (h : 0 < page.toInt) : pageOf page = page := by
  change (if page ≤ 1 then 1 else page) = page
  split
  · rename_i hle
    rw [Int64.le_iff_toInt_le, show (1 : Int64).toInt = 1 from rfl] at hle
    apply Int64.toInt_inj.mp
    rw [show (1 : Int64).toInt = 1 from rfl]
    omega
  · rfl

-- The pages up to the last have the offsets that they should.
theorem offset_of_page {n size i : Nat} (hsize : 0 < size) (hn : n < 2 ^ 63) (hi : i < Paging.pages n size) :
    (pageOf (Int64.ofNat (i + 1)) - 1) * Int64.ofNat size = Int64.ofNat (i * size) ∧ i * size < 2 ^ 63 := by
  have hlast : i * size < n := by
    have hmul := (Nat.le_div_iff_mul_le hsize).mp (Nat.succ_le_of_lt hi)
    rw [Nat.succ_mul] at hmul
    omega
  have hle : i ≤ i * size := Nat.le_mul_of_pos_right i hsize
  have hpage : pageOf (Int64.ofNat (i + 1)) = Int64.ofNat (i + 1) := by
    refine pageOf_of_pos ?_
    rw [Int64.toInt_ofNat_of_lt (by omega)]
    omega
  have hindex : Int64.ofNat (i + 1) - 1 = Int64.ofNat i := by
    rw [Int64.ofNat_add]
    exact Int64.add_sub_cancel _ _
  exact ⟨by rw [hpage, hindex, Int64.ofNat_mul], by omega⟩

theorem exists_newestFirst (created : ρ → Time) : ∃ order, NewestFirst created order :=
  ⟨fun rows => (Paging.exists_newest created rows).choose,
    fun rows => (Paging.exists_newest created rows).choose_spec⟩

-- On pages of one row nothing wraps around.
theorem unwrapped_one {n : Nat} {page : Int64} (h : Paging.pages n 1 < page.toInt) :
    (page - 1) * 1 < 0 ∨ n ≤ ((page - 1) * 1).toNatClampNeg := by
  have hpages : Paging.pages n 1 = n := by simp [Paging.pages]
  have hindex : (page - 1).toInt = page.toInt - 1 := by
    refine (ExactInt64.toInt_sub ?_).trans rfl
    have hbounds := ExactInt64.fits_toInt page
    rw [show (1 : Int64).toInt = 1 from rfl]
    exact ⟨by omega, by unfold ExactInt64.Fits at hbounds; omega⟩
  right
  rw [Int64.mul_one, Int64.toNatClampNeg, hindex]
  omega

-- Only the orders that the database may list in count.
theorem Paginates.congr {created : ρ → Time} {matching : List ρ} {f : ρ → σ} {size : Int64}
    {answer other : (List ρ → List ρ) → Int64 → List σ}
    (h : ∀ order, NewestFirst created order → ∀ page, answer order page = other order page)
    (hpages : Paginates created matching f size other) : Paginates created matching f size answer := by
  refine ⟨fun orders horders => ?_, fun order horder page hpage => ?_⟩
  · have hsame : (fun i => answer (orders i) (Int64.ofNat (i + 1))) = fun i => other (orders i)
      (Int64.ofNat (i + 1)) :=
      funext fun i => h (orders i) (horders i) _
    rw [hsame]
    exact hpages.partition orders horders
  · rw [h order horder page]
    exact hpages.beyond order horder page hpage

section Answer

variable {created : ρ → Time} {matching : List ρ} {f : ρ → σ} {pageSize : Int64}
  {answer : (List ρ → List ρ) → Int64 → List σ}

theorem answer_page (hbound : matching.length < 2 ^ 63)
    (hanswer : ∀ order page, answer order page =
      (limitOffset (pageSizeOf pageSize) ((pageOf page - 1) * pageSizeOf pageSize) (order matching)).map f)
    (order : List ρ → List ρ) {i : Nat}
    (hi : i < Paging.pages matching.length (pageSizeOf pageSize).toNatClampNeg) :
    answer order (Int64.ofNat (i + 1)) =
      (Paging.page (pageSizeOf pageSize).toNatClampNeg i (order matching)).map f := by
  obtain ⟨hsize, hback⟩ := pageSizeOf_bounds pageSize
  obtain ⟨hoffset, hfits⟩ := offset_of_page hsize hbound hi
  rw [hback] at hoffset
  have hnonneg : ¬ Int64.ofNat (i * (pageSizeOf pageSize).toNatClampNeg) < 0 :=
    Int64.not_lt.mpr (Int64.zero_le_ofNat_of_lt hfits)
  rw [hanswer, hoffset, limitOffset, if_neg hnonneg, Int64.toNatClampNeg_ofNat_of_lt hfits]
  rfl

-- An offset that has wrapped to a negative number shows nothing either.
theorem answer_eq_nil
    (hanswer : ∀ order page, answer order page =
      (limitOffset (pageSizeOf pageSize) ((pageOf page - 1) * pageSizeOf pageSize) (order matching)).map f)
    {order : List ρ → List ρ} (horder : NewestFirst created order) {page : Int64} (hpos : 0 < page.toInt) :
    answer order page = [] ↔ (page - 1) * pageSizeOf pageSize < 0 ∨
      matching.length ≤ ((page - 1) * pageSizeOf pageSize).toNatClampNeg := by
  obtain ⟨hsize, _⟩ := pageSizeOf_bounds pageSize
  rw [hanswer, pageOf_of_pos hpos, limitOffset]
  split
  · rename_i hnegative
    simp [hnegative]
  · rename_i hnonneg
    rw [List.map_eq_nil_iff, List.take_eq_nil_iff, List.drop_eq_nil_iff, (horder matching).1.length_eq,
      or_iff_right (Nat.ne_of_gt hsize), or_iff_right hnonneg]

end Answer

-- Every endpoint that answers with the rows from an offset on.
theorem paginates_iff {created : ρ → Time} {matching : List ρ} {f : ρ → σ} {pageSize : Int64}
    {answer : (List ρ → List ρ) → Int64 → List σ} (hnodup : (matching.map f).Nodup)
    (hbound : matching.length < 2 ^ 63)
    (hanswer : ∀ order page, answer order page =
      (limitOffset (pageSizeOf pageSize) ((pageOf page - 1) * pageSizeOf pageSize) (order matching)).map f) :
    Paginates created matching f (pageSizeOf pageSize) answer ↔
      PagesApart created matching (pageSizeOf pageSize) := by
  obtain ⟨hsize, _⟩ := pageSizeOf_bounds pageSize
  have hpages : ∀ orders : Nat → List ρ → List ρ,
      ((List.range (Paging.pages matching.length (pageSizeOf pageSize).toNatClampNeg)).flatMap fun i =>
        answer (orders i) (Int64.ofNat (i + 1))) =
      (List.range (Paging.pages matching.length (pageSizeOf pageSize).toNatClampNeg)).flatMap fun i =>
        (Paging.page (pageSizeOf pageSize).toNatClampNeg i (orders i matching)).map f := by
    intro orders
    apply List.flatMap_congr
    intro i hi
    exact answer_page hbound hanswer (orders i) (List.mem_range.mp hi)
  constructor
  · rintro ⟨hpartition, hnone⟩
    constructor
    · refine (Paging.partition_iff hsize hnodup).mp fun lists hlists => ?_
      -- an order that lists these rows as the i-th query is to list them
      obtain ⟨order, horder⟩ := exists_newestFirst created
      classical
      have horders : ∀ i, NewestFirst created fun rows => if rows = matching then lists i else order rows := by
        intro i rows
        by_cases hrows : rows = matching
        · simpa [hrows] using hlists i
        · simpa [hrows] using horder rows
      have hall := hpartition _ horders
      rw [hpages] at hall
      simpa using hall
    · obtain ⟨order, horder⟩ := exists_newestFirst created
      intro page hlast
      exact (answer_eq_nil hanswer horder (by omega)).mp (hnone order horder page hlast)
  · rintro ⟨hundivided, hunwrapped⟩
    constructor
    · intro orders horders
      rw [hpages]
      exact (Paging.partition_iff hsize hnodup).mpr hundivided _ fun i => horders i matching
    · intro order horder page hlast
      exact (answer_eq_nil hanswer horder (by omega)).mpr (hunwrapped page hlast)

end Pages

end Bos3000
