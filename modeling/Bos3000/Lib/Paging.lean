import Mathlib.Data.List.Nodup
import Mathlib.Data.List.Basic
import Mathlib.Tactic.Common

-- Pages of rows that each query lists newest first, and the rows of one time in any
-- order.
namespace Paging

variable {ρ σ : Type*}

def Newest (key : ρ → Int) (rows listed : List ρ) : Prop :=
  listed.Perm rows ∧ listed.Pairwise fun a b => key b ≤ key a

-- The pages count from 0 here.
def page (size i : Nat) (listed : List ρ) : List ρ := (listed.drop (i * size)).take size

def pages (total size : Nat) : Nat := (total + size - 1) / size

-- How many rows are newer than a row, and how many are not older.
def newer (key : ρ → Int) (rows : List ρ) (r : ρ) : Nat := rows.countP fun x => key r < key x

def notOlder (key : ρ → Int) (rows : List ρ) (r : ρ) : Nat := rows.countP fun x => key r ≤ key x

-- The rows of one time stand on one page.
def Undivided (key : ρ → Int) (rows : List ρ) (size : Nat) : Prop :=
  ∀ r ∈ rows, newer key rows r / size = (notOlder key rows r - 1) / size

instance (key : ρ → Int) (rows : List ρ) (size : Nat) : Decidable (Undivided key rows size) :=
  inferInstanceAs (Decidable (∀ r ∈ rows, _))

section Positions

variable {key : ρ → Int} {rows listed : List ρ} {r : ρ} {size i : Nat}

-- What holds of the rows up to some position holds of as many as there are.
theorem holds_iff_lt_countP {p : ρ → Bool} {l : List ρ} (hmono : l.Pairwise fun a b => p b = true → p a = true)
    {i : Nat} (hi : i < l.length) : p l[i] = true ↔ i < l.countP p := by
  induction l generalizing i with
  | nil => simp at hi
  | cons x rest ih =>
      obtain ⟨hhead, hrest⟩ := List.pairwise_cons.mp hmono
      by_cases hx : p x = true
      · rw [List.countP_cons_of_pos hx]
        cases i with
        | zero => simp [hx]
        | succ i =>
            rw [List.getElem_cons_succ, ih hrest (by simpa using hi)]
            omega
      · have hnone : ∀ y ∈ rest, ¬ p y = true := fun y hy hp => hx (hhead y hy hp)
        rw [List.countP_cons_of_neg hx, List.countP_eq_zero.mpr hnone]
        cases i with
        | zero => simpa using hx
        | succ i => simpa using hnone _ (List.getElem_mem _)

theorem key_eq_iff (h : Newest key rows listed) (r : ρ) (hi : i < listed.length) :
    key listed[i] = key r ↔ newer key rows r ≤ i ∧ i < notOlder key rows r := by
  have hnewer := @holds_iff_lt_countP _ (fun x => decide (key r < key x)) listed
    (h.2.imp fun hab hb => by simp only [decide_eq_true_eq] at hb ⊢; omega) i hi
  have hnotOlder := @holds_iff_lt_countP _ (fun x => decide (key r ≤ key x)) listed
    (h.2.imp fun hab hb => by simp only [decide_eq_true_eq] at hb ⊢; omega) i hi
  rw [h.1.countP_eq, decide_eq_true_eq] at hnewer hnotOlder
  unfold newer notOlder
  omega

theorem mem_page (hsize : 0 < size) :
    r ∈ page size i listed ↔ ∃ j, ∃ h : j < listed.length, listed[j] = r ∧ j / size = i := by
  unfold page
  constructor
  · intro hr
    obtain ⟨k, hk, rfl⟩ := List.getElem_of_mem hr
    simp only [List.length_take, List.length_drop] at hk
    refine ⟨i * size + k, by omega, by simp, ?_⟩
    rw [Nat.div_eq_iff hsize]
    omega
  · rintro ⟨j, hj, rfl, hpage⟩
    obtain ⟨hlow, hhigh⟩ := (Nat.div_eq_iff hsize).mp hpage
    have hat : ((listed.drop (i * size)).take size)[j - i * size]? = some listed[j] := by
      rw [List.getElem?_take_of_lt (by omega), List.getElem?_drop, show i * size + (j - i * size) = j by omega,
        List.getElem?_eq_getElem hj]
    exact List.mem_of_getElem? hat

theorem newer_lt (hr : r ∈ rows) : newer key rows r < rows.length := by
  have hle : newer key rows r ≤ rows.length := List.countP_le_length
  have hne : newer key rows r ≠ rows.length := by
    intro hall
    simpa using List.countP_eq_length.mp hall r hr
  omega

theorem div_lt_pages {n j : Nat} (hsize : 0 < size) (h : j < n) : j / size < pages n size := by
  have hmul := Nat.div_mul_le_self j size
  unfold pages
  rw [Nat.lt_div_iff_mul_lt hsize]
  omega

-- Undivided rows stand on the same page in every listing.
theorem mem_page_undivided (hsize : 0 < size) (h : Newest key rows listed) (hundivided : Undivided key rows size) :
    r ∈ page size i listed ↔ r ∈ rows ∧ newer key rows r / size = i := by
  have hplace : ∀ j (hj : j < listed.length), listed[j] = r → j / size = newer key rows r / size := by
    rintro j hj rfl
    obtain ⟨hlow, hhigh⟩ := (key_eq_iff h listed[j] hj).mp rfl
    have hsame := hundivided listed[j] (h.1.subset (List.getElem_mem hj))
    have hfirst := Nat.div_le_div_right (c := size) hlow
    have hlast : j / size ≤ (notOlder key rows listed[j] - 1) / size := Nat.div_le_div_right (by omega)
    omega
  rw [mem_page hsize]
  constructor
  · rintro ⟨j, hj, heq, hpage⟩
    exact ⟨h.1.subset (heq ▸ List.getElem_mem hj), (hplace j hj heq).symm.trans hpage⟩
  · rintro ⟨hr, hpage⟩
    obtain ⟨j, hj, heq⟩ := List.getElem_of_mem (h.1.symm.subset hr)
    exact ⟨j, hj, heq, (hplace j hj heq).trans hpage⟩

end Positions

section Partition

variable {key : ρ → Int} {rows : List ρ} {size : Nat}

theorem partition_of_undivided (hsize : 0 < size) (hnodup : rows.Nodup) (hundivided : Undivided key rows size)
    {orders : Nat → List ρ} (horders : ∀ i, Newest key rows (orders i)) :
    ((List.range (pages rows.length size)).flatMap fun i => page size i (orders i)).Perm rows := by
  have hmem : ∀ i r, r ∈ page size i (orders i) ↔ r ∈ rows ∧ newer key rows r / size = i :=
    fun i r => mem_page_undivided hsize (horders i) hundivided
  have hpages : ((List.range (pages rows.length size)).flatMap fun i => page size i (orders i)).Nodup := by
    refine List.nodup_flatMap.mpr ⟨?_, ?_⟩
    · intro i _
      have hlisted := (horders i).1.nodup_iff.mpr hnodup
      exact (hlisted.sublist (List.drop_sublist _ _)).sublist (List.take_sublist _ _)
    · refine List.pairwise_lt_range.imp ?_
      intro i j hij r hi hj
      have hfirst := ((hmem i r).mp hi).2
      have hsecond := ((hmem j r).mp hj).2
      omega
  rw [List.perm_ext_iff_of_nodup hpages hnodup]
  intro r
  simp only [List.mem_flatMap, List.mem_range, hmem]
  constructor
  · rintro ⟨i, _, hr, _⟩
    exact hr
  · intro hr
    exact ⟨_, div_lt_pages hsize (newer_lt hr), hr, rfl⟩

theorem exists_newest (key : ρ → Int) (rows : List ρ) : ∃ listed, Newest key rows listed := by
  refine ⟨rows.mergeSort fun a b => decide (key b ≤ key a), List.mergeSort_perm _ _, ?_⟩
  have hsorted : (rows.mergeSort fun a b => decide (key b ≤ key a)).Pairwise
      fun a b => decide (key b ≤ key a) = true := by
    refine List.pairwise_mergeSort ?_ ?_ rows
    · intro a b c hab hbc
      simp only [decide_eq_true_eq] at hab hbc ⊢
      omega
    · intro a b
      simp only [Bool.or_eq_true, decide_eq_true_eq]
      omega
  exact hsorted.imp of_decide_eq_true

-- Two neighbours of one time may also be listed the other way round.
theorem Newest.swap {first rest : List ρ} {x y : ρ} (h : Newest key rows (first ++ x :: y :: rest))
    (hkey : key x = key y) : Newest key rows (first ++ y :: x :: rest) := by
  refine ⟨((List.Perm.swap x y rest).append_left first).trans h.1, ?_⟩
  have hsorted := h.2
  simp only [List.pairwise_append, List.pairwise_cons, List.mem_cons, forall_eq_or_imp, hkey] at hsorted ⊢
  obtain ⟨hfirst, ⟨⟨_, hrest⟩, _, hpairs⟩, hbefore⟩ := hsorted
  exact ⟨hfirst, ⟨⟨Int.le_refl _, hrest⟩, hrest, hpairs⟩, hbefore⟩

-- A row whose time two pages share can stand on both of them.
theorem exists_twice (hsize : 0 < size) {r : ρ} (hr : r ∈ rows)
    (hdivided : newer key rows r / size ≠ (notOlder key rows r - 1) / size) :
    ∃ i x, ∃ listed other, i + 1 < pages rows.length size ∧ Newest key rows listed ∧ Newest key rows other ∧
      x ∈ page size i listed ∧ x ∈ page size (i + 1) other := by
  obtain ⟨listed, hlisted⟩ := exists_newest key rows
  have hlength := hlisted.1.length_eq
  obtain ⟨q, hq⟩ : ∃ q, q = newer key rows r / size := ⟨_, rfl⟩
  obtain ⟨c, hc⟩ : ∃ c, c = (q + 1) * size := ⟨_, rfl⟩
  have hcount : newer key rows r < notOlder key rows r := by
    obtain ⟨j, hj, heq⟩ := List.getElem_of_mem (hlisted.1.symm.subset hr)
    obtain ⟨hlow, hhigh⟩ := (key_eq_iff hlisted r hj).mp (by rw [heq])
    omega
  have hbound : notOlder key rows r ≤ rows.length := List.countP_le_length
  -- the first row of the next page is still of the same time
  have hlow : newer key rows r < c := by
    rw [hc, hq, Nat.mul_comm]
    exact Nat.lt_mul_div_succ _ hsize
  have hhigh : c ≤ notOlder key rows r - 1 := by
    have hle : q ≤ (notOlder key rows r - 1) / size := by
      rw [hq]
      exact Nat.div_le_div_right (by omega)
    rw [hc]
    exact (Nat.le_div_iff_mul_le hsize).mp (by omega)
  have hlast : c - 1 < listed.length := by omega
  have hfirst : c < listed.length := by omega
  have hx : key listed[c - 1] = key r := (key_eq_iff hlisted r (by omega)).mpr ⟨by omega, by omega⟩
  have hy : key listed[c] = key r := (key_eq_iff hlisted r (by omega)).mpr ⟨by omega, by omega⟩
  have hsplit : listed = listed.take (c - 1) ++ listed[c - 1] :: listed[c] :: listed.drop (c + 1) := by
    have hnext : listed.drop c = listed[c] :: listed.drop (c + 1) := List.drop_eq_getElem_cons (by omega)
    have hbefore : listed.drop (c - 1) = listed[c - 1] :: listed.drop c := by
      rw [List.drop_eq_getElem_cons (by omega), show c - 1 + 1 = c by omega]
    rw [← hnext, ← hbefore, List.take_append_drop]
  have htake : (listed.take (c - 1)).length = c - 1 := List.length_take_of_le (by omega)
  refine ⟨q, listed[c - 1], listed, listed.take (c - 1) ++ listed[c] :: listed[c - 1] ::
    listed.drop (c + 1), ?_, hlisted, (hsplit ▸ hlisted).swap (hx.trans hy.symm), ?_, ?_⟩
  · have hpage : c / size = q + 1 := by rw [hc, Nat.mul_div_cancel _ hsize]
    exact hpage ▸ div_lt_pages hsize (by omega)
  · refine (mem_page hsize).mpr ⟨c - 1, by omega, rfl, ?_⟩
    rw [Nat.div_eq_iff hsize]
    have hmul : (q + 1) * size = q * size + size := Nat.succ_mul q size
    omega
  · refine (mem_page hsize).mpr ⟨c, by simp; omega, ?_, by rw [hc, Nat.mul_div_cancel _ hsize]⟩
    rw [List.getElem_append_right (by omega)]
    simp [htake, show c - (c - 1) = 1 by omega]

theorem undivided_of_nodup (hsize : 0 < size)
    (hnodup : ∀ orders : Nat → List ρ, (∀ i, Newest key rows (orders i)) →
      ((List.range (pages rows.length size)).flatMap fun i => page size i (orders i)).Nodup) :
    Undivided key rows size := by
  intro r hr
  by_contra hdivided
  obtain ⟨i, x, listed, other, hi, hlisted, hother, hfirst, hsecond⟩ := exists_twice hsize hr hdivided
  have hpages := hnodup (fun j => if j ≤ i then listed else other) (fun j => by split <;> assumption)
  have hdisjoint := (List.nodup_flatMap.mp hpages).2
  rw [List.pairwise_iff_getElem] at hdisjoint
  have hpair := hdisjoint i (i + 1) (by simp; omega) (by simp; omega) (by omega)
  simp only [Function.onFun, List.getElem_range, if_pos (Nat.le_refl i), if_neg (Nat.not_succ_le_self i)] at hpair
  exact hpair hfirst hsecond

-- Each row is returned exactly once, whatever order each query chooses, exactly if the
-- rows of one time stand on one page.
theorem partition_iff (hsize : 0 < size) {f : ρ → σ} (hnodup : (rows.map f).Nodup) :
    (∀ orders : Nat → List ρ, (∀ i, Newest key rows (orders i)) →
      ((List.range (pages rows.length size)).flatMap fun i => (page size i (orders i)).map f).Perm (rows.map f)) ↔
        Undivided key rows size := by
  have hmap : ∀ orders : Nat → List ρ, ((List.range (pages rows.length size)).flatMap fun i =>
      (page size i (orders i)).map f) =
        ((List.range (pages rows.length size)).flatMap fun i => page size i (orders i)).map f := by
    intro orders
    rw [List.map_flatMap]
  constructor
  · intro hpartition
    refine undivided_of_nodup hsize fun orders horders => ?_
    have hpages := (hpartition orders horders).nodup_iff.mpr hnodup
    exact List.Nodup.of_map f (hmap orders ▸ hpages)
  · intro hundivided orders horders
    rw [hmap]
    exact (partition_of_undivided hsize (List.Nodup.of_map f hnodup) hundivided horders).map f

end Partition

end Paging
