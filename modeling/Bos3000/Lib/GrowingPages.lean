import Bos3000.Lib.Paging
import Mathlib.Data.List.Perm.Subperm
import Mathlib.Order.Lattice

-- Pages that are read one after the other from an ascending list, to which entries
-- come anywhere between the reads.
namespace GrowingPages

theorem take_next {κ : Type*} (l : List κ) (size n : Nat) :
    l.take ((n + 1) * size) = l.take (n * size) ++ Paging.page size n l := by
  rw [Nat.succ_mul, List.take_add]
  rfl

variable {κ : Type*} [LinearOrder κ]

-- How many entries stand before x.
def rank (l : List κ) (x : κ) : Nat := l.countP (· < x)

theorem rank_mono {l later : List κ} (hl : l.Nodup) (hsub : l ⊆ later) (x : κ) : rank l x ≤ rank later x :=
  (hl.subperm hsub).countP_le _

-- In an ascending list the rank of an entry is its place.
theorem mem_take_iff {l : List κ} (hl : l.Pairwise (· < ·)) {x : κ} {k : Nat} :
    x ∈ l.take k ↔ x ∈ l ∧ rank l x < k := by
  induction l generalizing k with
  | nil => simp
  | cons y rest ih =>
      obtain ⟨hfirst, hrest⟩ := List.pairwise_cons.mp hl
      cases k with
      | zero => simp
      | succ k =>
          rw [List.take_succ_cons, List.mem_cons, List.mem_cons, ih hrest]
          unfold rank
          rw [List.countP_cons]
          by_cases hxy : x = y
          · subst hxy
            have hzero : rest.countP (· < x) = 0 := by
              rw [List.countP_eq_zero]
              intro z hz
              simpa using le_of_lt (hfirst z hz)
            simp [hzero]
          · constructor
            · rintro (rfl | ⟨hmem, hlt⟩)
              · exact absurd rfl hxy
              · simp [hmem, hfirst x hmem, hlt]
            · rintro ⟨rfl | hmem, hlt⟩
              · exact absurd rfl hxy
              · simp only [hfirst x hmem, decide_true, if_true] at hlt
                exact .inr ⟨hmem, by omega⟩

-- The first n pages, read while the list came from `start` to `current`.
structure Read (size n : Nat) (start current got : List κ) : Prop where
  ascending : current.Pairwise (· < ·)
  kept : start ⊆ current
  covers : ∀ x ∈ start, x ∈ current.take (n * size) → x ∈ got

section Read

variable {size n : Nat} {start current later got : List κ}

theorem Read.nil (size : Nat) (hstart : start.Pairwise (· < ·)) : Read size 0 start start [] where
  ascending := hstart
  kept := List.Subset.refl start
  covers x _ hx := by simp at hx

-- An entry only moves back, so what stands before the pages that are left was read.
theorem Read.grow (h : Read size n start current got) (hlater : later.Pairwise (· < ·)) (hsub : current ⊆ later) :
    Read size n start later got where
  ascending := hlater
  kept := List.Subset.trans h.kept hsub
  covers x hx htake := by
    have hrank := ((mem_take_iff hlater).mp htake).2
    have hmono := rank_mono h.ascending.nodup hsub x
    exact h.covers x hx ((mem_take_iff h.ascending).mpr ⟨h.kept hx, by omega⟩)

theorem Read.next (h : Read size n start current got) :
    Read size (n + 1) start current (got ++ Paging.page size n current) where
  ascending := h.ascending
  kept := h.kept
  covers x hx htake := by
    rw [take_next] at htake
    rcases List.mem_append.mp htake with hold | hnew
    · exact List.mem_append_left _ (h.covers x hx hold)
    · exact List.mem_append_right _ hnew

-- When as many pages are read as there are, they have each entry of the start.
theorem Read.complete (h : Read size n start current got) (hpages : current.length ≤ n * size) : start ⊆ got := by
  intro x hx
  refine h.covers x hx ?_
  rw [List.take_of_length_le hpages]
  exact h.kept hx

end Read

-- The pages show entries at most once as long as none comes in before one of these.
structure Once (size n : Nat) (current got : List κ) : Prop where
  ascending : current.Pairwise (· < ·)
  passed : got ⊆ current.take (n * size)
  once : got.Pairwise (· < ·)

section Once

variable {size n : Nat} {current later got : List κ}

theorem Once.nil (size : Nat) (hcurrent : current.Pairwise (· < ·)) : Once size 0 current [] where
  ascending := hcurrent
  passed := List.nil_subset _
  once := List.Pairwise.nil

theorem Once.grow (h : Once size n current got) (hlater : later.Pairwise (· < ·)) (hsub : current ⊆ later)
    (habove : ∀ y ∈ later, y ∉ current → ∀ x ∈ got, x < y) : Once size n later got where
  ascending := hlater
  passed := by
    intro x hx
    obtain ⟨hmem, hrank⟩ := (mem_take_iff h.ascending).mp (h.passed hx)
    -- What stands before x stood there before.
    have hbefore : later.filter (· < x) ⊆ current.filter (· < x) := by
      intro y hy
      obtain ⟨hy, hyx⟩ := List.mem_filter.mp hy
      refine List.mem_filter.mpr ⟨?_, hyx⟩
      by_contra hnew
      exact lt_asymm (habove y hy hnew x hx) (by simpa using hyx)
    have hle : rank later x ≤ rank current x := by
      rw [rank, rank, List.countP_eq_length_filter, List.countP_eq_length_filter]
      exact ((hlater.nodup.filter _).subperm hbefore).length_le
    exact (mem_take_iff hlater).mpr ⟨hsub hmem, by omega⟩
  once := h.once

theorem Once.next (h : Once size n current got) : Once size (n + 1) current (got ++ Paging.page size n current) where
  ascending := h.ascending
  passed := by
    rw [take_next]
    exact List.append_subset.mpr ⟨fun _ hx => List.mem_append_left _ (h.passed hx), List.subset_append_right _ _⟩
  once := by
    have hsplit := h.ascending
    rw [← List.take_append_drop (n * size) current] at hsplit
    obtain ⟨_, hrest, hacross⟩ := List.pairwise_append.mp hsplit
    refine List.pairwise_append.mpr ⟨h.once, hrest.sublist (List.take_sublist _ _), fun x hx y hy => ?_⟩
    exact hacross x (h.passed hx) y (List.mem_of_mem_take hy)

end Once

end GrowingPages
