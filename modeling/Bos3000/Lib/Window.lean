import Mathlib.Data.List.TakeWhile
import Mathlib.Tactic.Common

-- The part of a trace between the first label that opens it and the next one that
-- closes it.
namespace Window

variable {ι : Type*} (opens closes : ι → Bool)

def since (labels : List ι) : List ι := (labels.dropWhile fun l => !opens l).tail

def window (labels : List ι) : List ι := (since opens labels).takeWhile fun l => !closes l

def isOpen (labels : List ι) : Bool := labels.any opens && !(since opens labels).any closes

variable {opens closes} {labels : List ι} {l : ι}

theorem since_of_not_any (h : labels.any opens = false) : since opens labels = [] := by
  have hdrop : labels.dropWhile (fun l => !opens l) = [] := by
    rw [List.dropWhile_eq_nil_iff]
    simpa using h
  rw [since, hdrop, List.tail_nil]

theorem since_concat (h : labels.any opens = true) :
    since opens (labels ++ [l]) = since opens labels ++ [l] := by
  have hne : labels.dropWhile (fun l => !opens l) ≠ [] := by
    rw [Ne, List.dropWhile_eq_nil_iff]
    simpa using h
  rw [since, List.dropWhile_append, if_neg (by simpa using hne), List.tail_append_of_ne_nil hne, since]

-- A trace that has not been opened has nothing between its ends.
theorem since_concat_fresh (h : labels.any opens = false) : since opens (labels ++ [l]) = [] := by
  have hdrop : labels.dropWhile (fun l => !opens l) = [] := by
    rw [List.dropWhile_eq_nil_iff]
    simpa using h
  rw [since, List.dropWhile_append, hdrop]
  cases hl : opens l <;> simp [hl]

theorem isOpen_concat_fresh (h : labels.any opens = false) :
    isOpen opens closes (labels ++ [l]) = opens l := by
  simp [isOpen, since_concat_fresh h, h]

theorem isOpen_concat (h : labels.any opens = true) :
    isOpen opens closes (labels ++ [l]) = (isOpen opens closes labels && !closes l) := by
  simp [isOpen, since_concat h, h]

-- A label that is at neither end changes nothing.
theorem isOpen_concat_other (hopens : opens l = false) (hcloses : closes l = false) :
    isOpen opens closes (labels ++ [l]) = isOpen opens closes labels := by
  cases hany : labels.any opens with
  | false => rw [isOpen_concat_fresh hany, hopens, isOpen, hany, Bool.false_and]
  | true => rw [isOpen_concat hany, hcloses, Bool.not_false, Bool.and_true]

theorem window_concat_of_isOpen (h : isOpen opens closes labels = true) (hcloses : closes l = false) :
    window opens closes (labels ++ [l]) = window opens closes labels ++ [l] := by
  simp only [isOpen, Bool.and_eq_true, Bool.not_eq_true'] at h
  obtain ⟨hany, hnone⟩ := h
  have hall : ∀ k ∈ since opens labels, (!closes k) = true := by simpa using hnone
  rw [window, since_concat hany, List.takeWhile_append_of_pos hall, window,
    List.takeWhile_eq_self_iff.mpr hall]
  simp [hcloses]

theorem window_concat_of_not_isOpen (h : isOpen opens closes labels = false) :
    window opens closes (labels ++ [l]) = window opens closes labels := by
  cases hany : labels.any opens with
  | false => rw [window, since_concat_fresh hany, window, since_of_not_any hany]
  | true =>
      simp only [isOpen, hany, Bool.true_and, Bool.not_eq_false'] at h
      obtain ⟨k, hk, hcloses⟩ := List.any_eq_true.mp h
      rw [window, since_concat hany, List.takeWhile_append, if_neg, window]
      intro hlength
      have hself : (since opens labels).takeWhile (fun l => !closes l) = since opens labels :=
        (List.takeWhile_prefix _).eq_of_length hlength
      have hnot := List.takeWhile_eq_self_iff.mp hself k hk
      simp [hcloses] at hnot

theorem window_concat_closing (hcloses : closes l = true) :
    window opens closes (labels ++ [l]) = window opens closes labels := by
  cases hopen : isOpen opens closes labels with
  | false => exact window_concat_of_not_isOpen hopen
  | true =>
      simp only [isOpen, Bool.and_eq_true, Bool.not_eq_true'] at hopen
      obtain ⟨hany, hnone⟩ := hopen
      have hall : ∀ k ∈ since opens labels, (!closes k) = true := by simpa using hnone
      rw [window, since_concat hany, List.takeWhile_append_of_pos hall, window,
        List.takeWhile_eq_self_iff.mpr hall]
      simp [hcloses]

end Window
