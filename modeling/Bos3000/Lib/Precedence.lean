import Mathlib.Data.List.Basic
import Mathlib.Tactic.Common

-- Traces in which every effect comes after a cause.
namespace Precedence

variable {α : Type*} {effect cause : α → Prop}

def After (effect cause : α → Prop) (trace : List α) : Prop :=
  ∀ before a after, trace = before ++ a :: after → effect a → ∃ c ∈ before, cause c

theorem after_of_forall {trace : List α} (h : ∀ a ∈ trace, ¬ effect a) : After effect cause trace := by
  rintro before a after rfl heffect
  exact absurd heffect (h a (by simp))

theorem after_append (first second : List α) :
    After effect cause (first ++ second) ↔ After effect cause first ∧
      ∀ before a after, second = before ++ a :: after → effect a → ∃ c ∈ first ++ before, cause c := by
  constructor
  · intro h
    constructor
    · rintro before a after rfl heffect
      exact h before a (after ++ second) (by simp) heffect
    · rintro before a after rfl heffect
      exact h (first ++ before) a after (by simp) heffect
  · rintro ⟨hfirst, hsecond⟩ before a after htrace heffect
    obtain ⟨rest, hbefore, hrest⟩ | ⟨rest, hbefore, hrest⟩ := List.append_eq_append_iff.mp htrace
    · rw [hbefore]
      exact hsecond rest a after hrest heffect
    · cases rest with
      | nil =>
          rw [List.append_nil] at hbefore
          obtain ⟨c, hc, hcause⟩ := hsecond [] a after hrest.symm heffect
          exact ⟨c, by simpa [hbefore] using hc, hcause⟩
      | cons b rest =>
          obtain ⟨rfl, -⟩ := List.cons_eq_cons.mp hrest
          exact hfirst before a rest hbefore heffect

-- A part without effects changes nothing.
theorem after_append_of_forall {first second : List α} (h : ∀ a ∈ second, ¬ effect a) :
    After effect cause (first ++ second) ↔ After effect cause first := by
  rw [after_append, and_iff_left]
  rintro before a after rfl heffect
  exact absurd heffect (h a (by simp))

-- Nor does one that a cause precedes.
theorem after_append_of_mem {first second : List α} (h : ∃ c ∈ first, cause c) :
    After effect cause (first ++ second) ↔ After effect cause first := by
  rw [after_append, and_iff_left]
  intro before a after _ _
  obtain ⟨c, hc, hcause⟩ := h
  exact ⟨c, List.mem_append_left _ hc, hcause⟩

theorem After.cause_of_mem {trace : List α} (h : After effect cause trace) {a : α} (ha : a ∈ trace)
    (heffect : effect a) : ∃ c ∈ trace, cause c := by
  obtain ⟨before, after, rfl⟩ := List.append_of_mem ha
  obtain ⟨c, hc, hcause⟩ := h before a after rfl heffect
  exact ⟨c, List.mem_append_left _ hc, hcause⟩

end Precedence
