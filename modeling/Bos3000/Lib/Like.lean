import Mathlib.Data.List.Infix
import Mathlib.Tactic.Common

-- LIKE over any alphabet: what a pattern means, how it is matched, and what a pattern
-- that is put between two signs for any text finds.
namespace Like

variable {α : Type*}

-- The characters that a pattern uses as signs: for any text, for any one character,
-- and to take the next character as it is.
structure Signs (α : Type*) where
  many : α
  one : α
  escape : α
  many_ne_one : many ≠ one
  many_ne_escape : many ≠ escape
  one_ne_escape : one ≠ escape

inductive Token (α : Type*)
  | literal (a : α)
  | one
  | many
  deriving DecidableEq

namespace Signs

variable (signs : Signs α)

def IsSign (a : α) : Prop := a = signs.many ∨ a = signs.one ∨ a = signs.escape

-- The texts that a pattern stands for.
inductive Matches : List α → List α → Prop
  | nil : Matches [] []
  | literal {a : α} {pattern text : List α} (ha : ¬ signs.IsSign a) (h : Matches pattern text) :
      Matches (a :: pattern) (a :: text)
  | one {a : α} {pattern text : List α} (h : Matches pattern text) : Matches (signs.one :: pattern) (a :: text)
  | many {skipped pattern text : List α} (h : Matches pattern text) :
      Matches (signs.many :: pattern) (skipped ++ text)
  | escaped {a : α} {pattern text : List α} (h : Matches pattern text) :
      Matches (signs.escape :: a :: pattern) (a :: text)

-- What is found of a text by a search: a piece of it, or its end where the search
-- escapes the sign that is put behind it.
def Finds (search text : List α) : Prop :=
  (∃ before piece after, text = before ++ piece ++ after ∧ signs.Matches search piece) ∨
    ∃ rest before piece, search = rest ++ [signs.escape] ∧ text = before ++ piece ++ [signs.many] ∧
      signs.Matches rest piece

-- A way to fold characters together that moves no sign, as letter case does.
structure Folding where
  fold : α → α
  fold_sign : ∀ a, signs.IsSign a → fold a = a
  sign_of_fold : ∀ a, signs.IsSign (fold a) → signs.IsSign a

variable [DecidableEq α]

-- No pattern ends in the sign that takes the next character.
def read : List α → Option (List (Token α))
  | [] => some []
  | a :: rest =>
      if a = signs.escape then
        match rest with
        | [] => none
        | b :: rest => (read rest).map (.literal b :: ·)
      else if a = signs.many then (read rest).map (.many :: ·)
      else if a = signs.one then (read rest).map (.one :: ·)
      else (read rest).map (.literal a :: ·)

variable {signs} {rest : List α}

theorem read_escape (b : α) : signs.read (signs.escape :: b :: rest) = (signs.read rest).map (.literal b :: ·) := by
  rw [read.eq_def]
  exact if_pos rfl

theorem read_many : signs.read (signs.many :: rest) = (signs.read rest).map (.many :: ·) := by
  rw [read.eq_def]
  exact (if_neg signs.many_ne_escape).trans (if_pos rfl)

theorem read_one : signs.read (signs.one :: rest) = (signs.read rest).map (.one :: ·) := by
  rw [read.eq_def]
  exact (if_neg signs.one_ne_escape).trans ((if_neg (Ne.symm signs.many_ne_one)).trans (if_pos rfl))

theorem read_literal {a : α} (ha : ¬ signs.IsSign a) :
    signs.read (a :: rest) = (signs.read rest).map (.literal a :: ·) := by
  simp only [IsSign, not_or] at ha
  rw [read.eq_def]
  exact (if_neg ha.2.2).trans ((if_neg ha.1).trans (if_neg ha.2.1))

end Signs

def accepts [DecidableEq α] : List (Token α) → List α → Bool
  | [], text => text.isEmpty
  | .literal a :: tokens, b :: text => a = b && accepts tokens text
  | .literal _ :: _, [] => false
  | .one :: tokens, _ :: text => accepts tokens text
  | .one :: _, [] => false
  | .many :: tokens, text => text.tails.any (accepts tokens)

def Signs.like [DecidableEq α] (signs : Signs α) (pattern text : List α) : Option Bool :=
  (signs.read pattern).map fun tokens => accepts tokens text

section Meaning

variable {signs : Signs α} {pattern text : List α}

theorem accepts_of_matches [DecidableEq α] (h : signs.Matches pattern text) :
    ∃ tokens, signs.read pattern = some tokens ∧ accepts tokens text = true := by
  induction h with
  | nil => exact ⟨[], rfl, rfl⟩
  | @literal a pattern text ha h ih =>
      obtain ⟨tokens, hread, haccepts⟩ := ih
      refine ⟨.literal a :: tokens, ?_, ?_⟩
      · rw [Signs.read_literal ha, hread, Option.map_some]
      · simp [accepts, haccepts]
  | @one a pattern text h ih =>
      obtain ⟨tokens, hread, haccepts⟩ := ih
      refine ⟨.one :: tokens, ?_, haccepts⟩
      rw [Signs.read_one, hread, Option.map_some]
  | @many skipped pattern text h ih =>
      obtain ⟨tokens, hread, haccepts⟩ := ih
      refine ⟨.many :: tokens, ?_, ?_⟩
      · rw [Signs.read_many, hread, Option.map_some]
      · exact List.any_eq_true.mpr ⟨text, (List.mem_tails _ _).mpr (List.suffix_append _ _), haccepts⟩
  | @escaped a pattern text h ih =>
      obtain ⟨tokens, hread, haccepts⟩ := ih
      refine ⟨.literal a :: tokens, ?_, ?_⟩
      · rw [Signs.read_escape, hread, Option.map_some]
      · simp [accepts, haccepts]

theorem matches_of_accepts [DecidableEq α] {tokens : List (Token α)} (hread : signs.read pattern = some tokens)
    (h : accepts tokens text = true) : signs.Matches pattern text := by
  fun_induction Signs.read signs pattern generalizing tokens text with
  | case1 =>
      cases hread
      rw [List.isEmpty_iff.mp h]
      exact .nil
  | case2 => cases hread
  | case3 b rest ih =>
      obtain ⟨more, hmore, rfl⟩ := Option.map_eq_some_iff.mp hread
      cases text with
      | nil => cases h
      | cons c text =>
          obtain ⟨heq, hrest⟩ := Bool.and_eq_true_iff.mp h
          rw [of_decide_eq_true heq]
          exact .escaped (ih hmore hrest)
  | case4 rest hescape ih =>
      obtain ⟨more, hmore, rfl⟩ := Option.map_eq_some_iff.mp hread
      obtain ⟨tail, htail, hrest⟩ := List.any_eq_true.mp h
      obtain ⟨skipped, rfl⟩ := (List.mem_tails _ _).mp htail
      exact .many (ih hmore hrest)
  | case5 rest hescape hmany ih =>
      obtain ⟨more, hmore, rfl⟩ := Option.map_eq_some_iff.mp hread
      cases text with
      | nil => cases h
      | cons c text => exact .one (ih hmore h)
  | case6 a rest hescape hmany hone ih =>
      obtain ⟨more, hmore, rfl⟩ := Option.map_eq_some_iff.mp hread
      cases text with
      | nil => cases h
      | cons c text =>
          obtain ⟨heq, hrest⟩ := Bool.and_eq_true_iff.mp h
          rw [← of_decide_eq_true heq]
          exact .literal (by simp [Signs.IsSign, hescape, hmany, hone]) (ih hmore hrest)

-- The matcher finds what a pattern means.
theorem like_eq_true [DecidableEq α] : signs.like pattern text = some true ↔ signs.Matches pattern text := by
  rw [Signs.like, Option.map_eq_some_iff]
  constructor
  · rintro ⟨tokens, hread, haccepts⟩
    exact matches_of_accepts hread haccepts
  · exact accepts_of_matches

end Meaning

section Around

variable {signs : Signs α} {search text : List α}

theorem matches_append {p q t u : List α} (hp : signs.Matches p t) (hq : signs.Matches q u) :
    signs.Matches (p ++ q) (t ++ u) := by
  induction hp with
  | nil => exact hq
  | literal ha _ ih => exact .literal ha ih
  | one _ ih => exact .one ih
  | many _ ih =>
      rw [List.append_assoc]
      exact .many ih
  | escaped _ ih => exact .escaped ih

theorem matches_many : signs.Matches [signs.many] text := by
  have hall : signs.Matches [signs.many] (text ++ []) := .many .nil
  rwa [List.append_nil] at hall

-- A sign for any text at the end stands for a rest, or for itself behind an escape.
theorem of_matches_concat_many (h : signs.Matches (search ++ [signs.many]) text) :
    (∃ piece after, text = piece ++ after ∧ signs.Matches search piece) ∨
      ∃ rest piece, search = rest ++ [signs.escape] ∧ text = piece ++ [signs.many] ∧
      signs.Matches rest piece := by
  generalize hpattern : search ++ [signs.many] = pattern at h
  induction h generalizing search with
  | nil => simp at hpattern
  | @literal a pattern text ha h ih =>
      obtain ⟨rfl, hnil⟩ | ⟨rest, rfl, hrest⟩ := List.append_eq_cons_iff.mp hpattern
      · cases hnil
        exact absurd (.inl rfl) ha
      · obtain ⟨piece, after, rfl, hpiece⟩ | ⟨rest, piece, rfl, rfl, hpiece⟩ := ih hrest.symm
        · exact .inl ⟨a :: piece, after, rfl, .literal ha hpiece⟩
        · exact .inr ⟨a :: rest, a :: piece, rfl, rfl, .literal ha hpiece⟩
  | @one a pattern text h ih =>
      obtain ⟨rfl, hnil⟩ | ⟨rest, rfl, hrest⟩ := List.append_eq_cons_iff.mp hpattern
      · exact .inl ⟨[], _, rfl, .nil⟩
      · obtain ⟨piece, after, rfl, hpiece⟩ | ⟨rest, piece, rfl, rfl, hpiece⟩ := ih hrest.symm
        · exact .inl ⟨a :: piece, after, rfl, .one hpiece⟩
        · exact .inr ⟨signs.one :: rest, a :: piece, rfl, rfl, .one hpiece⟩
  | @many skipped pattern text h ih =>
      obtain ⟨rfl, hnil⟩ | ⟨rest, rfl, hrest⟩ := List.append_eq_cons_iff.mp hpattern
      · cases hnil
        exact .inl ⟨[], _, rfl, .nil⟩
      · obtain ⟨piece, after, rfl, hpiece⟩ | ⟨rest, piece, rfl, rfl, hpiece⟩ := ih hrest.symm
        · exact .inl ⟨skipped ++ piece, after, by rw [List.append_assoc], .many hpiece⟩
        · exact .inr ⟨signs.many :: rest, skipped ++ piece, rfl, by rw [List.append_assoc], .many hpiece⟩
  | @escaped a pattern text h ih =>
      obtain ⟨rfl, hnil⟩ | ⟨rest, rfl, hrest⟩ := List.append_eq_cons_iff.mp hpattern
      · simp at hnil
      · obtain ⟨rfl, hnil⟩ | ⟨rest, rfl, htail⟩ := List.append_eq_cons_iff.mp hrest.symm
        · -- the escape takes the sign
          cases hnil
          cases h
          exact .inr ⟨[], [], rfl, rfl, .nil⟩
        · obtain ⟨piece, after, rfl, hpiece⟩ | ⟨rest, piece, rfl, rfl, hpiece⟩ := ih htail.symm
          · exact .inl ⟨a :: piece, after, rfl, .escaped hpiece⟩
          · exact .inr ⟨signs.escape :: a :: rest, a :: piece, rfl, rfl, .escaped hpiece⟩

theorem matches_cons_many : signs.Matches (signs.many :: search) text ↔
    ∃ before after, text = before ++ after ∧ signs.Matches search after := by
  constructor
  · intro h
    generalize hpattern : signs.many :: search = pattern at h
    cases h with
    | nil => cases hpattern
    | literal ha _ => exact absurd (.inl (List.cons.inj hpattern).1.symm) ha
    | one => exact absurd (List.cons.inj hpattern).1 signs.many_ne_one
    | many h =>
        rw [(List.cons.inj hpattern).2]
        exact ⟨_, _, rfl, h⟩
    | escaped => exact absurd (List.cons.inj hpattern).1 signs.many_ne_escape
  · rintro ⟨before, after, rfl, h⟩
    exact .many h

-- What a search finds between two signs for any text.
theorem matches_around : signs.Matches (signs.many :: search ++ [signs.many]) text ↔ signs.Finds search text := by
  rw [List.cons_append, matches_cons_many]
  constructor
  · rintro ⟨before, tail, rfl, h⟩
    obtain ⟨piece, after, rfl, hpiece⟩ | ⟨rest, piece, rfl, rfl, hpiece⟩ := of_matches_concat_many h
    · exact .inl ⟨before, piece, after, by rw [List.append_assoc], hpiece⟩
    · exact .inr ⟨rest, before, piece, rfl, by rw [List.append_assoc], hpiece⟩
  · rintro (⟨before, piece, after, rfl, hpiece⟩ | ⟨rest, before, piece, rfl, rfl, hpiece⟩)
    · exact ⟨before, piece ++ after, by rw [List.append_assoc], matches_append hpiece matches_many⟩
    · refine ⟨before, piece ++ [signs.many], by rw [List.append_assoc], ?_⟩
      rw [List.append_assoc]
      exact matches_append hpiece (.escaped .nil)

-- Such a pattern is always one.
theorem read_concat [DecidableEq α] {a : α} (ha : a ≠ signs.escape) : (signs.read (search ++ [a])).isSome := by
  fun_induction Signs.read signs search with
  | case1 =>
      simp only [List.nil_append, Signs.read, if_neg ha]
      split
      · rfl
      · split <;> rfl
  | case2 => rw [List.cons_append, List.nil_append, Signs.read_escape]; rfl
  | case3 b rest ih =>
      rw [List.cons_append, List.cons_append, Signs.read_escape, Option.isSome_map]
      exact ih
  | case4 rest hescape ih =>
      rw [List.cons_append, Signs.read_many, Option.isSome_map]
      exact ih
  | case5 rest hescape hmany ih =>
      rw [List.cons_append, Signs.read_one, Option.isSome_map]
      exact ih
  | case6 c rest hescape hmany hone ih =>
      have hliteral : ¬ signs.IsSign c := by simp [Signs.IsSign, hescape, hmany, hone]
      rw [List.cons_append, Signs.read_literal hliteral, Option.isSome_map]
      exact ih

theorem like_around [DecidableEq α] : ∃ found,
    signs.like (signs.many :: search ++ [signs.many]) text = some found ∧
    (found = true ↔ signs.Finds search text) := by
  have hsome : (signs.read (signs.many :: search ++ [signs.many])).isSome := read_concat signs.many_ne_escape
  obtain ⟨tokens, hread⟩ := Option.isSome_iff_exists.mp hsome
  have hlike : signs.like (signs.many :: search ++ [signs.many]) text = some (accepts tokens text) := by
    rw [Signs.like, hread, Option.map_some]
  refine ⟨accepts tokens text, hlike, ?_⟩
  rw [← matches_around, ← like_eq_true, hlike, Option.some.injEq]

end Around

section Plain

variable {signs : Signs α} {search text : List α}

theorem matches_plain (hplain : ∀ a ∈ search, ¬ signs.IsSign a) : signs.Matches search text ↔ text = search := by
  constructor
  · intro h
    induction h with
    | nil => rfl
    | literal ha h ih => rw [ih fun b hb => hplain b (List.mem_cons_of_mem _ hb)]
    | one => exact absurd (.inr (.inl rfl)) (hplain _ List.mem_cons_self)
    | many => exact absurd (.inl rfl) (hplain _ List.mem_cons_self)
    | escaped => exact absurd (.inr (.inr rfl)) (hplain _ List.mem_cons_self)
  · rintro rfl
    induction text with
    | nil => exact .nil
    | cons a text ih =>
        exact .literal (hplain a List.mem_cons_self) (ih fun b hb => hplain b (List.mem_cons_of_mem _ hb))

-- A search without signs finds the texts that it is in.
theorem finds_plain (hplain : ∀ a ∈ search, ¬ signs.IsSign a) : signs.Finds search text ↔ search <:+: text := by
  constructor
  · rintro (⟨before, piece, after, rfl, hpiece⟩ | ⟨rest, _, _, rfl, _, _⟩)
    · rw [(matches_plain hplain).mp hpiece]
      exact ⟨before, after, rfl⟩
    · exact absurd (.inr (.inr rfl)) (hplain signs.escape (by simp))
  · rintro ⟨before, after, rfl⟩
    exact .inl ⟨before, search, after, rfl, (matches_plain hplain).mpr rfl⟩

-- The same where characters are folded together before.
theorem finds_folded (folding : signs.Folding) (hplain : ∀ a ∈ search, ¬ signs.IsSign a) :
    signs.Finds (search.map folding.fold) (text.map folding.fold) ↔
      search.map folding.fold <:+: text.map folding.fold := by
  refine finds_plain fun a ha hsign => ?_
  obtain ⟨b, hb, rfl⟩ := List.mem_map.mp ha
  exact hplain b hb (folding.sign_of_fold b hsign)

end Plain

end Like
