import Mathlib.Data.List.TakeWhile
import Mathlib.Tactic.Common

-- The text of a statement with numbered placeholders, as its reader takes it apart.
namespace Prepared

inductive Token
  | char (c : Char)
  -- "$k", where the k-th argument goes
  | parameter (k : Nat)
  deriving DecidableEq, Repr

def Token.isDigit : Token → Bool
  | .char c => c.isDigit
  | .parameter _ => false

def Token.toChar : Token → Char
  | .char c => c
  | .parameter _ => '$'

-- A character before a text that is taken apart already. All the digits after a
-- '$' are the number of the placeholder.
def cons (c : Char) (rest : List Token) : List Token :=
  if c = '$' ∧ rest.takeWhile Token.isDigit ≠ [] then
    .parameter (Nat.ofDigitChars 10 ((rest.takeWhile Token.isDigit).map Token.toChar) 0) ::
      rest.dropWhile Token.isDigit
  else .char c :: rest

def lex (text : List Char) : List Token := text.foldr cons []

def tokens (text : String) : List Token := lex text.toList

example : tokens "a = $1, $12" = [.char 'a', .char ' ', .char '=', .char ' ', .parameter 1, .char ',', .char ' ',
    .parameter 12] := by decide +kernel

def parameters (ts : List Token) : List Nat :=
  ts.filterMap fun
    | .parameter k => some k
    | .char _ => none

-- The argument that a placeholder stands for.
def argument {α : Type*} (args : List α) (k : Nat) : Option α := if k = 0 then none else args[k - 1]?

section Lex

-- The text does not go on with a digit.
def Ends (text : List Char) : Prop := ∀ c ∈ text.head?, c.isDigit = false

theorem takeWhile_append_of_head {α : Type*} {p : α → Bool} {first second : List α}
    (h : ∀ x ∈ second.head?, p x = false) :
    (first ++ second).takeWhile p = first.takeWhile p ∧
      (first ++ second).dropWhile p = first.dropWhile p ++ second := by
  induction first with
  | nil =>
      cases second with
      | nil => exact ⟨rfl, rfl⟩
      | cons x rest =>
          have hx := h x rfl
          simp [hx]
  | cons x first ih =>
      by_cases hx : p x
      · simp [hx, ih]
      · simp [hx]

theorem head_cons (c : Char) (rest : List Token) (hc : c.isDigit = false) :
    ∀ t ∈ (cons c rest).head?, t.isDigit = false := by
  intro t ht
  unfold cons at ht
  split at ht
  · obtain rfl := Option.some.inj ht
    rfl
  · obtain rfl := Option.some.inj ht
    exact hc

theorem head_lex {text : List Char} (h : Ends text) : ∀ t ∈ (lex text).head?, t.isDigit = false := by
  cases text with
  | nil => simp [lex]
  | cons c rest => exact head_cons c _ (h c rfl)

theorem cons_append (c : Char) {first second : List Token} (h : ∀ t ∈ second.head?, t.isDigit = false) :
    cons c (first ++ second) = cons c first ++ second := by
  obtain ⟨htake, hdrop⟩ := @takeWhile_append_of_head _ _ first _ h
  unfold cons
  rw [htake, hdrop]
  split <;> simp

-- A text may be taken apart where it does not go on with a digit.
theorem lex_append (first : List Char) {second : List Char} (h : Ends second) :
    lex (first ++ second) = lex first ++ lex second := by
  induction first with
  | nil => rfl
  | cons c first ih =>
      change cons c (lex (first ++ second)) = cons c (lex first) ++ lex second
      rw [ih, cons_append c (head_lex h)]

theorem lex_constant {text : List Char} (h : '$' ∉ text) : lex text = text.map Token.char := by
  induction text with
  | nil => rfl
  | cons c text ih =>
      rw [List.mem_cons, not_or] at h
      change cons c (lex text) = _
      rw [ih h.2, cons, if_neg fun hc => h.1 hc.1.symm, List.map_cons]

theorem lex_placeholder (k : Nat) : lex ('$' :: Nat.toDigits 10 k) = [.parameter k] := by
  have hdigit : ∀ c ∈ Nat.toDigits 10 k, c.isDigit = true :=
    fun c hc => Nat.isDigit_of_mem_toDigits (by decide) (by decide) hc
  have hconstant : lex (Nat.toDigits 10 k) = (Nat.toDigits 10 k).map Token.char := by
    refine lex_constant fun hdollar => ?_
    exact absurd (hdigit '$' hdollar) (by decide)
  have hall : ∀ t ∈ (Nat.toDigits 10 k).map Token.char, t.isDigit = true := by
    intro t ht
    obtain ⟨c, hc, rfl⟩ := List.mem_map.mp ht
    exact hdigit c hc
  have htake := List.takeWhile_eq_self_iff.mpr hall
  have hdrop := List.dropWhile_eq_nil_iff.mpr hall
  have hne : (Nat.toDigits 10 k).map Token.char ≠ [] := by simp [Nat.toDigits_ne_nil]
  have hback : ((Nat.toDigits 10 k).map Token.char).map Token.toChar = Nat.toDigits 10 k := by
    simp [Function.comp_def, Token.toChar]
  change cons '$' (lex (Nat.toDigits 10 k)) = _
  rw [hconstant, cons, htake, hdrop, if_pos ⟨rfl, hne⟩, hback, Nat.ofDigitChars_ten_toDigits]

theorem tokens_append (first : String) {second : String} (h : Ends second.toList) :
    tokens (first ++ second) = tokens first ++ tokens second := by
  rw [tokens, String.toList_append]
  exact lex_append _ h

theorem tokens_constant {text : String} (h : '$' ∉ text.toList) : tokens text = text.toList.map Token.char :=
  lex_constant h

theorem tokens_placeholder (k : Nat) : tokens ("$" ++ toString k) = [.parameter k] := by
  have htext : ("$" ++ toString k).toList = '$' :: Nat.toDigits 10 k := by simp
  rw [tokens, htext, lex_placeholder]

theorem parameters_append (first second : List Token) :
    parameters (first ++ second) = parameters first ++ parameters second :=
  List.filterMap_append

theorem parameters_constant (text : List Char) : parameters (text.map Token.char) = [] := by
  simp [parameters, List.filterMap_map]

end Lex

end Prepared
