import Mathlib.Tactic.Common
import Mathlib.Data.List.Induction

-- Rows that record a signed amount together with the balance reached by it.
namespace RunningBalance

variable {ε M : Type*} [Add M] (amount after : ε → M)

-- Each row's balance is the previous one, or the opening balance, plus its amount.
def Chain (opening : M) : List ε → Prop
  | [] => True
  | e :: rest => after e = opening + amount e ∧ Chain (after e) rest

def closing (opening : M) (rows : List ε) : M :=
  (rows.getLast?.map after).getD opening

variable {amount after}

omit [Add M] in
theorem closing_cons (opening : M) (e : ε) (rest : List ε) :
    closing after opening (e :: rest) = closing after (after e) rest := by
  cases rest with
  | nil => rfl
  | cons next tail =>
      rw [closing, closing, List.getLast?_cons_cons, List.getLast?_eq_some_getLast (List.cons_ne_nil next tail)]
      rfl

omit [Add M] in
@[simp] theorem closing_concat (opening : M) (rows : List ε) (e : ε) :
    closing after opening (rows ++ [e]) = after e := by
  simp [closing]

theorem chain_concat (opening : M) (rows : List ε) (e : ε) :
    Chain amount after opening (rows ++ [e]) ↔
      Chain amount after opening rows ∧ after e = closing after opening rows + amount e := by
  induction rows generalizing opening with
  | nil => simp [Chain, closing]
  | cons first rest ih =>
      simp only [List.cons_append, Chain, ih, closing_cons, and_assoc]

end RunningBalance
