import Mathlib.Data.List.Infix
import Mathlib.Tactic.Common

-- A value whose changes are saved and announced by separate statements.
namespace Announce

variable {α : Type*}

-- A statement that saves names what it saves, or saves the value as it is. The
-- announcement is always of the value as it is.
inductive Op (α : Type*)
  | set (a : α)
  | write (a : α)
  | save
  | announce
  deriving DecidableEq, Repr

structure Ledger (α : Type*) where
  value : α
  saved : List α
  announced : List α

def Op.sets (value : α) : Op α → α
  | .set a => a
  | .write _ | .save | .announce => value

def Op.saves (value : α) : Op α → Option α
  | .write a => some a
  | .save => some value
  | .set _ | .announce => none

def Op.announces : Op α → Bool
  | .announce => true
  | .set _ | .write _ | .save => false

def Ledger.exec (s : Ledger α) (op : Op α) : Ledger α where
  value := op.sets s.value
  saved := s.saved ++ (op.saves s.value).toList
  announced := s.announced ++ if op.announces then [s.value] else []

-- The programs that announce each save before the next one and before the value
-- changes, from a value that is owed an announcement or not.
def Paired : Bool → α → List (Op α) → Prop
  | owed, _, [] => owed = false
  | false, _, .set a :: ops => Paired false a ops
  | false, value, .write a :: ops => a = value ∧ Paired true value ops
  | false, value, .save :: ops => Paired true value ops
  | true, value, .announce :: ops => Paired false value ops
  | true, _, .set _ :: _ | true, _, .write _ :: _ | true, _, .save :: _ | false, _, .announce :: _ => False

-- What was announced is what was saved, up to an announcement that is owed.
def Ledger.Owes (s : Ledger α) : Bool → Prop
  | false => s.saved = s.announced
  | true => s.saved = s.announced ++ [s.value]

theorem Ledger.Owes.announced_prefix {s : Ledger α} {owed : Bool} (h : s.Owes owed) :
    s.announced <+: s.saved := by
  cases owed with
  | false =>
      rw [show s.saved = s.announced from h]
  | true => exact ⟨[s.value], h.symm⟩

-- A paired program stays one while its statements are executed.
theorem Paired.exec {s : Ledger α} {owed : Bool} {op : Op α} {ops : List (Op α)}
    (h : Paired owed s.value (op :: ops)) (hs : s.Owes owed) :
    ∃ next, Paired next (s.exec op).value ops ∧ (s.exec op).Owes next := by
  cases owed with
  | false =>
      have hsame : s.saved = s.announced := hs
      cases op with
      | set a => exact ⟨false, h, by simp [Ledger.Owes, Ledger.exec, Op.saves, Op.announces, hsame]⟩
      | write a =>
          obtain ⟨rfl, hops⟩ := h
          exact ⟨true, hops, by simp [Ledger.Owes, Ledger.exec, Op.sets, Op.saves, Op.announces, hsame]⟩
      | save => exact ⟨true, h, by simp [Ledger.Owes, Ledger.exec, Op.sets, Op.saves, Op.announces, hsame]⟩
      | announce => exact False.elim h
  | true =>
      cases op with
      | announce =>
          have hahead : s.saved = s.announced ++ [s.value] := hs
          exact ⟨false, h, by simp [Ledger.Owes, Ledger.exec, Op.saves, Op.announces, hahead]⟩
      | set a | write a | save => exact False.elim h

end Announce
