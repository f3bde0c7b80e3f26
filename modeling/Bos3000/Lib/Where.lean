import Mathlib.Data.List.Basic
import Bos3000.Lib.Prepared

-- A WHERE clause that is written condition after condition, each with its argument,
-- and the conditions that a reader of its text finds.
namespace Prepared

-- The text so far, its arguments, and the number that the next one gets.
structure Clause (α : Type*) where
  text : String
  args : List α
  argIdx : Nat
  deriving DecidableEq, Repr

inductive Operator
  | equal | atLeast | atMost
  deriving DecidableEq, Repr

def Operator.text : Operator → String
  | .equal => "="
  | .atLeast => ">="
  | .atMost => "<="

-- A condition as it is meant.
structure Comparison (α : Type*) where
  column : String
  operator : Operator
  arg : α
  deriving DecidableEq, Repr

-- A condition as it is read: the place of its argument.
structure Placed where
  column : String
  operator : Operator
  place : Nat
  deriving DecidableEq, Repr

section Reader

def Token.isName : Token → Bool
  | .char c => c.isLower || c = '_'
  | .parameter _ => false

def readOperator : List Token → Option (Operator × List Token)
  | .char ' ' :: .char '=' :: .char ' ' :: rest => some (.equal, rest)
  | .char ' ' :: .char '>' :: .char '=' :: .char ' ' :: rest => some (.atLeast, rest)
  | .char ' ' :: .char '<' :: .char '=' :: .char ' ' :: rest => some (.atMost, rest)
  | _ => none

def readComparison (ts : List Token) : Option (Placed × List Token) :=
  match readOperator (ts.dropWhile Token.isName) with
  | some (operator, .parameter k :: rest) =>
      some (⟨String.ofList ((ts.takeWhile Token.isName).map Token.toChar), operator, k⟩, rest)
  | _ => none

-- At most `n` conditions, each after an AND.
def readAnds : Nat → List Token → Option (List Placed × List Token)
  | 0, ts => some ([], ts)
  | n + 1, ts =>
      match (tokens " AND ").isPrefixOf? ts with
      | none => some ([], ts)
      | some rest =>
          (readComparison rest).bind fun (c, rest) => (readAnds n rest).map fun (cs, rest) => (c :: cs, rest)

def readWhere (ts : List Token) : Option (List Placed × List Token) :=
  ((tokens "WHERE 1=1").isPrefixOf? ts).bind fun rest => readAnds rest.length rest

-- The conditions with the arguments that stand at their places.
def argued {α : Type*} (args : List α) (cs : List Placed) : Option (List (Comparison α)) :=
  cs.mapM fun c => (argument args c.place).map fun a => ⟨c.column, c.operator, a⟩

end Reader

section Writer

variable {α : Type*}

def Clause.start : Clause α := ⟨"WHERE 1=1", [], 1⟩

-- " AND status = $", where the number of the argument follows.
def Clause.add (q : Clause α) (condition : String) (a : α) : Clause α :=
  ⟨q.text ++ (condition ++ toString q.argIdx), q.args ++ [a], q.argIdx + 1⟩

-- A condition for a filter that may not be set.
def Clause.addIf (q : Clause α) (set : Prop) [Decidable set] (condition : String) (a : α) : Clause α :=
  if set then q.add condition a else q

def Comparison.condition (c : Comparison α) : String := " AND " ++ c.column ++ " " ++ c.operator.text ++ " $"

def Clause.addAll (q : Clause α) (cs : List (Comparison α)) : Clause α :=
  cs.foldl (fun q c => q.add c.condition c.arg) q

theorem Clause.addAll_append (q : Clause α) (cs ds : List (Comparison α)) :
    q.addAll (cs ++ ds) = (q.addAll cs).addAll ds := List.foldl_append

theorem Clause.addAll_ite (q : Clause α) (set : Prop) [Decidable set] (c : Comparison α) :
    q.addAll (if set then [c] else []) = q.addIf set c.condition c.arg := by
  unfold Clause.addIf
  split <;> rfl

theorem Clause.text_addAll (q : Clause α) (cs : List (Comparison α)) :
    ∃ rest, (q.addAll cs).text = q.text ++ rest := by
  induction cs generalizing q with
  | nil => exact ⟨"", String.append_empty.symm⟩
  | cons c rest ih =>
      obtain ⟨more, hmore⟩ := ih (q.add c.condition c.arg)
      exact ⟨c.condition ++ toString q.argIdx ++ more, by
        rw [Clause.addAll, List.foldl_cons, ← Clause.addAll, hmore, Clause.add, String.append_assoc]⟩

-- The text does not depend on the arguments.
theorem Clause.text_addAll_congr {q r : Clause α} (htext : q.text = r.text) (hidx : q.argIdx = r.argIdx)
    {cs ds : List (Comparison α)} (h : cs.map Comparison.condition = ds.map Comparison.condition) :
    (q.addAll cs).text = (r.addAll ds).text := by
  induction cs generalizing q r ds with
  | nil =>
      obtain rfl := List.map_eq_nil_iff.mp h.symm
      exact htext
  | cons c rest ih =>
      cases ds with
      | nil => cases h
      | cons d more =>
          rw [List.map_cons, List.map_cons, List.cons_eq_cons] at h
          have hadded : (q.add c.condition c.arg).text = (r.add d.condition d.arg).text := by
            simp only [Clause.add, htext, hidx, h.1]
          exact ih hadded (congrArg (· + 1) hidx) h.2

-- A column whose name the reader takes for one.
def Comparison.Named (c : Comparison α) : Prop := ∀ x ∈ c.column.toList, (Token.char x).isName = true

def Operator.tokens (operator : Operator) : List Token := Prepared.tokens (" " ++ operator.text ++ " ")

def Comparison.tokens (c : Comparison α) (k : Nat) : List Token :=
  Prepared.tokens " AND " ++ c.column.toList.map Token.char ++ c.operator.tokens ++ [.parameter k]

def writtenTokens (k : Nat) : List (Comparison α) → List Token
  | [] => []
  | c :: rest => c.tokens k ++ writtenTokens (k + 1) rest

def places (k : Nat) : List (Comparison α) → List Placed
  | [] => []
  | c :: rest => ⟨c.column, c.operator, k⟩ :: places (k + 1) rest

theorem Comparison.tokens_condition {c : Comparison α} (h : c.Named) (k : Nat) :
    Prepared.tokens (c.condition ++ toString k) = c.tokens k := by
  have hdollar : '$' ∉ c.column.toList := by
    intro hmem
    exact absurd (h '$' hmem) (by decide)
  have hconstant : '$' ∉ (" AND " ++ c.column ++ " " ++ c.operator.text ++ " ").toList := by
    cases hoperator : c.operator <;> simp [hdollar, Operator.text]
  have htext : c.condition ++ toString k =
      (" AND " ++ c.column ++ " " ++ c.operator.text ++ " ") ++ ("$" ++ toString k) := by
    apply String.toList_inj.mp
    simp [Comparison.condition]
  rw [htext, tokens_append _ (by simp [Ends]), tokens_placeholder, tokens_constant hconstant, Comparison.tokens,
    tokens_constant (by decide), Operator.tokens, tokens_constant (by cases c.operator <;> decide)]
  simp

theorem Clause.tokens_add (q : Clause α) {c : Comparison α} (h : c.Named) :
    Prepared.tokens (q.add c.condition c.arg).text = Prepared.tokens q.text ++ c.tokens q.argIdx := by
  have hends : Ends (c.condition ++ toString q.argIdx).toList := by simp [Ends, Comparison.condition]
  rw [Clause.add, tokens_append _ hends, Comparison.tokens_condition h]

-- What the conditions leave behind: their texts, their arguments, and the next number.
theorem Clause.addAll_eq (q : Clause α) {cs : List (Comparison α)} (h : ∀ c ∈ cs, c.Named) :
    Prepared.tokens (q.addAll cs).text = Prepared.tokens q.text ++ writtenTokens q.argIdx cs ∧
      (q.addAll cs).args = q.args ++ cs.map Comparison.arg ∧ (q.addAll cs).argIdx = q.argIdx + cs.length := by
  induction cs generalizing q with
  | nil => simp [Clause.addAll, writtenTokens]
  | cons c rest ih =>
      obtain ⟨htext, hargs, hidx⟩ := ih (q.add c.condition c.arg) fun d hd => h d (List.mem_cons_of_mem _ hd)
      refine ⟨?_, ?_, ?_⟩
      · rw [Clause.addAll, List.foldl_cons, ← Clause.addAll, htext, Clause.tokens_add q (h c List.mem_cons_self),
          writtenTokens, List.append_assoc]
        rfl
      · rw [Clause.addAll, List.foldl_cons, ← Clause.addAll, hargs]
        simp [Clause.add]
      · rw [Clause.addAll, List.foldl_cons, ← Clause.addAll, hidx]
        simp only [Clause.add, List.length_cons]
        omega

theorem parameters_writtenTokens (k : Nat) (cs : List (Comparison α)) :
    parameters (writtenTokens k cs) = List.range' k cs.length := by
  induction cs generalizing k with
  | nil => rfl
  | cons c rest ih =>
      have hoperator : parameters c.operator.tokens = [] := by cases c.operator <;> decide
      rw [writtenTokens, parameters_append, ih, Comparison.tokens, parameters_append, parameters_append,
        parameters_append, parameters_constant, hoperator, List.length_cons, List.range'_succ]
      rfl

theorem readComparison_tokens {c : Comparison α} (h : c.Named) (k : Nat) (tail : List Token) :
    readComparison (c.column.toList.map Token.char ++ (c.operator.tokens ++ .parameter k :: tail)) =
      some (⟨c.column, c.operator, k⟩, tail) := by
  have hname : ∀ t ∈ c.column.toList.map Token.char, t.isName = true := by
    intro t ht
    obtain ⟨x, hx, rfl⟩ := List.mem_map.mp ht
    exact h x hx
  have hblank : ∀ t ∈ (c.operator.tokens ++ .parameter k :: tail).head?, t.isName = false := by
    intro t ht
    cases hoperator : c.operator <;> rw [hoperator] at ht <;> obtain rfl := Option.some.inj ht <;> rfl
  obtain ⟨htake, hdrop⟩ := @takeWhile_append_of_head _ Token.isName (c.column.toList.map Token.char) _ hblank
  rw [List.takeWhile_eq_self_iff.mpr hname] at htake
  rw [List.dropWhile_eq_nil_iff.mpr hname, List.nil_append] at hdrop
  have hoperator : readOperator (c.operator.tokens ++ .parameter k :: tail) =
      some (c.operator, .parameter k :: tail) := by
    cases c.operator <;> rfl
  have hback : String.ofList ((c.column.toList.map Token.char).map Token.toChar) = c.column := by
    simp [Function.comp_def, Token.toChar]
  rw [readComparison, htake, hdrop, hoperator, hback]

-- The conditions are read back, up to a text that does not go on with one.
theorem readAnds_written {n : Nat} (k : Nat) {cs : List (Comparison α)} (h : ∀ c ∈ cs, c.Named) {tail : List Token}
    (htail : (tokens " AND ").isPrefixOf? tail = none) (hlength : cs.length ≤ n) :
    readAnds n (writtenTokens k cs ++ tail) = some (places k cs, tail) := by
  induction cs generalizing n k with
  | nil =>
      rw [writtenTokens, List.nil_append]
      cases n with
      | zero => rfl
      | succ n => rw [readAnds, htail]; rfl
  | cons c rest ih =>
      obtain ⟨n, rfl⟩ : ∃ m, n = m + 1 := ⟨n - 1, by simp at hlength; omega⟩
      have hrest := @ih n (k + 1) (fun d hd => h d (List.mem_cons_of_mem _ hd)) (by simpa using hlength)
      have hsplit : writtenTokens k (c :: rest) ++ tail = tokens " AND " ++ (c.column.toList.map Token.char ++
          (c.operator.tokens ++ .parameter k :: (writtenTokens (k + 1) rest ++ tail))) := by
        simp [writtenTokens, Comparison.tokens]
      rw [hsplit, readAnds, List.isPrefixOf?_eq_some_iff_append_eq.mpr rfl]
      simp only [readComparison_tokens (h c List.mem_cons_self), Option.bind_some, hrest, Option.map_some, places]

theorem length_writtenTokens (k : Nat) (cs : List (Comparison α)) : cs.length ≤ (writtenTokens k cs).length := by
  induction cs generalizing k with
  | nil => rfl
  | cons c rest ih =>
      have hrest := ih (k + 1)
      simp only [writtenTokens, Comparison.tokens, List.length_append, List.length_cons, List.length_nil]
      omega

theorem readWhere_written {cs : List (Comparison α)} (h : ∀ c ∈ cs, c.Named) {tail : List Token}
    (htail : (tokens " AND ").isPrefixOf? tail = none) :
    readWhere (tokens "WHERE 1=1" ++ (writtenTokens 1 cs ++ tail)) = some (places 1 cs, tail) := by
  have hlength := length_writtenTokens 1 cs
  rw [readWhere, List.isPrefixOf?_eq_some_iff_append_eq.mpr rfl, Option.bind_some]
  refine readAnds_written 1 h htail ?_
  rw [List.length_append]
  omega

-- Each place is that of the argument that the condition was written with.
theorem argued_places (before : List α) (cs : List (Comparison α)) (more : List α) :
    argued (before ++ cs.map Comparison.arg ++ more) (places (before.length + 1) cs) = some cs := by
  induction cs generalizing before with
  | nil => rfl
  | cons c rest ih =>
      have hown : argument (before ++ (c :: rest).map Comparison.arg ++ more) (before.length + 1) = some c.arg := by
        simp [argument]
      have hrest := ih (before ++ [c.arg])
      rw [List.length_append, List.length_singleton] at hrest
      have hargs : before ++ (c :: rest).map Comparison.arg ++ more =
          before ++ [c.arg] ++ rest.map Comparison.arg ++ more := by simp
      rw [argued, places, List.mapM_cons, hown, hargs, ← argued, hrest]
      rfl

end Writer

end Prepared
