import Bos3000.Lib.Machine
import Mathlib.Algebra.Order.BigOperators.Group.List
import Mathlib.Data.List.Count
import Mathlib.Data.List.Perm.Basic

-- Any number of tasks over one shared state. A move runs the next stretch of one
-- task up to its next access to the shared state, and moves interleave.
namespace Pool

variable {σ τ α ι : Type*}

structure State (σ τ : Type*) where
  shared : σ
  tasks : List τ

inductive Label (α ι : Type*)
  | spawn (request : α)
  | move (task : Nat) (answer : ι)
  deriving DecidableEq

-- How a task starts, and what it does with an answer of its environment.
structure Program (σ τ α ι : Type*) where
  start : α → τ
  resume : σ → τ → ι → Option (τ × σ)

variable {p : Program σ τ α ι} {s t : State σ τ}

def step (p : Program σ τ α ι) (s : State σ τ) : Label α ι → Option (State σ τ)
  | .spawn request => some { s with tasks := s.tasks ++ [p.start request] }
  | .move i answer =>
      match s.tasks[i]? with
      | none => none
      | some task =>
          (p.resume s.shared task answer).map fun (next, shared) => ⟨shared, s.tasks.set i next⟩

theorem step_move {i : Nat} {answer : ι} :
    step p s (.move i answer) = some t ↔ ∃ task next shared, s.tasks[i]? = some task ∧
      p.resume s.shared task answer = some (next, shared) ∧ t = ⟨shared, s.tasks.set i next⟩ := by
  simp only [step]
  split
  · simp [*]
  · simp [*, Option.map_eq_some_iff, @eq_comm _ t]

theorem getElem?_set_cases {tasks : List τ} {i j : Nat} {next task : τ} (h : (tasks.set i next)[j]? = some task) :
    j = i ∧ task = next ∨ j ≠ i ∧ tasks[j]? = some task := by
  rw [List.getElem?_set] at h
  by_cases hi : i = j
  · rw [if_pos hi] at h
    split at h <;> simp_all
  · rw [if_neg hi] at h
    exact .inr ⟨fun hji => hi hji.symm, h⟩

theorem mem_set {tasks : List τ} {i : Nat} {next task : τ} (h : task ∈ tasks.set i next) :
    task = next ∨ ∃ j, j ≠ i ∧ tasks[j]? = some task := by
  obtain ⟨j, hj⟩ := List.getElem?_of_mem h
  obtain ⟨-, rfl⟩ | ⟨hji, hsome⟩ := getElem?_set_cases hj
  · exact .inl rfl
  · exact .inr ⟨j, hji, hsome⟩

-- A task is one of the old ones, or the one that was added.
theorem getElem?_concat_cases {tasks : List τ} {j : Nat} {task other : τ} (h : (tasks ++ [task])[j]? = some other) :
    j < tasks.length ∧ tasks[j]? = some other ∨ j = tasks.length ∧ other = task := by
  obtain hlt | hge := Nat.lt_or_ge j tasks.length
  · rw [List.getElem?_append_left hlt] at h
    exact .inl ⟨hlt, h⟩
  · rw [List.getElem?_append_right hge, List.getElem?_singleton] at h
    split at h
    · exact .inr ⟨by omega, (Option.some.inj h).symm⟩
    · cases h

theorem mem_set_self {tasks : List τ} {i : Nat} {task : τ} (h : tasks[i]? = some task) (next : τ) :
    next ∈ tasks.set i next := by
  have hi := (List.getElem?_eq_some_iff.mp h).1
  exact List.mem_iff_getElem.mpr ⟨i, by simpa using hi, by simp⟩

theorem mem_set_other {tasks : List τ} {i j : Nat} {task : τ} (h : tasks[j]? = some task) (hj : j ≠ i)
    (next : τ) : task ∈ tasks.set i next := by
  apply List.mem_of_getElem? (i := j)
  rw [List.getElem?_set_ne hj.symm]
  exact h

-- A task other than the one that moves, or the one that moves.
theorem mem_iff_move {tasks : List τ} {i : Nat} {task other : τ} (h : tasks[i]? = some task) :
    other ∈ tasks ↔ other = task ∨ ∃ j, j ≠ i ∧ tasks[j]? = some other := by
  constructor
  · intro hother
    obtain ⟨j, hj⟩ := List.getElem?_of_mem hother
    by_cases hi : j = i
    · subst hi
      rw [h] at hj
      exact .inl (Option.some.inj hj).symm
    · exact .inr ⟨j, hi, hj⟩
  · rintro (rfl | ⟨j, _, hj⟩)
    · exact List.mem_of_getElem? h
    · exact List.mem_of_getElem? hj

-- Replacing a task changes a count of tasks by what the two count for.
theorem countP_set_add {l : List τ} {i : Nat} {x y : τ} (p : τ → Bool) (hx : l[i]? = some x) :
    (l.set i y).countP p + (p x).toNat = l.countP p + (p y).toNat := by
  obtain ⟨hi, rfl⟩ := List.getElem?_eq_some_iff.mp hx
  have hpos : p l[i] = true → 0 < l.countP p := fun h => List.countP_pos_iff.mpr ⟨_, List.getElem_mem hi, h⟩
  rw [List.countP_set hi]
  cases hp : p l[i] with
  | false => cases p y <;> simp
  | true =>
      have hcount := hpos hp
      cases p y <;> simp only [ite_true, Bool.false_eq_true, ite_false, Bool.toNat_true, Bool.toNat_false] <;> omega

-- A count of tasks without one of them.
theorem countP_eraseIdx_add {l : List τ} {i : Nat} {x : τ} (p : τ → Bool) (hx : l[i]? = some x) :
    (l.eraseIdx i).countP p + (p x).toNat = l.countP p := by
  obtain ⟨hi, rfl⟩ := List.getElem?_eq_some_iff.mp hx
  rw [← (List.getElem_cons_eraseIdx_perm hi).countP_eq p, List.countP_cons]
  cases p l[i] <;> simp

-- A task that is all that a count counts is the only one counted.
theorem not_of_countP_le {l : List τ} {i j : Nat} {x y : τ} (p : τ → Bool) (hx : l[i]? = some x)
    (hcount : l.countP p ≤ (p x).toNat) (hy : l[j]? = some y) (hj : j ≠ i) : p y = false := by
  have herase := countP_eraseIdx_add p hx
  have hzero : (l.eraseIdx i).countP p = 0 := by omega
  have hmem : y ∈ l.eraseIdx i := List.mem_eraseIdx_iff_getElem?.mpr ⟨j, hj, hy⟩
  simpa using List.countP_eq_zero.mp hzero y hmem

-- A count of tasks is below any that counts the same tasks and one more.
theorem countP_lt {l : List τ} {p q : τ → Bool} (h : ∀ x ∈ l, p x → q x) {x : τ} (hx : x ∈ l)
    (hq : q x = true) (hp : p x = false) : l.countP p < l.countP q := by
  have hboth : l.countP p = (l.filter q).countP p := by
    rw [List.countP_filter]
    refine List.countP_congr fun y hy => ?_
    have himplies := h y hy
    cases hpy : p y <;> simp_all
  rw [hboth, List.countP_eq_length_filter (p := q)]
  exact List.countP_lt_length_iff.mpr ⟨x, List.mem_filter.mpr ⟨hx, hq⟩, hp⟩

-- What a task asserts about the shared state holds of every task after a step:
-- of the task that moved by its own move, of the others because no move
-- interferes with them.
theorem forall_step {A : σ → τ → Prop} {l : Label α ι} (h : ∀ task ∈ s.tasks, A s.shared task)
    (hspawn : ∀ request, l = .spawn request → A s.shared (p.start request))
    (hmove : ∀ i answer task next shared, l = .move i answer → s.tasks[i]? = some task →
      p.resume s.shared task answer = some (next, shared) → A s.shared task →
      A shared next ∧ ∀ j other, j ≠ i → s.tasks[j]? = some other → A s.shared other → A shared other)
    (hstep : step p s l = some t) : ∀ task ∈ t.tasks, A t.shared task := by
  cases l with
  | spawn request =>
      cases hstep
      intro task htask
      rcases List.mem_append.mp htask with hold | hnew
      · exact h task hold
      · rw [List.mem_singleton] at hnew
        subst hnew
        exact hspawn request rfl
  | move i answer =>
      obtain ⟨task, next, shared, htask, hresume, rfl⟩ := step_move.mp hstep
      obtain ⟨hnext, hothers⟩ := hmove i answer task next shared rfl htask hresume
        (h task (List.mem_of_getElem? htask))
      intro other hother
      obtain rfl | ⟨j, hj, hsome⟩ := mem_set hother
      · exact hnext
      · exact hothers j other hj hsome (h other (List.mem_of_getElem? hsome))

end Pool
