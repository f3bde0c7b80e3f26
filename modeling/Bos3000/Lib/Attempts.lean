import Bos3000.Lib.RowLock

-- Serial histories of operations that the tables may refuse.
namespace RowLock

variable {κ ρ ε ω γ : Type*} [DecidableEq κ]

-- An operation in its turn, with the tables it found and, where they did not
-- refuse it, those it left.
structure Attempt (ω κ ρ ε : Type*) where
  op : ω
  before : Store κ ρ ε
  result : Option (Store κ ρ ε)

def Attempt.after (a : Attempt ω κ ρ ε) : Store κ ρ ε := a.result.getD a.before

def Attempt.succeeded (a : Attempt ω κ ρ ε) : Bool := a.result.isSome

variable (operation : ω → Operation κ ρ ε) (creation : γ → κ × ρ)

def attempt (s : Store κ ρ ε) (op : ω) : Attempt ω κ ρ ε := ⟨op, s, s.exec (operation op)⟩

def serve (s : Store κ ρ ε) : List ω → List (Attempt ω κ ρ ε)
  | [] => []
  | op :: rest => attempt operation s op :: serve (attempt operation s op).after rest

-- The tables after all attempts.
def served (s : Store κ ρ ε) (ops : List ω) : Store κ ρ ε :=
  ops.foldl (fun s op => (attempt operation s op).after) s

-- Each attempt that succeeds writes one entry.
theorem length_log_served (s : Store κ ρ ε) (ops : List ω) : (served operation s ops).log.length =
    s.log.length + ((serve operation s ops).filter Attempt.succeeded).length := by
  induction ops generalizing s with
  | nil => rfl
  | cons op rest ih =>
      have hafter := ih (attempt operation s op).after
      cases hexec : s.exec (operation op) with
      | none =>
          have hsame : (attempt operation s op).after = s := by simp [Attempt.after, attempt, hexec]
          have hfails : (attempt operation s op).succeeded = false := by
            simp [Attempt.succeeded, attempt, hexec]
          rw [hsame] at hafter
          simpa [serve, hsame, hfails, served] using hafter
      | some t =>
          have hnext : (attempt operation s op).after = t := by simp [Attempt.after, attempt, hexec]
          have hsucceeds : (attempt operation s op).succeeded = true := by
            simp [Attempt.succeeded, attempt, hexec]
          obtain ⟨_, _, _, _, _, rfl⟩ := Store.exec_eq_some.mp hexec
          rw [hnext] at hafter
          simp only [served, List.foldl_cons, hnext, serve, List.filter_cons, hsucceeds, if_true,
            List.length_cons, List.length_append, List.length_nil] at hafter ⊢
          omega

def Phase.isClosed : Phase ρ ε → Bool
  | .closed => true
  | .begun | .locked _ | .updated .. | .inserted .. => false

-- The operations of the sessions that have ended.
def finished (sessions : List (Session ω ρ ε)) : List ω :=
  (sessions.filter fun x => x.phase.isClosed).map Session.op

-- Nobody creates rows, and a session is rolled back only where the tables refuse
-- its operation.
def refusing (s : State ω κ ρ ε) : Label ω γ → Bool
  | .create _ => false
  | .rollback i =>
      match s.sessions[i]? with
      | some x => (s.committed.exec (operation x.op)).isNone
      | none => false
  | .begin _ | .lock _ | .update _ | .insert _ | .commit _ => true

omit [DecidableEq κ] in
theorem finished_set {sessions : List (Session ω ρ ε)} {i : Nat} {op : ω} {phase : Phase ρ ε}
    (hx : sessions[i]? = some ⟨op, phase⟩) (hopen : phase.isClosed = false) (next : Phase ρ ε) :
    (finished (sessions.set i ⟨op, next⟩)).Perm
      (if next.isClosed then op :: finished sessions else finished sessions) := by
  induction sessions generalizing i with
  | nil => cases hx
  | cons x rest ih =>
      cases i with
      | zero =>
          cases hx
          cases hnext : next.isClosed <;> simp [finished, hnext, hopen]
      | succ i =>
          have hrest := ih hx
          cases hclosed : x.phase.isClosed with
          | false => simpa [finished, hclosed] using hrest
          | true =>
              have hcons := hrest.cons x.op
              have hleft : finished ((x :: rest).set (i + 1) ⟨op, next⟩) =
                  x.op :: finished (rest.set i ⟨op, next⟩) := by
                simp [finished, hclosed]
              have hright : finished (x :: rest) = x.op :: finished rest := by
                simp [finished, hclosed]
              rw [hleft, hright]
              split at hcons
              · rename_i hnext
                rw [if_pos hnext]
                exact hcons.trans (.swap ..)
              · rename_i hnext
                rw [if_neg hnext]
                exact hcons

omit [DecidableEq κ] in
theorem finished_setPhase {s : State ω κ ρ ε} {i : Nat} {op : ω} {phase next : Phase ρ ε}
    (hx : s.sessions[i]? = some ⟨op, phase⟩) (hopen : phase.isClosed = false)
    (hnext : next.isClosed = false) :
    (finished (s.setPhase i op next).sessions).Perm (finished s.sessions) := by
  have hset := finished_set hx hopen next
  rwa [hnext] at hset

-- A step ends at most one session, with the outcome its operation has on the
-- committed tables at that moment.
theorem step_attempt {s t : State ω κ ρ ε} {label : Label ω γ} (hinv : Inv operation s)
    (hallowed : refusing operation s label = true) (hstep : step operation creation s label = some t) :
    (finished t.sessions).Perm (finished s.sessions) ∧ t.committed = s.committed ∨
    ∃ op, (finished t.sessions).Perm (op :: finished s.sessions) ∧
      t.committed = (attempt operation s.committed op).after := by
  cases label with
  | create c => cases hallowed
  | begin op =>
      cases hstep
      exact .inl ⟨by simp [finished, Phase.isClosed], rfl⟩
  | lock i =>
      simp only [step] at hstep
      split at hstep
      · rename_i op hx
        split at hstep
        · cases hstep
        · obtain ⟨row, _, rfl⟩ := Option.map_eq_some_iff.mp hstep
          exact .inl ⟨finished_setPhase hx rfl rfl, rfl⟩
      · cases hstep
  | update i =>
      simp only [step] at hstep
      split at hstep
      · rename_i op row hx
        obtain ⟨⟨new, entry⟩, _, rfl⟩ := Option.map_eq_some_iff.mp hstep
        exact .inl ⟨finished_setPhase hx rfl rfl, rfl⟩
      · cases hstep
  | insert i =>
      simp only [step] at hstep
      split at hstep
      · rename_i op row new entry hx
        cases hstep
        exact .inl ⟨finished_setPhase hx rfl rfl, rfl⟩
      · cases hstep
  | commit i =>
      simp only [step] at hstep
      split at hstep
      · rename_i op row new entry id hx
        cases hstep
        obtain ⟨hrow, heffect, _, _⟩ := hinv.holder _ (List.mem_of_getElem? hx)
        refine .inr ⟨op, finished_set hx rfl .closed, ?_⟩
        have hexec := (Store.exec_eq_some (s := s.committed)).mpr ⟨row, new, entry, hrow, heffect, rfl⟩
        rw [Attempt.after, attempt, hexec]
        simp [State.committed]
      · cases hstep
  | rollback i =>
      simp only [step] at hstep
      split at hstep
      · cases hstep
      · cases hstep
      · rename_i op phase hnot hx
        cases hstep
        have hopen : phase.isClosed = false := by
          cases phase with
          | closed => exact absurd rfl hnot
          | begun | locked | updated | inserted => rfl
        refine .inr ⟨op, finished_set hx hopen .closed, ?_⟩
        simp only [refusing, hx, Option.isNone_iff_eq_none] at hallowed
        rw [Attempt.after, attempt, hallowed]
        rfl

-- Sessions that interleave in any way leave the tables as their operations do, one
-- after the other in some order.
theorem interleaving_served {s t : State ω κ ρ ε} {labels : List (Label ω γ)} (hinv : Inv operation s)
    (hidle : s.sessions = [])
    (hrun : Machine.run (Machine.restrict (refusing operation) (step operation creation)) s labels = some t) :
    ∃ ops : List ω, ops.Perm (finished t.sessions) ∧ served operation s.committed ops = t.committed := by
  have hboth : Inv operation t ∧ ∃ ops : List ω, ops.Perm (finished t.sessions) ∧
      served operation s.committed ops = t.committed := by
    refine Machine.restrict_invariant (P := fun t => Inv operation t ∧ ∃ ops : List ω,
      ops.Perm (finished t.sessions) ∧ served operation s.committed ops = t.committed)
      ?_ ⟨hinv, [], by simp [hidle, finished], rfl⟩ hrun
    rintro u label v ⟨hu, ops, hperm, hserved⟩ hallowed hstep
    refine ⟨(step_serial operation creation hu hstep).1, ?_⟩
    obtain ⟨hfinished, hcommitted⟩ | ⟨op, hfinished, hcommitted⟩ :=
      step_attempt operation creation hu hallowed hstep
    · exact ⟨ops, hperm.trans hfinished.symm, hserved.trans hcommitted.symm⟩
    · refine ⟨ops ++ [op], ?_, ?_⟩
      · exact (List.perm_append_singleton op ops).trans ((hperm.cons op).trans hfinished.symm)
      · simp only [served, List.foldl_append, List.foldl_cons, List.foldl_nil] at hserved ⊢
        rw [hserved, hcommitted]
  exact hboth.2

end RowLock
