import Bos3000.Lib.Pool
import Bos3000.Routing.Imports

-- The pool of numbers over time: how a number is picked for a call while others are
-- imported, assigned and unassigned, and how the numbers are listed.
namespace Bos3000.Routing

-- UPDATE did_numbers SET user_id = ... WHERE id = ...
def DIDNumbers.setOwner (t : DIDNumbers) (id : Int64) (userID : Option UserID) : DIDNumbers where
  rows := t.rows.map fun row => if (row.id : Int) = id.toInt then { row with userID } else row
  distinct := by
    have hsame : (fun row : DID => DID.number (if (row.id : Int) = id.toInt then { row with userID } else row)) =
        DID.number := by
      funext row
      split <;> rfl
    simpa [Function.comp_def, hsame] using t.distinct
  sequence := t.sequence
  drawn := by
    intro row hrow
    obtain ⟨old, hold, rfl⟩ := List.mem_map.mp hrow
    have hdrawn := t.drawn old hold
    split <;> exact hdrawn
  ids := by
    have hsame : (fun row : DID => DID.id (if (row.id : Int) = id.toInt then { row with userID } else row)) =
        DID.id := by
      funext row
      split <;> rfl
    simpa [Function.comp_def, hsame] using t.ids

-- AssignDID and UnassignDID, with what they answer where they succeed.
def moveDID {α : Type} (userID : Option UserID) (response : α) (auth : Option AuthData) (id : Int64)
    (fault : Option String) (t : DIDNumbers) : Except APIError α × DIDNumbers :=
  match requireAdmin auth with
  | .error e => (.error e, t)
  | .ok _ =>
      match fault with
      | some e => (.error ⟨.Unknown, e⟩, t)
      | none =>
          if t.rows.any fun row => (row.id : Int) = id.toInt then (.ok response, t.setOwner id userID)
          else (.error ⟨.NotFound, "DID not found"⟩, t)

structure AssignDIDResponse where
  id : Int64
  userID : UserID
  deriving DecidableEq, Repr

def assignDID (auth : Option AuthData) (id : Int64) (userID : UserID) (fault : Option String) (t : DIDNumbers) :
    Except APIError AssignDIDResponse × DIDNumbers :=
  moveDID (some userID) ⟨id, userID⟩ auth id fault t

structure UnassignDIDResponse where
  id : Int64
  deriving DecidableEq, Repr

def unassignDID (auth : Option AuthData) (id : Int64) (fault : Option String) (t : DIDNumbers) :
    Except APIError UnassignDIDResponse × DIDNumbers :=
  moveDID none ⟨id⟩ auth id fault t

structure SelectDIDResponse where
  number : String
  didID : Nat
  deriving DecidableEq, Repr

-- An execution of SelectDID is at its query of the user's numbers, at that of the
-- public ones, or has returned.
inductive SelectStage
  | dedicated
  | pool
  | returned (response : Except APIError SelectDIDResponse)

structure SelectTask where
  userID : UserID
  stage : SelectStage

-- Whose numbers its next query is for.
def SelectTask.asks (task : SelectTask) : Option (Option UserID) :=
  match task.stage with
  | .dedicated => some (some task.userID)
  | .pool => some none
  | .returned _ => none

def SelectTask.number (task : SelectTask) : Option SelectDIDResponse :=
  match task.stage with
  | .returned (.ok r) => some r
  | _ => none

-- The row that ORDER BY RANDOM() LIMIT 1 comes to, none where there is none, or a
-- failure.
inductive RandomRow
  | row (number : String)
  | noRow
  | fault
  deriving DecidableEq, Repr

def DID.offered (owner : Option UserID) (row : DID) : Bool := row.userID = owner && row.status = .available

-- The database answers with a row that matches, and without one only if none does.
def DIDNumbers.random (t : DIDNumbers) (owner : Option UserID) : RandomRow → Option (Option DID)
  | .row number => ((t.find number).filter (DID.offered owner)).map some
  | .noRow => if t.rows.any (DID.offered owner) then none else some none
  | .fault => some none

def noDIDAvailable : APIError := ⟨.ResourceExhausted, "no DID numbers available"⟩

def SelectTask.resume (t : DIDNumbers) (task : SelectTask) (answer : RandomRow) : Option (SelectTask × DIDNumbers) :=
  match task.stage with
  | .dedicated =>
      (t.random (some task.userID) answer).map fun
        | some row => ({ task with stage := .returned (.ok ⟨row.number, row.id⟩) }, t)
        | none => ({ task with stage := .pool }, t)
  | .pool =>
      (t.random none answer).map fun
        | some row => ({ task with stage := .returned (.ok ⟨row.number, row.id⟩) }, t)
        | none => ({ task with stage := .returned (.error noDIDAvailable) }, t)
  | .returned _ => none

def selectDID : Pool.Program DIDNumbers SelectTask UserID RandomRow where
  start userID := ⟨userID, .dedicated⟩
  resume := SelectTask.resume

inductive NumberLabel
  | imports (l : ImportLabel)
  | assign (auth : Option AuthData) (id : Int64) (userID : UserID) (fault : Option String)
  | unassign (auth : Option AuthData) (id : Int64) (fault : Option String)
  | select (l : Pool.Label UserID RandomRow)
  deriving DecidableEq

-- The numbers, the executions of SelectDID, and the imports under way.
structure Numbers extends Pool.State DIDNumbers SelectTask where
  imports : List Import

def Numbers.importing (s : Numbers) : Importing := ⟨s.shared, s.imports⟩

def Numbers.step (s : Numbers) : NumberLabel → Option Numbers
  | .imports l => (s.importing.step l).map fun next => { s with shared := next.numbers, imports := next.imports }
  | .assign auth id userID fault => some { s with shared := (assignDID auth id userID fault s.shared).2 }
  | .unassign auth id fault => some { s with shared := (unassignDID auth id fault s.shared).2 }
  | .select l => (Pool.step selectDID s.toState l).map fun next => { s with toState := next }

def Numbers.run (labels : List NumberLabel) : Option Numbers :=
  Machine.run Numbers.step ⟨⟨emptyDIDs, []⟩, []⟩ labels

-- What no operation changes of a row.
def DID.fixed (row : DID) : Nat × String × DIDStatus := (row.id, row.number, row.status)

theorem ids_fixed (rows : List DID) : rows.map DID.id = (rows.map DID.fixed).map Prod.fst := by
  rw [List.map_map]
  rfl

theorem numbers_fixed (rows : List DID) : rows.map DID.number = (rows.map DID.fixed).map fun x => x.2.1 := by
  rw [List.map_map]
  rfl

-- Only a commit adds rows, and these are its import's.
structure Numbers.Adds (s : Numbers) (l : NumberLabel) (t : Numbers) (new : List DID) : Prop where
  rows : t.shared.rows.map DID.fixed = (s.shared.rows ++ new).map DID.fixed
  committed : ∀ row ∈ new, ∃ i m, l = .imports (.commit i) ∧ s.imports[i]? = some m ∧ row ∈ m.rows

theorem Numbers.Adds.none {s t : Numbers} (l : NumberLabel)
    (h : t.shared.rows.map DID.fixed = s.shared.rows.map DID.fixed) : s.Adds l t [] where
  rows := by rw [h, List.append_nil]
  committed := fun _ hrow => absurd hrow List.not_mem_nil

theorem moveDID_fixed {α : Type} (userID : Option UserID) (response : α) (auth : Option AuthData) (id : Int64)
    (fault : Option String) (t : DIDNumbers) :
    (moveDID userID response auth id fault t).2.rows.map DID.fixed = t.rows.map DID.fixed ∧
      (moveDID userID response auth id fault t).2.sequence = t.sequence := by
  fun_cases moveDID userID response auth id fault t
  case case3 =>
      refine ⟨?_, rfl⟩
      rw [DIDNumbers.setOwner, List.map_map]
      refine List.map_congr_left fun row _ => ?_
      simp only [Function.comp_def]
      split <;> rfl
  all_goals exact ⟨rfl, rfl⟩

section Runs

variable {labels : List NumberLabel} {s t : Numbers} {l : NumberLabel}

theorem resume_numbers {numbers after : DIDNumbers} {task next : SelectTask} {answer : RandomRow}
    (h : task.resume numbers answer = some (next, after)) : after = numbers ∧ next.userID = task.userID := by
  unfold SelectTask.resume at h
  split at h
  · obtain ⟨found, _, heq⟩ := Option.map_eq_some_iff.mp h
    cases found <;> cases heq <;> exact ⟨rfl, rfl⟩
  · obtain ⟨found, _, heq⟩ := Option.map_eq_some_iff.mp h
    cases found <;> cases heq <;> exact ⟨rfl, rfl⟩
  · cases h

-- A pick reads the table only.
theorem select_importing {l : Pool.Label UserID RandomRow} (hstep : s.step (.select l) = some t) :
    t.importing = s.importing := by
  obtain ⟨next, hnext, rfl⟩ := Option.map_eq_some_iff.mp hstep
  cases l with
  | spawn userID =>
      cases hnext
      rfl
  | move i answer =>
      obtain ⟨task, after, shared, _, hresume, rfl⟩ := Pool.step_move.mp hnext
      simp only [Numbers.importing, (resume_numbers hresume).1]

theorem step_adds (hstep : s.step l = some t) : ∃ new, s.Adds l t new := by
  cases l with
  | imports l =>
      obtain ⟨next, hnext, rfl⟩ := Option.map_eq_some_iff.mp hstep
      cases Importing.step_cases hnext with
      | @committed i now rows numbers hm hjoin =>
          have hrows := congrArg (List.map DID.fixed) (join_eq_some hjoin).1
          exact ⟨rows, hrows, fun row hrow => ⟨i, _, rfl, hm, hrow⟩⟩
      | refused | started | drawn | skipped | placed | aborted => exact ⟨[], .none _ rfl⟩
  | assign auth id userID fault =>
      cases hstep
      exact ⟨[], .none _ (moveDID_fixed (some userID) _ auth id fault s.shared).1⟩
  | unassign auth id fault =>
      cases hstep
      exact ⟨[], .none _ (moveDID_fixed none _ auth id fault s.shared).1⟩
  | select l => exact ⟨[], .none _ (congrArg (fun m => m.numbers.rows.map DID.fixed) (select_importing hstep))⟩

theorem Importing.Inv.move {α : Type} (h : s.importing.Inv) (userID : Option UserID) (response : α)
    (auth : Option AuthData) (id : Int64) (fault : Option String) :
    Importing.Inv ⟨(moveDID userID response auth id fault s.shared).2, s.imports⟩ := by
  obtain ⟨hrows, hsequence⟩ := moveDID_fixed userID response auth id fault s.shared
  refine Importing.Inv.of_keys h ?_ ?_ hsequence
  · rw [numbers_fixed, hrows, ← numbers_fixed]
  · rw [ids_fixed, hrows, ← ids_fixed]

theorem step_inv (h : s.importing.Inv) (hstep : s.step l = some t) : t.importing.Inv := by
  cases l with
  | imports l =>
      obtain ⟨next, hnext, rfl⟩ := Option.map_eq_some_iff.mp hstep
      exact h.step hnext
  | assign auth id userID fault =>
      cases hstep
      exact h.move (some userID) _ auth id fault
  | unassign auth id fault =>
      cases hstep
      exact h.move none _ auth id fault
  | select l =>
      rw [select_importing hstep]
      exact h

-- Nothing takes a number out of the pool.
theorem inv_run (hrun : Numbers.run labels = some s) :
    s.importing.Inv ∧ ∀ row ∈ s.shared.rows, row.status = .available := by
  have hinv : s.importing.Inv ∧ ∀ x ∈ s.shared.rows.map DID.fixed, x.2.2 = .available := by
    refine Machine.invariant (P := fun s : Numbers =>
      s.importing.Inv ∧ ∀ x ∈ s.shared.rows.map DID.fixed, x.2.2 = .available) ?_ ?_ hrun
    · rintro s l t ⟨hinv, havailable⟩ hstep
      refine ⟨step_inv hinv hstep, fun x hx => ?_⟩
      obtain ⟨new, hnew⟩ := step_adds hstep
      rw [hnew.rows, List.map_append] at hx
      rcases List.mem_append.mp hx with hold | hlate
      · exact havailable x hold
      · obtain ⟨row, hrow, rfl⟩ := List.mem_map.mp hlate
        obtain ⟨i, m, _, hm, hwritten⟩ := hnew.committed row hrow
        exact hinv.available m (List.mem_of_getElem? hm) row (List.mem_append_left _ hwritten)
    · exact ⟨Importing.Inv.empty emptyDIDs, fun x hx => absurd hx List.not_mem_nil⟩
  exact ⟨hinv.1, fun row hrow => hinv.2 row.fixed (List.mem_map_of_mem hrow)⟩

-- An import that has written all its rows can commit.
theorem commit_step (hrun : Numbers.run labels = some s) {i : Nat} {now : Time} {rows : List DID}
    (hm : s.imports[i]? = some ⟨now, [], none, rows⟩) :
    ∃ t, s.step (.imports (.commit i)) = some t ∧ t.shared.rows = s.shared.rows ++ rows := by
  obtain ⟨next, hnext⟩ := Option.isSome_iff_exists.mp (((inv_run hrun).1.focus hm).join_isSome)
  have hcommit : s.importing.step (.commit i) = some ⟨next, s.imports.eraseIdx i⟩ := by
    simp only [Importing.step, Importing.commit, Numbers.importing, hm]
    exact congrArg (Option.map _) hnext
  refine ⟨_, congrArg (Option.map _) hcommit, ?_⟩
  exact (join_eq_some hnext).1

-- There was a moment without a number of the owner, or the query for one failed.
def RanOut (labels : List NumberLabel) (i : Nat) (owner : Option UserID) : Prop :=
  (∃ first s, first <+: labels ∧ Numbers.run first = some s ∧ ∀ row ∈ s.shared.rows, row.userID ≠ owner) ∨
    ∃ first s task, first ++ [.select (.move i .fault)] <+: labels ∧ Numbers.run first = some s ∧
      s.tasks[i]? = some task ∧ task.asks = some owner

-- There was a moment at which the number was the user's, or public while the user's
-- own had run out before.
def WasOffered (labels : List NumberLabel) (i : Nat) (userID : UserID) (r : SelectDIDResponse) : Prop :=
  ∃ first s row, first <+: labels ∧ Numbers.run first = some s ∧ s.shared.find r.number = some row ∧
    row.id = r.didID ∧ (row.userID = some userID ∨ row.userID = none ∧ RanOut first i (some userID))

def SelectInv (labels : List NumberLabel) (i : Nat) (task : SelectTask) : Prop :=
  match task.stage with
  | .dedicated => True
  | .pool => RanOut labels i (some task.userID)
  | .returned (.ok r) => WasOffered labels i task.userID r
  | .returned (.error e) => e = noDIDAvailable ∧ RanOut labels i (some task.userID) ∧ RanOut labels i none

theorem RanOut.later {i : Nat} {owner : Option UserID} (h : RanOut labels i owner) (l : NumberLabel) :
    RanOut (labels ++ [l]) i owner := by
  obtain ⟨first, s, hfirst, hrun, hnone⟩ | ⟨first, s, task, hfirst, hfault⟩ := h
  · exact .inl ⟨first, s, hfirst.trans (List.prefix_append labels [l]), hrun, hnone⟩
  · exact .inr ⟨first, s, task, hfirst.trans (List.prefix_append labels [l]), hfault⟩

theorem SelectInv.later {i : Nat} {task : SelectTask} (h : SelectInv labels i task) (l : NumberLabel) :
    SelectInv (labels ++ [l]) i task := by
  obtain ⟨userID, stage⟩ := task
  cases stage with
  | dedicated => trivial
  | pool => exact RanOut.later h l
  | returned response =>
      cases response with
      | ok r =>
          obtain ⟨first, s, row, hfirst, hrest⟩ := h
          exact ⟨first, s, row, hfirst.trans (List.prefix_append labels [l]), hrest⟩
      | error e => exact ⟨h.1, h.2.1.later l, h.2.2.later l⟩

-- What an answer of the database says about the numbers of an owner.
theorem random_cases (hrun : Numbers.run labels = some s) {i : Nat} {task : SelectTask}
    (htask : s.tasks[i]? = some task) {owner : Option UserID} (hasks : task.asks = some owner) {answer : RandomRow}
    {found : Option DID} (h : s.shared.random owner answer = some found) :
    (∃ row, found = some row ∧ s.shared.find row.number = some row ∧ row.userID = owner) ∨
      found = none ∧ RanOut (labels ++ [.select (.move i answer)]) i owner := by
  cases answer with
  | row number =>
      obtain ⟨row, hrow, rfl⟩ := Option.map_eq_some_iff.mp h
      obtain ⟨hfind, hoffered⟩ := Option.filter_eq_some_iff.mp hrow
      simp only [DID.offered, Bool.and_eq_true, decide_eq_true_eq] at hoffered
      refine .inl ⟨row, rfl, ?_, hoffered.1⟩
      rw [(Table.find_eq_some.mp hfind).2, hfind]
  | noRow =>
      simp only [DIDNumbers.random] at h
      split at h
      · cases h
      · rename_i hnone
        cases h
        refine .inr ⟨rfl, .inl ⟨labels, s, List.prefix_append _ _, hrun, fun row hrow howner => hnone ?_⟩⟩
        rw [List.any_eq_true]
        exact ⟨row, hrow, by simp [DID.offered, howner, (inv_run hrun).2 row hrow]⟩
  | fault =>
      cases h
      exact .inr ⟨rfl, .inr ⟨labels, s, task, List.prefix_refl _, hrun, htask, hasks⟩⟩

theorem SelectInv.resume (hrun : Numbers.run labels = some s) {i : Nat} {task next : SelectTask}
    {answer : RandomRow} {after : DIDNumbers} (htask : s.tasks[i]? = some task) (h : SelectInv labels i task)
    (hresume : task.resume s.shared answer = some (next, after)) :
    SelectInv (labels ++ [.select (.move i answer)]) i next := by
  obtain ⟨userID, stage⟩ := task
  cases stage with
  | dedicated =>
      obtain ⟨found, hfound, heq⟩ := Option.map_eq_some_iff.mp hresume
      obtain ⟨row, rfl, hfind, howner⟩ | ⟨rfl, hout⟩ := random_cases hrun htask rfl hfound <;> cases heq
      · exact ⟨labels, s, row, List.prefix_append _ _, hrun, hfind, rfl, .inl howner⟩
      · exact hout
  | pool =>
      obtain ⟨found, hfound, heq⟩ := Option.map_eq_some_iff.mp hresume
      obtain ⟨row, rfl, hfind, howner⟩ | ⟨rfl, hout⟩ := random_cases hrun htask rfl hfound <;> cases heq
      · exact ⟨labels, s, row, List.prefix_append _ _, hrun, hfind, rfl, .inr ⟨howner, h⟩⟩
      · exact ⟨rfl, RanOut.later h _, hout⟩
  | returned => cases hresume

-- An import of two numbers that nothing disturbs.
def imported (numbers : List String) (now : Time) : List NumberLabel :=
  [.imports (.start operator ⟨numbers, none⟩ none now)] ++
    (numbers.flatMap fun _ => [.imports (.draw 0), .imports (.place 0)]) ++ [.imports (.commit 0)]

-- A number is assigned to somebody else between the two queries.
def taken : List NumberLabel :=
  imported ["4001", "4002"] 0 ++ [.select (.spawn 7), .select (.move 0 .noRow),
    .assign operator 1 8 none, .select (.move 0 (.row "4002"))]

end Runs

end Bos3000.Routing
