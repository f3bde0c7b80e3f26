import Bos3000.Lib.Machine
import Bos3000.Routing.DIDs
import Mathlib.Data.List.Perm.Basic

-- Imports that are under way at the same time. Ids are drawn as rows are written,
-- and all rows of an import come to the table when it commits.
namespace Bos3000.Routing

def DIDNumbers.draw (t : DIDNumbers) : DIDNumbers :=
  { t with sequence := t.sequence + 1, drawn := t.drawn_succ }

-- Rows whose ids were drawn before. Both of the table's keys are unique.
def DIDNumbers.join (t : DIDNumbers) (rows : List DID) : Option DIDNumbers :=
  if h : ((t.rows ++ rows).map DID.number).Nodup ∧ ((t.rows ++ rows).map DID.id).Nodup ∧
      ∀ row ∈ rows, row.id ≤ t.sequence then
    some
      { rows := t.rows ++ rows
        distinct := h.1
        sequence := t.sequence
        drawn := fun row hrow => (List.mem_append.mp hrow).elim (t.drawn row) (h.2.2 row)
        ids := h.2.1 }
  else none

-- The statement of an import: the rows that it has still to write, the one whose id
-- it has drawn, and those that it has written.
structure Import where
  now : Time
  values : List (String × Option UserID)
  drawn : Option DID
  rows : List DID
  deriving DecidableEq, Repr

def Import.written (m : Import) : List DID := m.rows ++ m.drawn.toList

section Written

variable {now : Time} {values rest : List (String × Option UserID)} {row : DID} {rows : List DID}

theorem written_place :
    (⟨now, values, none, rows ++ [row]⟩ : Import).written = (⟨now, values, some row, rows⟩ : Import).written :=
  List.append_nil _

theorem written_skip :
    (⟨now, values, none, rows⟩ : Import).written.Sublist (⟨now, values, some row, rows⟩ : Import).written :=
  (List.nil_sublist _).append_left rows

theorem mem_written_draw {other : DID} (h : other ∈ (⟨now, rest, some row, rows⟩ : Import).written) :
    other ∈ (⟨now, values, none, rows⟩ : Import).written ∨ other = row :=
  (List.mem_append.mp h).imp (List.mem_append_left _) List.mem_singleton.mp

end Written

theorem append_row_perm (before rows after : List DID) (row : DID) :
    (before ++ (rows ++ row :: after)).Perm (row :: (before ++ (rows ++ after))) := by
  rw [← List.append_assoc, ← List.append_assoc]
  exact List.perm_middle

-- The numbers that are there, and the imports under way.
structure Importing where
  numbers : DIDNumbers
  imports : List Import

inductive ImportLabel
  | start (auth : Option AuthData) (p : ImportDIDsParams) (fault : Option String) (now : Time)
  | draw (i : Nat)
  | place (i : Nat)
  | commit (i : Nat)
  | abort (i : Nat)
  deriving DecidableEq

namespace Importing

-- A statement that the database refuses changes nothing.
def start (auth : Option AuthData) (p : ImportDIDsParams) (fault : Option String) (now : Time) (s : Importing) :
    Importing :=
  match requireAdmin auth with
  | .error _ => s
  | .ok _ =>
      if p.numbers = [] then s
      else
        match fault, p.statement.values with
        | none, some values => { s with imports := s.imports ++ [⟨now, values, none, []⟩] }
        | _, _ => s

def draw (i : Nat) (s : Importing) : Option Importing :=
  match s.imports[i]? with
  | some ⟨now, (number, userID) :: rest, none, rows⟩ =>
      let row : DID := ⟨s.numbers.sequence + 1, number, userID, .available, none, now⟩
      some ⟨s.numbers.draw, s.imports.set i ⟨now, rest, some row, rows⟩⟩
  | _ => none

-- ON CONFLICT (number) DO NOTHING, which waits for an import that wrote the number.
def place (i : Nat) (s : Importing) : Option Importing :=
  match s.imports[i]? with
  | some ⟨now, values, some row, rows⟩ =>
      if (s.numbers.find row.number).isSome ∨ row.number ∈ rows.map DID.number then
        some { s with imports := s.imports.set i ⟨now, values, none, rows⟩ }
      else if s.imports.any fun other => row.number ∈ other.rows.map DID.number then none
      else some { s with imports := s.imports.set i ⟨now, values, none, rows ++ [row]⟩ }
  | _ => none

def commit (i : Nat) (s : Importing) : Option Importing :=
  match s.imports[i]? with
  | some ⟨_, [], none, rows⟩ => (s.numbers.join rows).map fun numbers => ⟨numbers, s.imports.eraseIdx i⟩
  | _ => none

-- The connection is lost, or a deadlock found. The ids that were drawn stay unused.
def abort (i : Nat) (s : Importing) : Importing := { s with imports := s.imports.eraseIdx i }

def step (s : Importing) : ImportLabel → Option Importing
  | .start auth p fault now => some (s.start auth p fault now)
  | .draw i => s.draw i
  | .place i => s.place i
  | .commit i => s.commit i
  | .abort i => some (s.abort i)

end Importing

section Join

variable {t next : DIDNumbers} {rows : List DID}

theorem join_eq_some (h : t.join rows = some next) :
    next.rows = t.rows ++ rows ∧ next.sequence = t.sequence ∧ ((t.rows ++ rows).map DID.number).Nodup ∧
      ((t.rows ++ rows).map DID.id).Nodup := by
  unfold DIDNumbers.join at h
  split at h
  · rename_i hkeys
    cases h
    exact ⟨rfl, rfl, hkeys.1, hkeys.2.1⟩
  · cases h

theorem DIDNumbers.ext {t u : DIDNumbers} (hrows : t.rows = u.rows) (hsequence : t.sequence = u.sequence) : t = u := by
  obtain ⟨⟨rows, _⟩, sequence, _, _⟩ := t
  obtain ⟨⟨rows', _⟩, sequence', _, _⟩ := u
  cases hrows
  cases hsequence
  rfl

-- What another order of writing has built up is the table that they join to.
theorem join_eq_of_rows (hrows : next.rows = t.rows ++ rows) (hsequence : next.sequence = t.sequence) :
    t.join rows = some next := by
  have hkeys : ((t.rows ++ rows).map DID.number).Nodup ∧ ((t.rows ++ rows).map DID.id).Nodup ∧
      ∀ row ∈ rows, row.id ≤ t.sequence := by
    rw [← hrows, ← hsequence]
    exact ⟨next.distinct, next.ids, fun row hrow => next.drawn row (hrows ▸ List.mem_append_right _ hrow)⟩
  rw [DIDNumbers.join, dif_pos hkeys]
  exact congrArg some (DIDNumbers.ext hrows.symm hsequence.symm)

end Join

section Start

variable {auth : Option AuthData} {p : ImportDIDsParams} (now : Time) (s : Importing)

theorem start_empty (hadmin : requireAdmin auth = .ok ()) (hempty : p.numbers = []) (fault : Option String) :
    s.start auth p fault now = s := by
  simp only [Importing.start, hadmin, if_pos hempty]

theorem start_values (hadmin : requireAdmin auth = .ok ()) (hne : p.numbers ≠ [])
    {values : List (String × Option UserID)} (hvalues : p.statement.values = some values) :
    s.start auth p none now = { s with imports := s.imports ++ [⟨now, values, none, []⟩] } := by
  simp only [Importing.start, hadmin, if_neg hne, hvalues]

end Start

-- What a step can do.
inductive Importing.Steps (s : Importing) : ImportLabel → Importing → Prop
  | refused {auth p fault now} : Steps s (.start auth p fault now) s
  | started {auth p fault now} (values : List (String × Option UserID)) :
      Steps s (.start auth p fault now) { s with imports := s.imports ++ [⟨now, values, none, []⟩] }
  | drawn {i now number userID rest rows} (hm : s.imports[i]? = some ⟨now, (number, userID) :: rest, none, rows⟩) :
      Steps s (.draw i) ⟨s.numbers.draw, s.imports.set i
        ⟨now, rest, some ⟨s.numbers.sequence + 1, number, userID, .available, none, now⟩, rows⟩⟩
  | skipped {i now values row rows} (hm : s.imports[i]? = some ⟨now, values, some row, rows⟩)
      (htaken : (s.numbers.find row.number).isSome ∨ row.number ∈ rows.map DID.number) :
      Steps s (.place i) { s with imports := s.imports.set i ⟨now, values, none, rows⟩ }
  | placed {i now values row rows} (hm : s.imports[i]? = some ⟨now, values, some row, rows⟩)
      (hnumbers : s.numbers.find row.number = none)
      (hothers : ∀ other ∈ s.imports, row.number ∉ other.rows.map DID.number) :
      Steps s (.place i) { s with imports := s.imports.set i ⟨now, values, none, rows ++ [row]⟩ }
  | committed {i now rows next} (hm : s.imports[i]? = some ⟨now, [], none, rows⟩)
      (hjoin : s.numbers.join rows = some next) : Steps s (.commit i) ⟨next, s.imports.eraseIdx i⟩
  | aborted {i} : Steps s (.abort i) { s with imports := s.imports.eraseIdx i }

theorem Importing.step_cases {s t : Importing} {l : ImportLabel} (hstep : s.step l = some t) : s.Steps l t := by
  cases l with
  | start auth p fault now =>
      cases hstep
      fun_cases Importing.start auth p fault now s
      case case3 values _ => exact .started values
      all_goals exact .refused
  | draw i =>
      change s.draw i = some t at hstep
      unfold Importing.draw at hstep
      split at hstep
      · rename_i hm
        cases hstep
        exact .drawn hm
      · cases hstep
  | place i =>
      change s.place i = some t at hstep
      unfold Importing.place at hstep
      split at hstep
      · rename_i hm
        split at hstep
        · rename_i htaken
          cases hstep
          exact .skipped hm htaken
        · rename_i hfree
          obtain ⟨hnumbers, _⟩ := not_or.mp hfree
          split at hstep
          · cases hstep
          · rename_i hothers
            cases hstep
            refine .placed hm (by simpa using hnumbers) fun other hother hmem => hothers ?_
            exact List.any_eq_true.mpr ⟨other, hother, decide_eq_true hmem⟩
      · cases hstep
  | commit i =>
      change s.commit i = some t at hstep
      unfold Importing.commit at hstep
      split at hstep
      · rename_i hm
        obtain ⟨next, hjoin, rfl⟩ := Option.map_eq_some_iff.mp hstep
        exact .committed hm hjoin
      · cases hstep
  | abort i =>
      cases hstep
      exact .aborted

-- No two rows that are there or under way have a number or an id in common.
structure Importing.Inv (s : Importing) : Prop where
  numbers : ((s.numbers.rows ++ s.imports.flatMap Import.rows).map DID.number).Nodup
  ids : ((s.numbers.rows ++ s.imports.flatMap Import.written).map DID.id).Nodup
  drawn : ∀ m ∈ s.imports, ∀ row ∈ m.written, row.id ≤ s.numbers.sequence
  available : ∀ m ∈ s.imports, ∀ row ∈ m.written, row.status = .available

namespace Importing.Inv

variable {t next : DIDNumbers} {imports others : List Import} {m : Import} {row : DID} {s : Importing} {i : Nat}

theorem perm (h : Inv ⟨t, imports⟩) (hperm : imports.Perm others) : Inv ⟨t, others⟩ where
  numbers := (((hperm.flatMap_right Import.rows).append_left t.rows).map DID.number).nodup_iff.mp h.numbers
  ids := (((hperm.flatMap_right Import.written).append_left t.rows).map DID.id).nodup_iff.mp h.ids
  drawn := fun m hm => h.drawn m (hperm.mem_iff.mpr hm)
  available := fun m hm => h.available m (hperm.mem_iff.mpr hm)

-- An import to the front, and back with what it has become.
theorem focus (h : s.Inv) (hm : s.imports[i]? = some m) : Inv ⟨s.numbers, m :: s.imports.eraseIdx i⟩ := by
  obtain ⟨hi, rfl⟩ := List.getElem?_eq_some_iff.mp hm
  exact h.perm (List.getElem_cons_eraseIdx_perm hi).symm

theorem unfocus {after : Import} (hm : s.imports[i]? = some m) (h : Inv ⟨next, after :: s.imports.eraseIdx i⟩) :
    Inv ⟨next, s.imports.set i after⟩ :=
  h.perm (List.set_perm_cons_eraseIdx (List.getElem?_eq_some_iff.mp hm).1 after).symm

theorem erase (h : Inv ⟨t, m :: others⟩) : Inv ⟨t, others⟩ where
  numbers := h.numbers.sublist (((List.sublist_append_right _ _).append_left t.rows).map _)
  ids := h.ids.sublist (((List.sublist_append_right _ _).append_left t.rows).map _)
  drawn := fun other hother => h.drawn other (List.mem_cons_of_mem m hother)
  available := fun other hother => h.available other (List.mem_cons_of_mem m hother)

theorem empty (t : DIDNumbers) : Inv ⟨t, []⟩ where
  numbers := by simpa using t.distinct
  ids := by simpa using t.ids
  drawn := fun _ hm => absurd hm List.not_mem_nil
  available := fun _ hm => absurd hm List.not_mem_nil

theorem start (h : Inv ⟨t, others⟩) (now : Time) (values : List (String × Option UserID)) :
    Inv ⟨t, ⟨now, values, none, []⟩ :: others⟩ where
  numbers := h.numbers
  ids := h.ids
  drawn := List.forall_mem_cons.mpr ⟨fun _ hrow => absurd hrow List.not_mem_nil, h.drawn⟩
  available := List.forall_mem_cons.mpr ⟨fun _ hrow => absurd hrow List.not_mem_nil, h.available⟩

theorem mem_ids (h : Inv ⟨t, imports⟩) (hrow : row ∈ t.rows ++ imports.flatMap Import.written) :
    row.id ≤ t.sequence := by
  rcases List.mem_append.mp hrow with hthere | hwritten
  · exact t.drawn row hthere
  · obtain ⟨m, hm, hrow⟩ := List.mem_flatMap.mp hwritten
    exact h.drawn m hm row hrow

-- What holds of all rows that the imports have written holds on when one goes on.
theorem written_cons {P : DID → Prop} {after : Import}
    (h : ∀ other ∈ m :: others, ∀ row ∈ other.written, P row)
    (hafter : ∀ row ∈ after.written, row ∈ m.written ∨ P row) :
    ∀ other ∈ after :: others, ∀ row ∈ other.written, P row := by
  obtain ⟨hfirst, hothers⟩ := List.forall_mem_cons.mp h
  exact List.forall_mem_cons.mpr ⟨fun row hrow => (hafter row hrow).elim (hfirst row) id, hothers⟩

variable {now : Time} {values rest : List (String × Option UserID)} {rows : List DID}

theorem draw (h : Inv ⟨t, ⟨now, values, none, rows⟩ :: others⟩) (hid : row.id = t.sequence + 1)
    (hstatus : row.status = .available) : Inv ⟨t.draw, ⟨now, rest, some row, rows⟩ :: others⟩ where
  numbers := h.numbers
  ids := by
    have hperm : (t.draw.rows ++ (⟨now, rest, some row, rows⟩ :: others : List Import).flatMap Import.written).Perm
        (row :: (t.rows ++ (⟨now, values, none, rows⟩ :: others : List Import).flatMap Import.written)) := by
      simp only [List.flatMap_cons, Import.written, Option.toList_some, Option.toList_none, List.append_nil,
        List.append_assoc, List.singleton_append]
      exact append_row_perm _ _ _ _
    refine (hperm.map DID.id).nodup_iff.mpr (List.nodup_cons.mpr ⟨?_, h.ids⟩)
    intro hmem
    obtain ⟨other, hother, heq⟩ := List.mem_map.mp hmem
    have hle := h.mem_ids hother
    omega
  drawn := written_cons (fun m hm other hother => Nat.le_succ_of_le (h.drawn m hm other hother))
    fun other hother => (mem_written_draw hother).imp_right (by rintro rfl; exact Nat.le_of_eq hid)
  available := written_cons h.available
    fun other hother => (mem_written_draw hother).imp_right (by rintro rfl; exact hstatus)

theorem skip (h : Inv ⟨t, ⟨now, values, some row, rows⟩ :: others⟩) :
    Inv ⟨t, ⟨now, values, none, rows⟩ :: others⟩ where
  numbers := h.numbers
  ids := h.ids.sublist (((written_skip.append_right _).append_left t.rows).map DID.id)
  drawn := written_cons h.drawn fun _ hother => .inl (written_skip.subset hother)
  available := written_cons h.available fun _ hother => .inl (written_skip.subset hother)

theorem place (h : Inv ⟨t, ⟨now, values, some row, rows⟩ :: others⟩)
    (hthere : row.number ∉ t.rows.map DID.number)
    (hwritten : ∀ m ∈ (⟨now, values, some row, rows⟩ :: others : List Import),
      row.number ∉ m.rows.map DID.number) :
    Inv ⟨t, ⟨now, values, none, rows ++ [row]⟩ :: others⟩ where
  numbers := by
    have hperm : (t.rows ++ (⟨now, values, none, rows ++ [row]⟩ :: others : List Import).flatMap Import.rows).Perm
        (row :: (t.rows ++ (⟨now, values, some row, rows⟩ :: others : List Import).flatMap Import.rows)) := by
      simp only [List.flatMap_cons, List.append_assoc, List.singleton_append]
      exact append_row_perm _ _ _ _
    refine (hperm.map DID.number).nodup_iff.mpr (List.nodup_cons.mpr ⟨?_, h.numbers⟩)
    rw [List.map_append, List.mem_append, not_or]
    refine ⟨hthere, fun hmem => ?_⟩
    obtain ⟨other, hother, heq⟩ := List.mem_map.mp hmem
    obtain ⟨m, hm, hother⟩ := List.mem_flatMap.mp hother
    exact hwritten m hm (heq ▸ List.mem_map_of_mem hother)
  ids := by
    rw [List.flatMap_cons, written_place]
    exact h.ids
  drawn := written_cons h.drawn fun _ hother => .inl (written_place ▸ hother)
  available := written_cons h.available fun _ hother => .inl (written_place ▸ hother)

-- The rows are the next ones of the table.
theorem commit (h : Inv ⟨t, ⟨now, [], none, rows⟩ :: others⟩) (hjoin : t.join rows = some next) :
    Inv ⟨next, others⟩ := by
  obtain ⟨hrows, hsequence, _⟩ := join_eq_some hjoin
  refine ⟨?_, ?_, ?_, fun m hm => h.available m (List.mem_cons_of_mem _ hm)⟩
  · rw [hrows, List.append_assoc]
    exact h.numbers
  · have hids := h.ids
    rw [List.flatMap_cons, Import.written, Option.toList_none, List.append_nil] at hids
    rw [hrows, List.append_assoc]
    exact hids
  · rw [hsequence]
    exact fun m hm => h.drawn m (List.mem_cons_of_mem _ hm)

-- Nothing else than its own rows holds a commit up.
theorem join_isSome (h : Inv ⟨t, ⟨now, [], none, rows⟩ :: others⟩) :
    (t.join rows).isSome := by
  have hsub : (t.rows ++ rows).Sublist (t.rows ++
      (⟨now, [], none, rows⟩ :: others : List Import).flatMap Import.rows) :=
    List.Sublist.append_left (List.sublist_append_left _ _) _
  have hwritten : (t.rows ++ rows).Sublist
      (t.rows ++ (⟨now, [], none, rows⟩ :: others : List Import).flatMap Import.written) := by
    rw [List.flatMap_cons, Import.written, Option.toList_none, List.append_nil]
    exact List.Sublist.append_left (List.sublist_append_left _ _) _
  have hdrawn : ∀ row ∈ rows, row.id ≤ t.sequence := fun row hrow =>
    h.mem_ids (List.mem_append_right _ (List.mem_flatMap.mpr
      ⟨_, List.mem_cons_self, List.mem_append_left _ hrow⟩))
  rw [DIDNumbers.join, dif_pos ⟨h.numbers.sublist (hsub.map _), h.ids.sublist (hwritten.map _), hdrawn⟩]
  rfl

theorem step {after : Importing} {l : ImportLabel} (h : s.Inv) (hstep : s.step l = some after) : after.Inv := by
  cases Importing.step_cases hstep with
  | refused => exact h
  | started values => exact (Inv.start h _ values).perm (List.perm_append_singleton _ _).symm
  | drawn hm => exact unfocus hm ((h.focus hm).draw rfl rfl)
  | skipped hm => exact unfocus hm (h.focus hm).skip
  | placed hm hnumbers hothers =>
      refine unfocus hm ((h.focus hm).place ?_ fun other hother => hothers other ?_)
      · intro hmem
        obtain ⟨row, hrow, hnumber⟩ := List.mem_map.mp hmem
        exact Table.find_eq_none.mp hnumbers row hrow hnumber
      · rcases List.mem_cons.mp hother with rfl | hother
        · exact List.mem_of_getElem? hm
        · exact List.mem_of_mem_eraseIdx hother
  | committed hm hjoin => exact (h.focus hm).commit hjoin
  | @aborted i =>
      cases hm : s.imports[i]? with
      | none =>
          rw [List.eraseIdx_of_length_le (List.getElem?_eq_none_iff.mp hm)]
          exact h
      | some m => exact (h.focus hm).erase

-- An owner is no key.
theorem of_keys (h : Inv ⟨t, imports⟩) (hnumbers : next.rows.map DID.number = t.rows.map DID.number)
    (hids : next.rows.map DID.id = t.rows.map DID.id) (hsequence : next.sequence = t.sequence) :
    Inv ⟨next, imports⟩ where
  numbers := by
    rw [List.map_append, hnumbers, ← List.map_append]
    exact h.numbers
  ids := by
    rw [List.map_append, hids, ← List.map_append]
    exact h.ids
  drawn := by
    rw [hsequence]
    exact h.drawn
  available := h.available

end Importing.Inv

-- One import at a time, whose ids are above all that are there.
structure Importing.Alone (s : Importing) : Prop where
  one : s.imports.length ≤ 1
  above : ∀ m ∈ s.imports, ∀ row ∈ m.written, ∀ id ∈ s.numbers.rows.map DID.id, id < row.id

namespace Importing.Alone

variable {s t : Importing} {i : Nat} {m after : Import}

theorem only (h : s.Alone) (hm : s.imports[i]? = some m) : s.imports = [m] ∧ i = 0 := by
  obtain ⟨numbers, imports⟩ := s
  obtain ⟨hi, hget⟩ := List.getElem?_eq_some_iff.mp hm
  obtain ⟨other, rfl⟩ := List.length_eq_one_iff.mp (show imports.length = 1 from
    Nat.le_antisymm h.one (Nat.zero_lt_of_lt hi))
  obtain rfl := Nat.lt_one_iff.mp hi
  cases hget
  exact ⟨rfl, rfl⟩

-- An import goes on with the rows it has, or with a new one that it draws.
theorem set (h : s.Alone) (hm : s.imports[i]? = some m) {numbers : DIDNumbers} (hrows : numbers.rows = s.numbers.rows)
    (hwritten : ∀ row ∈ after.written, row ∈ m.written ∨ s.numbers.sequence < row.id) :
    Alone ⟨numbers, s.imports.set i after⟩ := by
  obtain ⟨himports, rfl⟩ := h.only hm
  refine ⟨by simp [himports], fun other hother row hrow id hid => ?_⟩
  simp only [himports, List.set_cons_zero, List.mem_singleton] at hother
  subst hother
  rw [hrows] at hid
  rcases hwritten row hrow with hold | hnew
  · exact h.above m (List.mem_of_getElem? hm) row hold id hid
  · obtain ⟨there, hthere, rfl⟩ := List.mem_map.mp hid
    exact Nat.lt_of_le_of_lt (s.numbers.drawn there hthere) hnew

theorem erase (h : s.Alone) (i : Nat) : Alone ⟨s.numbers, s.imports.eraseIdx i⟩ where
  one := (List.eraseIdx_sublist _ _).length_le.trans h.one
  above := fun m hm => h.above m (List.mem_of_mem_eraseIdx hm)

theorem idle (numbers : DIDNumbers) : Alone ⟨numbers, []⟩ where
  one := Nat.zero_le _
  above := fun _ hm => absurd hm List.not_mem_nil

theorem step {l : ImportLabel} (h : s.Alone)
    (hstart : ∀ auth p fault now, l = .start auth p fault now → s.imports = [])
    (hstep : s.step l = some t) : t.Alone := by
  cases Importing.step_cases hstep with
  | refused => exact h
  | started values =>
      rw [hstart _ _ _ _ rfl]
      exact ⟨Nat.le_refl _, by simp [Import.written]⟩
  | drawn hm =>
      refine h.set hm rfl fun row hrow => (mem_written_draw hrow).imp_right ?_
      rintro rfl
      exact Nat.lt_succ_self _
  | skipped hm => exact h.set hm rfl fun row hrow => .inl (written_skip.subset hrow)
  | placed hm => exact h.set hm rfl fun row hrow => .inl (written_place ▸ hrow)
  | committed hm =>
      obtain ⟨himports, rfl⟩ := h.only hm
      rw [himports]
      exact Alone.idle _
  | aborted => exact h.erase _

end Importing.Alone

section Undisturbed

variable {t u : DIDNumbers} {now : Time}

theorem insertRow_sequence (t : DIDNumbers) (now : Time) (number : String) (userID : Option UserID) :
    (t.insertRow now number userID).2.sequence = t.sequence + 1 := by
  unfold DIDNumbers.insertRow
  split <;> rfl

-- A table to which the rows of the import have come at once goes along with it.
theorem writes_undisturbed (values : List (String × Option UserID)) {rows : List DID}
    (hrows : u.rows = t.rows ++ rows) (hsequence : u.sequence = t.sequence) :
    ∃ labels later written, Machine.run Importing.step ⟨t, [⟨now, values, none, rows⟩]⟩ labels =
        some ⟨later, [⟨now, [], none, written⟩]⟩ ∧
      (u.insertRows now values).2.rows = later.rows ++ written ∧
        (u.insertRows now values).2.sequence = later.sequence := by
  induction values generalizing t u rows with
  | nil => exact ⟨[], t, rows, rfl, hrows, hsequence⟩
  | cons value rest ih =>
      obtain ⟨number, userID⟩ := value
      have hdrawn : (u.insertRow now number userID).2.sequence = t.draw.sequence := by
        rw [insertRow_sequence, hsequence]
        rfl
      have hfind : (u.find number).isSome ↔ (t.draw.find number).isSome ∨ number ∈ rows.map DID.number := by
        rw [Table.find, hrows, List.find?_append, Option.isSome_or, Bool.or_eq_true]
        refine or_congr Iff.rfl ?_
        simp [List.find?_isSome]
      let row : DID := ⟨t.sequence + 1, number, userID, .available, none, now⟩
      obtain ⟨hsome, _, hsame⟩ | ⟨hnone, _, hinsert⟩ := insertRow_cases u now number userID
      · obtain ⟨labels, later, written, hrun, hlast⟩ := ih (t := t.draw) (hsame.trans hrows) hdrawn
        refine ⟨.draw 0 :: .place 0 :: labels, later, written, ?_, hlast⟩
        have hplace : Importing.step ⟨t.draw, [⟨now, rest, some row, rows⟩]⟩ (.place 0) =
            some ⟨t.draw, [⟨now, rest, none, rows⟩]⟩ := if_pos (hfind.mp hsome)
        exact (congrArg (Option.bind · _) hplace).trans hrun
      · have hadded : (u.insertRow now number userID).2.rows = t.rows ++ (rows ++ [row]) := by
          rw [(Table.insert_eq_some hinsert).1, hrows, hsequence, List.append_assoc]
        obtain ⟨labels, later, written, hrun, hlast⟩ := ih (t := t.draw) hadded hdrawn
        refine ⟨.draw 0 :: .place 0 :: labels, later, written, ?_, hlast⟩
        have hfree : ¬ ((t.draw.find number).isSome ∨ number ∈ rows.map DID.number) := by
          rw [← hfind, hnone]
          simp
        have halone : ¬ ([⟨now, rest, some row, rows⟩] : List Import).any
            (fun other => row.number ∈ other.rows.map DID.number) := by
          simpa [row] using (not_or.mp hfree).2
        have hplace : Importing.step ⟨t.draw, [⟨now, rest, some row, rows⟩]⟩ (.place 0) =
            some ⟨t.draw, [⟨now, rest, none, rows ++ [row]⟩]⟩ := (if_neg hfree).trans (if_neg halone)
        exact (congrArg (Option.bind · _) hplace).trans hrun

-- An import that no other overlaps leaves the table that importDIDs leaves.
theorem import_undisturbed {auth : Option AuthData} {p : ImportDIDsParams} {e : String}
    {response : ImportDIDsResponse} {next : DIDNumbers}
    (h : importDIDs auth p none e now t = (.ok response, next)) :
    ∃ labels, Machine.run Importing.step ⟨t, []⟩ (.start auth p none now :: labels) = some ⟨next, []⟩ := by
  revert h
  fun_cases importDIDs auth p none e now t
  case case2 hadmin hempty =>
      intro h
      cases h
      refine ⟨[], ?_⟩
      rw [Machine.run_singleton, Importing.step, start_empty now _ hadmin hempty _]
  case case5 hadmin hne imported after hexecute =>
      intro h
      cases h
      obtain ⟨values, hvalues, hinserted⟩ := Option.map_eq_some_iff.mp hexecute
      have hstart := start_values now ⟨t, []⟩ hadmin hne hvalues
      obtain ⟨labels, later, written, hrun, hrows, hsequence⟩ :=
        @writes_undisturbed t t now values [] (List.append_nil t.rows).symm rfl
      rw [hinserted] at hrows hsequence
      have hcommit : Importing.step ⟨later, [⟨now, [], none, written⟩]⟩ (.commit 0) = some ⟨next, []⟩ := by
        change (later.join written).map _ = _
        rw [join_eq_of_rows hrows hsequence]
        rfl
      refine ⟨labels ++ [.commit 0], ?_⟩
      rw [← List.cons_append, Machine.run_concat]
      refine ⟨_, ?_, hcommit⟩
      rw [Machine.run, Importing.step, hstart, Option.bind_some]
      exact hrun
  all_goals
    intro h
    cases h

end Undisturbed

end Bos3000.Routing
