import Bos3000.Lib.Machine
import Bos3000.Lib.Pool
import Mathlib.Logic.Function.Basic
import Mathlib.Data.List.Sort

-- Transactions that lock one row, rewrite it, append one entry to a log and
-- commit. Sessions interleave statement by statement. A session can roll back
-- at any point, and identifiers it drew are lost.
namespace RowLock

section Store

variable {κ ρ ε : Type*} [DecidableEq κ]

-- What an operation does with the row it locks: it refuses, or it gives the
-- row's new value and the entry that records the change.
structure Operation (κ ρ ε : Type*) where
  key : κ
  effect : ρ → Option (ρ × ε)

-- The committed tables as a serial client sees them.
structure Store (κ ρ ε : Type*) where
  rows : κ → Option ρ
  log : List (κ × ε)

def Store.empty : Store κ ρ ε := ⟨fun _ => none, []⟩

def Store.entriesOf (s : Store κ ρ ε) (key : κ) : List ε :=
  (s.log.filter fun entry => entry.1 = key).map Prod.snd

def Store.insert (s : Store κ ρ ε) (key : κ) (row : ρ) : Option (Store κ ρ ε) :=
  match s.rows key with
  | some _ => none
  | none => some { s with rows := Function.update s.rows key (some row) }

def Store.exec (s : Store κ ρ ε) (op : Operation κ ρ ε) : Option (Store κ ρ ε) :=
  match s.rows op.key with
  | none => none
  | some row =>
      match op.effect row with
      | none => none
      | some (new, entry) =>
          some ⟨Function.update s.rows op.key (some new), s.log ++ [(op.key, entry)]⟩

theorem Store.insert_eq_some {s t : Store κ ρ ε} {key : κ} {row : ρ} :
    s.insert key row = some t ↔
      s.rows key = none ∧ t = { s with rows := Function.update s.rows key (some row) } := by
  unfold Store.insert
  split <;> simp [*, eq_comm]

theorem Store.insert_rows {s t : Store κ ρ ε} {key other : κ} {row found : ρ}
    (hstep : s.insert key row = some t) (hfound : t.rows other = some found) :
    s.rows other = some found ∨ other = key ∧ found = row := by
  obtain ⟨_, rfl⟩ := Store.insert_eq_some.mp hstep
  by_cases hkey : other = key
  · subst hkey
    simp only [Function.update_self, Option.some.injEq] at hfound
    exact .inr ⟨rfl, hfound.symm⟩
  · simp only [Function.update_of_ne hkey] at hfound
    exact .inl hfound

theorem Store.exec_eq_some {s t : Store κ ρ ε} {op : Operation κ ρ ε} :
    s.exec op = some t ↔ ∃ row new entry, s.rows op.key = some row ∧
      op.effect row = some (new, entry) ∧
      t = ⟨Function.update s.rows op.key (some new), s.log ++ [(op.key, entry)]⟩ := by
  unfold Store.exec
  split
  · simp [*]
  · split <;> simp [*, eq_comm]

theorem Store.entriesOf_append (s : Store κ ρ ε) (rows : κ → Option ρ) (key other : κ) (entry : ε) :
    Store.entriesOf ⟨rows, s.log ++ [(other, entry)]⟩ key =
      if other = key then s.entriesOf key ++ [entry] else s.entriesOf key := by
  unfold Store.entriesOf
  split <;> simp [List.filter_append, *]

-- A relation between a row and the entries logged for it. Nothing is logged for
-- a key that has no row.
structure Store.Recorded (R : List ε → ρ → Prop) (s : Store κ ρ ε) : Prop where
  row : ∀ key row, s.rows key = some row → R (s.entriesOf key) row
  none : ∀ key, s.rows key = none → s.entriesOf key = []

theorem Store.insert_log {s t : Store κ ρ ε} {key : κ} {row : ρ} (hstep : s.insert key row = some t)
    (other : κ) : t.entriesOf other = s.entriesOf other := by
  obtain ⟨_, rfl⟩ := Store.insert_eq_some.mp hstep
  rfl

theorem Store.Recorded.insert {R : List ε → ρ → Prop} {s t : Store κ ρ ε} {key : κ} {row : ρ}
    (h : s.Recorded R) (hrow : R [] row) (hstep : s.insert key row = some t) : t.Recorded R := by
  constructor
  · intro other found hfound
    rw [Store.insert_log hstep]
    obtain hold | ⟨rfl, rfl⟩ := Store.insert_rows hstep hfound
    · exact h.row other found hold
    · have hnone := (Store.insert_eq_some.mp hstep).1
      rw [h.none other hnone]
      exact hrow
  · intro other hother
    rw [Store.insert_log hstep]
    obtain ⟨hnone, rfl⟩ := Store.insert_eq_some.mp hstep
    by_cases hkey : other = key
    · rw [hkey]
      exact h.none key hnone
    · simp only [Function.update_of_ne hkey] at hother
      exact h.none other hother

theorem Store.Recorded.exec {R : List ε → ρ → Prop} {s t : Store κ ρ ε} {op : Operation κ ρ ε}
    (h : s.Recorded R)
    (hop : ∀ entries row new entry, R entries row → op.effect row = some (new, entry) →
      R (entries ++ [entry]) new)
    (hstep : s.exec op = some t) : t.Recorded R := by
  obtain ⟨row, new, entry, hrow, heffect, rfl⟩ := Store.exec_eq_some.mp hstep
  constructor
  · intro other found hfound
    rw [Store.entriesOf_append]
    by_cases he : other = op.key
    · subst he
      simp only [Function.update_self, Option.some.injEq] at hfound
      subst hfound
      simpa using hop _ row new entry (h.row op.key row hrow) heffect
    · simp only [Function.update_of_ne he] at hfound
      simpa [Ne.symm he] using h.row other found hfound
  · intro other hother
    rw [Store.entriesOf_append]
    by_cases he : other = op.key
    · subst he
      simp at hother
    · simp only [Function.update_of_ne he] at hother
      simpa [Ne.symm he] using h.none other hother

end Store

section Sessions

variable {κ ρ ε ω γ : Type*} [DecidableEq κ]

structure Entry (κ ε : Type*) where
  id : Nat
  key : κ
  body : ε

-- Where a session stands between BEGIN and COMMIT. From `locked` to `inserted`
-- it holds the lock of its row, and its writes are not visible yet.
inductive Phase (ρ ε : Type*)
  | begun
  | locked (row : ρ)
  | updated (row new : ρ) (entry : ε)
  | inserted (row new : ρ) (entry : ε) (id : Nat)
  | closed

structure Session (ω ρ ε : Type*) where
  op : ω
  phase : Phase ρ ε

structure State (ω κ ρ ε : Type*) where
  rows : κ → Option ρ
  entries : List (Entry κ ε)
  nextId : Nat
  sessions : List (Session ω ρ ε)

inductive Label (ω γ : Type*)
  | create (c : γ)
  | begin (op : ω)
  | lock (session : Nat)
  | update (session : Nat)
  | insert (session : Nat)
  | commit (session : Nat)
  | rollback (session : Nat)

def State.empty : State ω κ ρ ε := ⟨fun _ => none, [], 0, []⟩

def Phase.holds : Phase ρ ε → Bool
  | .locked _ | .updated .. | .inserted .. => true
  | .begun | .closed => false

def State.setPhase (s : State ω κ ρ ε) (i : Nat) (op : ω) (phase : Phase ρ ε) : State ω κ ρ ε :=
  { s with sessions := s.sessions.set i ⟨op, phase⟩ }

variable (operation : ω → Operation κ ρ ε) (creation : γ → κ × ρ)

-- Some session holds the lock of the row.
def State.isLocked (s : State ω κ ρ ε) (key : κ) : Bool :=
  s.sessions.any fun x => x.phase.holds && ((operation x.op).key = key)

def step (s : State ω κ ρ ε) : Label ω γ → Option (State ω κ ρ ε)
  | .create c =>
      match s.rows (creation c).1 with
      | some _ => none
      | none => some { s with rows := Function.update s.rows (creation c).1 (some (creation c).2) }
  | .begin op => some { s with sessions := s.sessions ++ [⟨op, .begun⟩] }
  | .lock i =>
      match s.sessions[i]? with
      | some ⟨op, .begun⟩ =>
          if s.isLocked operation (operation op).key then none
          else (s.rows (operation op).key).map fun row => s.setPhase i op (.locked row)
      | _ => none
  | .update i =>
      match s.sessions[i]? with
      | some ⟨op, .locked row⟩ =>
          ((operation op).effect row).map fun (new, entry) => s.setPhase i op (.updated row new entry)
      | _ => none
  | .insert i =>
      match s.sessions[i]? with
      | some ⟨op, .updated row new entry⟩ =>
          some { s.setPhase i op (.inserted row new entry s.nextId) with nextId := s.nextId + 1 }
      | _ => none
  | .commit i =>
      match s.sessions[i]? with
      | some ⟨op, .inserted _ new entry id⟩ =>
          some { s.setPhase i op .closed with
            rows := Function.update s.rows (operation op).key (some new)
            entries := s.entries ++ [⟨id, (operation op).key, entry⟩] }
      | _ => none
  | .rollback i =>
      match s.sessions[i]? with
      | some ⟨_, .closed⟩ | none => none
      | some ⟨op, _⟩ => some (s.setPhase i op .closed)

-- The entries of one key in the order of their identifiers.
def State.inIdOrder (s : State ω κ ρ ε) (key : κ) : List (Entry κ ε) :=
  (s.entries.filter fun entry => entry.key = key).mergeSort fun a b => a.id ≤ b.id

def State.committed (s : State ω κ ρ ε) : Store κ ρ ε :=
  ⟨s.rows, s.entries.map fun entry => (entry.key, entry.body)⟩

inductive SerialLabel (ω γ : Type*)
  | create (c : γ)
  | exec (op : ω)

def serialStep (s : Store κ ρ ε) : SerialLabel ω γ → Option (Store κ ρ ε)
  | .create c => s.insert (creation c).1 (creation c).2
  | .exec op => s.exec (operation op)

section Exclusion

variable {operation}

-- No two sessions hold the lock of one row.
def Exclusive (operation : ω → Operation κ ρ ε) (sessions : List (Session ω ρ ε)) : Prop :=
  ∀ (i j : Nat) (x y : Session ω ρ ε), sessions[i]? = some x → sessions[j]? = some y →
    x.phase.holds → y.phase.holds → (operation x.op).key = (operation y.op).key → i = j

omit [DecidableEq κ] in
theorem Exclusive.set {sessions : List (Session ω ρ ε)} (h : Exclusive operation sessions)
    {i : Nat} {x : Session ω ρ ε} (hx : sessions[i]? = some x) (phase : Phase ρ ε)
    (hphase : phase.holds → x.phase.holds) :
    Exclusive operation (sessions.set i ⟨x.op, phase⟩) := by
  -- the changed session held the lock already whenever it holds it now
  have hold : ∀ (j : Nat) (y : Session ω ρ ε), (sessions.set i ⟨x.op, phase⟩)[j]? = some y →
      y.phase.holds → ∃ z, sessions[j]? = some z ∧ z.phase.holds ∧ z.op = y.op := by
    intro j y hy hholds
    obtain ⟨rfl, rfl⟩ | ⟨_, hy⟩ := Pool.getElem?_set_cases hy
    · exact ⟨x, hx, hphase hholds, rfl⟩
    · exact ⟨y, hy, hholds, rfl⟩
  intro j k y z hy hz hyh hzh hkey
  obtain ⟨y', hy', hyh', hyo⟩ := hold j y hy hyh
  obtain ⟨z', hz', hzh', hzo⟩ := hold k z hz hzh
  exact h j k y' z' hy' hz' hyh' hzh' (by rw [hyo, hzo]; exact hkey)

omit [DecidableEq κ] in
theorem Exclusive.begin {sessions : List (Session ω ρ ε)} (h : Exclusive operation sessions) (op : ω) :
    Exclusive operation (sessions ++ [⟨op, .begun⟩]) := by
  have hold : ∀ (j : Nat) (y : Session ω ρ ε), (sessions ++ [⟨op, .begun⟩])[j]? = some y →
      y.phase.holds → sessions[j]? = some y := by
    intro j y hy hholds
    obtain ⟨_, hy⟩ | ⟨_, rfl⟩ := Pool.getElem?_concat_cases hy
    · exact hy
    · cases hholds
  intro j k y z hy hz hyh hzh hkey
  exact h j k y z (hold j y hy hyh) (hold k z hz hzh) hyh hzh hkey

theorem Exclusive.lock {s : State ω κ ρ ε} (h : Exclusive operation s.sessions)
    {i : Nat} {x : Session ω ρ ε} (phase : Phase ρ ε)
    (hfree : s.isLocked operation (operation x.op).key = false) :
    Exclusive operation (s.sessions.set i ⟨x.op, phase⟩) := by
  have hother : ∀ (j : Nat) (y : Session ω ρ ε), s.sessions[j]? = some y → y.phase.holds →
      (operation y.op).key ≠ (operation x.op).key := by
    intro j y hy hholds hkey
    have hany := (List.any_eq_false.mp hfree) y (List.mem_of_getElem? hy)
    simp [hholds, hkey] at hany
  intro j k y z hy hz hyh hzh hkey
  obtain ⟨hji, rfl⟩ | ⟨_, hy⟩ := Pool.getElem?_set_cases hy <;>
    obtain ⟨hki, rfl⟩ | ⟨_, hz⟩ := Pool.getElem?_set_cases hz
  · exact hji.trans hki.symm
  · exact absurd hkey.symm (hother k z hz hzh)
  · exact absurd hkey (hother j y hy hyh)
  · exact h j k y z hy hz hyh hzh hkey

-- What a session knows of the tables while it holds its lock.
def Holder (operation : ω → Operation κ ρ ε) (s : State ω κ ρ ε) (x : Session ω ρ ε) : Prop :=
  match x.phase with
  | .begun | .closed => True
  | .locked row => s.rows (operation x.op).key = some row
  | .updated row new entry =>
      s.rows (operation x.op).key = some row ∧ (operation x.op).effect row = some (new, entry)
  | .inserted row new entry id =>
      s.rows (operation x.op).key = some row ∧ (operation x.op).effect row = some (new, entry) ∧
      id < s.nextId ∧ ∀ e ∈ s.entries, e.key = (operation x.op).key → e.id < id

omit [DecidableEq κ] in
theorem Holder.row_exists {s : State ω κ ρ ε} {x : Session ω ρ ε} (h : Holder operation s x)
    (hholds : x.phase.holds) : ∃ row, s.rows (operation x.op).key = some row := by
  obtain ⟨op, phase⟩ := x
  cases phase with
  | begun | closed => cases hholds
  | locked row => exact ⟨row, h⟩
  | updated row new entry => exact ⟨row, h.1⟩
  | inserted row new entry id => exact ⟨row, h.1⟩

structure Inv (operation : ω → Operation κ ρ ε) (s : State ω κ ρ ε) : Prop where
  exclusive : Exclusive operation s.sessions
  holder : ∀ x ∈ s.sessions, Holder operation s x
  fresh : ∀ e ∈ s.entries, e.id < s.nextId
  sorted : ∀ key, (s.entries.filter fun e => e.key = key).Pairwise fun a b => a.id < b.id

theorem inv_empty : Inv operation (State.empty : State ω κ ρ ε) where
  exclusive := by intro i j x y hx; simp [State.empty] at hx
  holder := by intro x hx; cases hx
  fresh := by intro e he; cases he
  sorted := by intro key; exact List.Pairwise.nil

omit [DecidableEq κ] in
-- The tables may change under a session that does not hold the changed row, as
-- long as identifiers grow and new entries carry another key.
theorem Holder.frame {s t : State ω κ ρ ε} {x : Session ω ρ ε} (h : Holder operation s x)
    (hrows : x.phase.holds → t.rows (operation x.op).key = s.rows (operation x.op).key)
    (hnext : s.nextId ≤ t.nextId)
    (hentries : x.phase.holds → ∀ e ∈ t.entries, e.key = (operation x.op).key → e ∈ s.entries) :
    Holder operation t x := by
  obtain ⟨op, phase⟩ := x
  cases phase with
  | begun => trivial
  | closed => trivial
  | locked row => exact (hrows rfl).trans h
  | updated row new entry => exact ⟨(hrows rfl).trans h.1, h.2⟩
  | inserted row new entry id =>
      obtain ⟨hrow, heffect, hid, hall⟩ := h
      exact ⟨(hrows rfl).trans hrow, heffect, Nat.lt_of_lt_of_le hid hnext,
        fun e he hkey => hall e (hentries rfl e he hkey) hkey⟩

-- A session moves on and the tables stay as they are.
theorem Inv.setPhase {s : State ω κ ρ ε} (h : Inv operation s) {i : Nat} {op : ω}
    {phase : Phase ρ ε} {nextId : Nat} (hnext : s.nextId ≤ nextId)
    (hexcl : Exclusive operation (s.sessions.set i ⟨op, phase⟩))
    (hholder : Holder operation { s.setPhase i op phase with nextId := nextId } ⟨op, phase⟩) :
    Inv operation { s.setPhase i op phase with nextId := nextId } where
  exclusive := hexcl
  holder := by
    intro x hx
    rcases List.mem_or_eq_of_mem_set hx with hx | rfl
    · exact (h.holder x hx).frame (fun _ => rfl) hnext (fun _ e he _ => he)
    · exact hholder
  fresh := fun e he => Nat.lt_of_lt_of_le (h.fresh e he) hnext
  sorted := h.sorted

theorem Inv.commit {s : State ω κ ρ ε} (h : Inv operation s) {i : Nat} {op : ω} {row new : ρ}
    {entry : ε} {id : Nat} (hx : s.sessions[i]? = some ⟨op, .inserted row new entry id⟩) :
    Inv operation { s.setPhase i op .closed with
      rows := Function.update s.rows (operation op).key (some new)
      entries := s.entries ++ [⟨id, (operation op).key, entry⟩] } := by
  obtain ⟨hrow, heffect, hid, hall⟩ := h.holder _ (List.mem_of_getElem? hx)
  constructor
  · exact h.exclusive.set hx .closed (fun hf => by cases hf)
  · intro y hy
    rw [State.setPhase] at hy
    obtain ⟨j, hj⟩ := List.mem_iff_getElem?.mp hy
    obtain ⟨_, rfl⟩ | ⟨hne, hj⟩ := Pool.getElem?_set_cases hj
    · trivial
    · -- another session that holds a lock holds it on another row
      have hkey : y.phase.holds → (operation y.op).key ≠ (operation op).key := by
        intro hyh he
        exact hne (h.exclusive i j _ y hx hj rfl hyh he.symm).symm
      refine (h.holder y (List.mem_of_getElem? hj)).frame ?_ (Nat.le_refl _) ?_
      · intro hyh
        exact Function.update_of_ne (hkey hyh) _ _
      · intro hyh e he hek
        rcases List.mem_append.mp he with he | he
        · exact he
        · rw [List.mem_singleton.mp he] at hek
          exact absurd hek.symm (hkey hyh)
  · intro e he
    rcases List.mem_append.mp he with he | he
    · exact h.fresh e he
    · rw [List.mem_singleton.mp he]
      exact hid
  · intro key
    rw [List.filter_append, List.pairwise_append]
    refine ⟨h.sorted key, ?_, ?_⟩
    · exact List.Pairwise.sublist List.filter_sublist (List.pairwise_singleton _ _)
    · intro a ha b hb
      obtain ⟨hb, hbk⟩ := List.mem_filter.mp hb
      obtain ⟨ha, hak⟩ := List.mem_filter.mp ha
      rw [List.mem_singleton.mp hb] at hbk ⊢
      simp only [decide_eq_true_eq] at hak hbk
      exact hall a ha (hak.trans hbk.symm)

theorem Inv.create {s : State ω κ ρ ε} (h : Inv operation s) {key : κ} (row : ρ)
    (hnone : s.rows key = none) :
    Inv operation { s with rows := Function.update s.rows key (some row) } where
  exclusive := h.exclusive
  holder := by
    intro x hx
    have hold := h.holder x hx
    refine hold.frame ?_ (Nat.le_refl _) (fun _ e he _ => he)
    intro hholds
    apply Function.update_of_ne
    rintro rfl
    obtain ⟨held, hheld⟩ := hold.row_exists hholds
    rw [hnone] at hheld
    cases hheld
  fresh := h.fresh
  sorted := h.sorted

theorem Inv.begin {s : State ω κ ρ ε} (h : Inv operation s) (op : ω) :
    Inv operation { s with sessions := s.sessions ++ [⟨op, .begun⟩] } where
  exclusive := h.exclusive.begin op
  holder := by
    intro x hx
    rcases List.mem_append.mp hx with hx | hx
    · exact (h.holder x hx).frame (fun _ => rfl) (Nat.le_refl _) (fun _ e he _ => he)
    · rw [List.mem_singleton.mp hx]
      trivial
  fresh := h.fresh
  sorted := h.sorted

end Exclusion

-- A session locks, writes and commits as one serial operation, which takes
-- effect at the commit. No other statement changes the committed tables.
theorem step_serial {s t : State ω κ ρ ε} {label : Label ω γ} (h : Inv operation s)
    (hstep : step operation creation s label = some t) :
    Inv operation t ∧ ∃ above : List (SerialLabel ω γ),
      Machine.run (serialStep operation creation) s.committed above = some t.committed := by
  cases label with
  | create c =>
      simp only [step] at hstep
      split at hstep
      · cases hstep
      · rename_i hnone
        cases hstep
        refine ⟨h.create _ hnone, [.create c], ?_⟩
        exact (Machine.run_singleton _ _ _).mpr (Store.insert_eq_some.mpr ⟨hnone, rfl⟩)
  | begin op =>
      cases hstep
      exact ⟨h.begin op, [], rfl⟩
  | lock i =>
      simp only [step] at hstep
      split at hstep
      · rename_i op hx
        split at hstep
        · cases hstep
        · rename_i hfree
          obtain ⟨row, hrow, rfl⟩ := Option.map_eq_some_iff.mp hstep
          have hexcl := h.exclusive.lock (x := ⟨op, .begun⟩) (i := i) (.locked row)
            (Bool.not_eq_true _ ▸ hfree)
          exact ⟨h.setPhase (Nat.le_refl _) hexcl hrow, [], rfl⟩
      · cases hstep
  | update i =>
      simp only [step] at hstep
      split at hstep
      · rename_i op row hx
        obtain ⟨⟨new, entry⟩, heffect, rfl⟩ := Option.map_eq_some_iff.mp hstep
        have hrow := h.holder _ (List.mem_of_getElem? hx)
        have hexcl := h.exclusive.set hx (.updated row new entry) (fun _ => rfl)
        exact ⟨h.setPhase (Nat.le_refl _) hexcl ⟨hrow, heffect⟩, [], rfl⟩
      · cases hstep
  | insert i =>
      simp only [step] at hstep
      split at hstep
      · rename_i op row new entry hx
        cases hstep
        obtain ⟨hrow, heffect⟩ := h.holder _ (List.mem_of_getElem? hx)
        have hexcl := h.exclusive.set hx (.inserted row new entry s.nextId) (fun _ => rfl)
        refine ⟨h.setPhase (Nat.le_succ _) hexcl ⟨hrow, heffect, Nat.lt_succ_self _, ?_⟩, [], rfl⟩
        exact fun e he _ => h.fresh e he
      · cases hstep
  | commit i =>
      simp only [step] at hstep
      split at hstep
      · rename_i op row new entry id hx
        cases hstep
        obtain ⟨hrow, heffect, _, _⟩ := h.holder _ (List.mem_of_getElem? hx)
        refine ⟨h.commit hx, [.exec op], ?_⟩
        apply (Machine.run_singleton _ _ _).mpr
        refine Store.exec_eq_some.mpr ⟨row, new, entry, hrow, heffect, ?_⟩
        simp [State.committed]
      · cases hstep
  | rollback i =>
      simp only [step] at hstep
      split at hstep
      · cases hstep
      · cases hstep
      · rename_i op phase hx hclosed
        cases hstep
        have hexcl := h.exclusive.set hclosed .closed (fun hf => by cases hf)
        exact ⟨h.setPhase (Nat.le_refl _) hexcl trivial, [], rfl⟩

theorem run_inv {s : State ω κ ρ ε} {labels : List (Label ω γ)}
    (hrun : Machine.run (step operation creation) State.empty labels = some s) : Inv operation s :=
  Machine.invariant (fun _ _ _ h hstep => (step_serial operation creation h hstep).1) inv_empty hrun

-- Where the value of a row comes from: it was there, it was created, or an operation
-- made it from the value before.
theorem step_rows {s t : State ω κ ρ ε} {label : Label ω γ} (h : Inv operation s)
    (hstep : step operation creation s label = some t) {key : κ} {row : ρ} (hrow : t.rows key = some row) :
    s.rows key = some row ∨ (∃ c, label = .create c ∧ creation c = (key, row)) ∨
    ∃ op old entry, (operation op).key = key ∧ s.rows key = some old ∧
      (operation op).effect old = some (row, entry) := by
  cases label with
  | create c =>
      simp only [step] at hstep
      split at hstep
      · cases hstep
      · cases hstep
        by_cases hkey : key = (creation c).1
        · subst hkey
          simp only [Function.update_self, Option.some.injEq] at hrow
          exact .inr (.inl ⟨c, rfl, Prod.ext rfl hrow⟩)
        · simp only [Function.update_of_ne hkey] at hrow
          exact .inl hrow
  | begin op =>
      cases hstep
      exact .inl hrow
  | lock i =>
      simp only [step] at hstep
      split at hstep
      · split at hstep
        · cases hstep
        · obtain ⟨_, _, rfl⟩ := Option.map_eq_some_iff.mp hstep
          exact .inl hrow
      · cases hstep
  | update i =>
      simp only [step] at hstep
      split at hstep
      · obtain ⟨_, _, rfl⟩ := Option.map_eq_some_iff.mp hstep
        exact .inl hrow
      · cases hstep
  | insert i =>
      simp only [step] at hstep
      split at hstep
      · cases hstep
        exact .inl hrow
      · cases hstep
  | commit i =>
      simp only [step] at hstep
      split at hstep
      · rename_i op old new entry id hx
        cases hstep
        obtain ⟨hold, heffect, _, _⟩ := h.holder _ (List.mem_of_getElem? hx)
        by_cases hkey : key = (operation op).key
        · subst hkey
          simp only [Function.update_self, Option.some.injEq] at hrow
          exact .inr (.inr ⟨op, old, entry, rfl, hold, hrow ▸ heffect⟩)
        · simp only [Function.update_of_ne hkey] at hrow
          exact .inl hrow
      · cases hstep
  | rollback i =>
      simp only [step] at hstep
      split at hstep
      · cases hstep
      · cases hstep
      · cases hstep
        exact .inl hrow

-- Every interleaving leaves the tables as some serial execution leaves them.
theorem serializable {s : State ω κ ρ ε} {labels : List (Label ω γ)}
    (hrun : Machine.run (step operation creation) State.empty labels = some s) :
    ∃ above : List (SerialLabel ω γ),
      Machine.run (serialStep operation creation) Store.empty above = some s.committed :=
  Machine.simulate State.committed (fun _ _ _ h hstep => step_serial operation creation h hstep)
    inv_empty hrun

-- A relation that creation establishes and every operation keeps holds of each
-- row and its entries in the order of their identifiers, however the sessions
-- interleave.
theorem recorded {R : List ε → ρ → Prop} (hcreate : ∀ c, R [] (creation c).2)
    (hop : ∀ op entries row new entry, R entries row →
      (operation op).effect row = some (new, entry) → R (entries ++ [entry]) new)
    {s : State ω κ ρ ε} {labels : List (Label ω γ)}
    (hrun : Machine.run (step operation creation) State.empty labels = some s) (key : κ) :
    ((s.inIdOrder key).Pairwise fun a b => a.id < b.id) ∧
    ∀ row, s.rows key = some row → R ((s.inIdOrder key).map Entry.body) row := by
  have hsorted := (run_inv operation creation hrun).sorted key
  have horder : s.inIdOrder key = s.entries.filter fun e => e.key = key := by
    apply List.mergeSort_of_pairwise
    exact hsorted.imp fun hlt => by simpa using Nat.le_of_lt hlt
  have hlog : (s.inIdOrder key).map Entry.body = s.committed.entriesOf key := by
    simp [horder, Store.entriesOf, State.committed, List.filter_map, Function.comp_def]
  obtain ⟨above, habove⟩ := serializable operation creation hrun
  have hrecorded : s.committed.Recorded R := by
    refine Machine.invariant ?_ ⟨?_, ?_⟩ habove
    · rintro a (c | op) b ha hb
      · exact ha.insert (hcreate c) hb
      · exact ha.exec (hop op) hb
    · intro k row hrow
      cases hrow
    · intro k _
      rfl
  refine ⟨horder ▸ hsorted, fun row hrow => ?_⟩
  rw [hlog]
  exact hrecorded.row key row hrow

end Sessions

end RowLock
