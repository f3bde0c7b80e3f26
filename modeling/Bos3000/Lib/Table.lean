import Mathlib.Data.List.Nodup
import Mathlib.Tactic.Common

-- Tables whose rows are found by a primary key.
structure Table {ρ κ : Type*} (key : ρ → κ) where
  rows : List ρ
  distinct : (rows.map key).Nodup

namespace Table

variable {ρ κ : Type*} {key : ρ → κ}

def empty : Table key := ⟨[], List.nodup_nil⟩

variable [DecidableEq κ]

def find (t : Table key) (k : κ) : Option ρ := t.rows.find? fun row => key row = k

-- An insertion fails where a row has the key already.
def insert (t : Table key) (row : ρ) : Option (Table key) :=
  if h : key row ∈ t.rows.map key then none
  else some
    { rows := t.rows ++ [row]
      distinct := by
        rw [List.map_append]
        exact List.nodup_append.mpr ⟨t.distinct, List.nodup_singleton _, by grind⟩ }

def delete (t : Table key) (condemned : ρ → Bool) : Table key where
  rows := t.rows.filter fun row => !condemned row
  distinct := t.distinct.sublist (List.filter_sublist.map key)

-- An update of the row with a key, which leaves the key alone.
def update (t : Table key) (k : κ) (assign : ρ → ρ) (hassign : ∀ row, key (assign row) = key row) :
    Table key where
  rows := t.rows.map fun row => if key row = k then assign row else row
  distinct := by
    have hkey : (fun row => key (if key row = k then assign row else row)) = key := by
      funext row
      split <;> simp [hassign]
    simpa [Function.comp_def, hkey] using t.distinct

variable {t u : Table key} {row other : ρ} {k : κ} {assign : ρ → ρ}
    {hassign : ∀ row, key (assign row) = key row}

omit [DecidableEq κ] in
theorem row_unique (t : Table key) (hrow : row ∈ t.rows) (hother : other ∈ t.rows)
    (hkey : key row = key other) : row = other :=
  List.inj_on_of_nodup_map t.distinct hrow hother hkey

theorem find_eq_some : t.find k = some row ↔ row ∈ t.rows ∧ key row = k := by
  unfold find
  constructor
  · intro h
    exact ⟨List.mem_of_find?_eq_some h, by simpa using List.find?_some h⟩
  · rintro ⟨hrow, rfl⟩
    cases hfind : t.rows.find? fun other => key other = key row with
    | none =>
        have hnot := List.find?_eq_none.mp hfind row hrow
        simp at hnot
    | some found =>
        have hkey : key found = key row := by simpa using List.find?_some hfind
        rw [t.row_unique (List.mem_of_find?_eq_some hfind) hrow hkey]

omit [DecidableEq κ] in
theorem mem_delete {condemned : ρ → Bool} :
    row ∈ (t.delete condemned).rows ↔ row ∈ t.rows ∧ condemned row = false := by
  simp [delete]

theorem find_eq_none : t.find k = none ↔ ∀ row ∈ t.rows, key row ≠ k := by
  simp [find]

theorem mem_update : row ∈ (t.update k assign hassign).rows ↔
    ∃ old ∈ t.rows, row = if key old = k then assign old else old := by
  simp [update, eq_comm]

-- What an update leaves under a key.
theorem find_update (k' : κ) : (t.update k assign hassign).find k' =
    (t.find k').map fun row => if k' = k then assign row else row := by
  cases hfind : t.find k' with
  | none =>
      rw [Option.map_none, find_eq_none]
      intro row hrow
      obtain ⟨old, hold, rfl⟩ := mem_update.mp hrow
      have hne := find_eq_none.mp hfind old hold
      split <;> simp_all
  | some row =>
      obtain ⟨hrow, rfl⟩ := find_eq_some.mp hfind
      rw [Option.map_some, find_eq_some]
      refine ⟨mem_update.mpr ⟨row, hrow, rfl⟩, ?_⟩
      split
      · exact hassign row
      · rfl

theorem insert_eq_some (h : t.insert row = some u) :
    u.rows = t.rows ++ [row] ∧ t.find (key row) = none := by
  unfold insert at h
  split at h
  · cases h
  · rename_i hnew
    cases h
    refine ⟨rfl, find_eq_none.mpr fun other hother hkey => hnew ?_⟩
    exact List.mem_map.mpr ⟨other, hother, hkey⟩

theorem find_insert (h : t.insert row = some u) (k' : κ) :
    u.find k' = if k' = key row then some row else t.find k' := by
  obtain ⟨hrows, hnone⟩ := insert_eq_some h
  by_cases hkey : k' = key row
  · rw [if_pos hkey, find_eq_some, hrows]
    exact ⟨by simp, hkey.symm⟩
  · rw [if_neg hkey, find, hrows, List.find?_append]
    have hnot : [row].find? (fun row => key row = k') = none := by
      simp [Ne.symm hkey]
    rw [hnot, Option.or_none]
    rfl

end Table

-- Tables with a second unique column, or tuple of columns.
structure IndexedTable {ρ κ β : Type*} (key : ρ → κ) (index : ρ → β) extends Table key where
  indexed : (rows.map index).Nodup

namespace IndexedTable

variable {ρ κ β : Type*} {key : ρ → κ} {index : ρ → β}

def empty : IndexedTable key index := ⟨Table.empty, List.nodup_nil⟩

def delete (t : IndexedTable key index) (condemned : ρ → Bool) : IndexedTable key index where
  toTable := t.toTable.delete condemned
  indexed := t.indexed.sublist (List.filter_sublist.map index)

-- An update that leaves the indexed columns alone.
def assign [DecidableEq κ] (t : IndexedTable key index) (k : κ) (f : ρ → ρ)
    (hkey : ∀ row, key (f row) = key row) (hindex : ∀ row, index (f row) = index row) :
    IndexedTable key index where
  toTable := t.toTable.update k f hkey
  indexed := by
    have hsame : (fun row => index (if key row = k then f row else row)) = index := by
      funext row
      split <;> simp [hindex]
    simpa [Table.update, Function.comp_def, hsame] using t.indexed

variable [DecidableEq β]

def findBy (t : IndexedTable key index) (b : β) : Option ρ := t.rows.find? fun row => index row = b

-- A write goes through if the table it leaves has no duplicate in the index.
def ofTable? (t : Table key) : Option (IndexedTable key index) :=
  if h : (t.rows.map index).Nodup then some ⟨t, h⟩ else none

variable [DecidableEq κ]

def insert (t : IndexedTable key index) (row : ρ) : Option (IndexedTable key index) :=
  (t.toTable.insert row).bind ofTable?

def update (t : IndexedTable key index) (k : κ) (assign : ρ → ρ)
    (hassign : ∀ row, key (assign row) = key row) : Option (IndexedTable key index) :=
  ofTable? (t.toTable.update k assign hassign)

variable {t u : IndexedTable key index} {row other : ρ}

omit [DecidableEq κ] in
theorem ofTable?_eq_some {t : Table key} : ofTable? t = some u ↔ u.toTable = t := by
  unfold ofTable?
  split
  · rw [Option.some.injEq]
    exact ⟨fun h => h ▸ rfl, fun h => by cases u; cases h; rfl⟩
  · rename_i hnot
    simp only [reduceCtorEq, false_iff]
    rintro rfl
    exact hnot u.indexed

theorem insert_eq_some : t.insert row = some u ↔ t.toTable.insert row = some u.toTable := by
  simp only [insert, Option.bind_eq_some_iff, ofTable?_eq_some]
  exact ⟨fun ⟨_, h, hu⟩ => hu ▸ h, fun h => ⟨_, h, rfl⟩⟩

omit [DecidableEq β] [DecidableEq κ] in
theorem index_unique (t : IndexedTable key index) (hrow : row ∈ t.rows) (hother : other ∈ t.rows)
    (hindex : index row = index other) : row = other :=
  List.inj_on_of_nodup_map t.indexed hrow hother hindex

omit [DecidableEq κ] in
theorem findBy_eq_some {b : β} : t.findBy b = some row ↔ row ∈ t.rows ∧ index row = b := by
  unfold findBy
  constructor
  · intro h
    exact ⟨List.mem_of_find?_eq_some h, by simpa using List.find?_some h⟩
  · rintro ⟨hrow, rfl⟩
    cases hfind : t.rows.find? fun other => index other = index row with
    | none =>
        have hnot := List.find?_eq_none.mp hfind row hrow
        simp at hnot
    | some found =>
        have hindex : index found = index row := by simpa using List.find?_some hfind
        rw [t.index_unique (List.mem_of_find?_eq_some hfind) hrow hindex]

-- What an update leaves under a key and under an indexed value.
omit [DecidableEq β] in
theorem find_assign {k : κ} {f : ρ → ρ} {hkey : ∀ row, key (f row) = key row}
    {hindex : ∀ row, index (f row) = index row} (k' : κ) : (t.assign k f hkey hindex).find k' =
    (t.find k').map fun row => if k' = k then f row else row := by
  have hupdate : (t.toTable.update k f hkey).find k' = _ := Table.find_update k'
  exact hupdate

theorem findBy_assign {k : κ} {f : ρ → ρ} {hkey : ∀ row, key (f row) = key row}
    {hindex : ∀ row, index (f row) = index row} (b : β) :
    (t.assign k f hkey hindex).findBy b = (t.findBy b).map fun row => if key row = k then f row else row := by
  have hsame : ∀ row, index (if key row = k then f row else row) = index row := by
    intro row
    split <;> simp [hindex]
  have hrows : (t.assign k f hkey hindex).rows = t.rows.map fun row => if key row = k then f row else row := rfl
  rw [findBy, hrows, List.find?_map]
  simp only [Function.comp_def, hsame]
  rfl

end IndexedTable
