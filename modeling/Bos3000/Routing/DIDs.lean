import Bos3000.Lib.Prepared
import Bos3000.Lib.Table
import Bos3000.Routing.Operations
import Mathlib.Data.Finset.Card

-- The numbers that callers are shown, and their import by one statement that is
-- written for as many of them as there are.
namespace Bos3000.Routing

open Prepared (Token argument tokens tokens_append tokens_constant tokens_placeholder)

inductive DIDStatus
  | available | in_use | reserved
  deriving DecidableEq, Repr

-- A row of did_numbers.
structure DID where
  id : Nat
  number : String
  userID : Option UserID
  status : DIDStatus
  region : Option String
  createdAt : Time
  deriving DecidableEq, Repr

-- The table, and the last id that its sequence drew.
structure DIDNumbers extends Table DID.number where
  sequence : Nat
  drawn : ∀ row ∈ rows, row.id ≤ sequence
  ids : (rows.map DID.id).Nodup

theorem DIDNumbers.drawn_succ (t : DIDNumbers) : ∀ row ∈ t.rows, row.id ≤ t.sequence + 1 :=
  fun row hrow => Nat.le_succ_of_le (t.drawn row hrow)

-- One row of INSERT ... ON CONFLICT (number) DO NOTHING, and how many rows it has
-- inserted. Its id is drawn in either case.
def DIDNumbers.insertRow (now : Time) (t : DIDNumbers) (number : String) (userID : Option UserID) :
    Nat × DIDNumbers :=
  match h : t.toTable.insert ⟨t.sequence + 1, number, userID, .available, none, now⟩ with
  | none =>
      (0, { t with sequence := t.sequence + 1, drawn := t.drawn_succ })
  | some table =>
      (1, { table with
        sequence := t.sequence + 1
        drawn := by
          intro row hrow
          rw [(Table.insert_eq_some h).1, List.mem_append, List.mem_singleton] at hrow
          obtain hold | rfl := hrow
          · exact t.drawn_succ row hold
          · exact Nat.le_refl _
        ids := by
          rw [(Table.insert_eq_some h).1, List.map_append]
          refine List.nodup_append.mpr ⟨t.ids, List.nodup_singleton _, ?_⟩
          intro id hid other hother
          obtain ⟨row, hrow, rfl⟩ := List.mem_map.mp hid
          obtain rfl := List.mem_singleton.mp hother
          exact Nat.ne_of_lt (Nat.lt_succ_of_le (t.drawn row hrow)) })

def DIDNumbers.insertRows (now : Time) : List (String × Option UserID) → DIDNumbers → Nat × DIDNumbers
  | [], t => (0, t)
  | (number, userID) :: rest, t =>
      let (count, next) := t.insertRow now number userID
      let (more, last) := next.insertRows now rest
      (count + more, last)

inductive Arg
  | userID (u : Option UserID)
  | text (s : String)
  deriving DecidableEq, Repr

structure Statement where
  text : String
  args : List Arg
  deriving DecidableEq, Repr

structure ImportDIDsParams where
  numbers : List String
  userID : Option UserID
  deriving DecidableEq, Repr

structure ImportDIDsResponse where
  imported : Int
  skipped : Int
  deriving DecidableEq, Repr

-- The turn of the loop for a number.
def Statement.writeNumber (q : Statement) (i : Nat) (num : String) : Statement where
  text := q.text ++ (if 0 < i then ", " else "") ++ ("($" ++ toString (i + 2) ++ ", $1)")
  args := q.args ++ [.text num]

def Statement.writeNumbers (q : Statement) : Nat → List String → Statement
  | _, [] => q
  | i, num :: rest => (q.writeNumber i num).writeNumbers (i + 1) rest

-- Build bulk INSERT with ON CONFLICT DO NOTHING
def ImportDIDsParams.statement (p : ImportDIDsParams) : Statement :=
  let q := Statement.writeNumbers
    ⟨"INSERT INTO did_numbers (number, user_id) VALUES ", [.userID p.userID]⟩ 0 p.numbers
  { q with text := q.text ++ " ON CONFLICT (number) DO NOTHING" }

section Database

-- did_numbers.number
def numberColumn (s : String) : Option String := varchar 20 s

-- The rows of VALUES, each with the places of its number and its user.
def readRows : List Token → Option (List (Nat × Nat) × List Token)
  | .char '(' :: .parameter number :: .char ',' :: .char ' ' :: .parameter userID :: .char ')' :: .char ',' ::
      .char ' ' :: rest => (readRows rest).map fun (places, rest) => ((number, userID) :: places, rest)
  | .char '(' :: .parameter number :: .char ',' :: .char ' ' :: .parameter userID :: .char ')' :: rest =>
      some ([(number, userID)], rest)
  | _ => none

def Statement.places (q : Statement) : Option (List (Nat × Nat)) :=
  ((tokens "INSERT INTO did_numbers (number, user_id) VALUES ").isPrefixOf? (tokens q.text)).bind fun rest =>
    (readRows rest).bind fun (places, rest) =>
      if rest = tokens " ON CONFLICT (number) DO NOTHING" then some places else none

-- The values of a row, as its columns take them.
def rowValues (args : List Arg) (places : Nat × Nat) : Option (String × Option UserID) :=
  match argument args places.1, argument args places.2 with
  | some (.text s), some (.userID u) => (numberColumn s).map fun number => (number, u)
  | _, _ => none

-- The rows that it asks for. The protocol numbers at most 65535 arguments.
def Statement.values (q : Statement) : Option (List (String × Option UserID)) :=
  if 65535 < q.args.length then none else q.places.bind fun places => places.mapM (rowValues q.args)

def Statement.execute (q : Statement) (now : Time) (t : DIDNumbers) : Option (Nat × DIDNumbers) :=
  q.values.map fun values => t.insertRows now values

end Database

-- The error e is what the database says where it refuses the statement.
def importDIDs (auth : Option AuthData) (p : ImportDIDsParams) (fault : Option String) (e : String) (now : Time)
    (t : DIDNumbers) : Except APIError ImportDIDsResponse × DIDNumbers :=
  match requireAdmin auth with
  | .error e => (.error e, t)
  | .ok _ =>
      if p.numbers = [] then (.ok ⟨0, 0⟩, t)
      else
        match fault, p.statement.execute now t with
        | some e, _ => (.error ⟨.Unknown, e⟩, t)
        | none, none => (.error ⟨.Unknown, e⟩, t)
        | none, some (imported, next) => (.ok ⟨imported, p.numbers.length - imported⟩, next)

section Statement

def rowTokens (number userID : Nat) : List Token :=
  [.char '(', .parameter number, .char ',', .char ' ', .parameter userID, .char ')']

-- What the loop writes for the numbers from the i-th on.
def writtenTokens : Nat → List String → List Token
  | _, [] => []
  | i, _ :: rest => (if 0 < i then [.char ',', .char ' '] else []) ++ rowTokens (i + 2) 1 ++ writtenTokens (i + 1) rest

def writtenPlaces : Nat → List String → List (Nat × Nat)
  | _, [] => []
  | i, _ :: rest => (i + 2, 1) :: writtenPlaces (i + 1) rest

theorem tokens_row (k : Nat) : tokens ("($" ++ toString k ++ ", $1)") = rowTokens k 1 := by
  have htext : "($" ++ toString k ++ ", $1)" = "(" ++ ("$" ++ toString k) ++ ", $1)" := by
    apply String.toList_inj.mp
    simp
  rw [htext, tokens_append _ (by simp [Prepared.Ends]), tokens_append _ (by simp [Prepared.Ends]),
    tokens_placeholder]
  rfl

theorem tokens_writeNumber (q : Statement) (i : Nat) (num : String) : tokens (q.writeNumber i num).text =
    tokens q.text ++ (if 0 < i then [.char ',', .char ' '] else []) ++ rowTokens (i + 2) 1 := by
  rw [Statement.writeNumber, tokens_append _ (by simp [Prepared.Ends]), tokens_row]
  split
  · rw [tokens_append _ (by simp [Prepared.Ends])]
    rfl
  · simp

theorem tokens_writeNumbers (q : Statement) (i : Nat) (numbers : List String) :
    tokens (q.writeNumbers i numbers).text = tokens q.text ++ writtenTokens i numbers ∧
      (q.writeNumbers i numbers).args = q.args ++ numbers.map Arg.text := by
  induction numbers generalizing q i with
  | nil => simp [Statement.writeNumbers, writtenTokens]
  | cons num rest ih =>
      obtain ⟨htext, hargs⟩ := ih (q.writeNumber i num) (i + 1)
      constructor
      · rw [Statement.writeNumbers, htext, tokens_writeNumber, writtenTokens]
        simp only [List.append_assoc]
      · rw [Statement.writeNumbers, hargs, Statement.writeNumber]
        simp

-- The rows are read back up to the end of VALUES.
theorem readRows_written (i : Nat) (num : String) (rest : List String) {tail : List Token}
    (htail : ∀ t ∈ tail.head?, t ≠ .char ',') :
    readRows (rowTokens (i + 2) 1 ++ writtenTokens (i + 1) rest ++ tail) =
      some (writtenPlaces i (num :: rest), tail) := by
  induction rest generalizing i num with
  | nil =>
      cases tail with
      | nil => rfl
      | cons t tail =>
          have hcomma := htail t rfl
          simp only [rowTokens, writtenTokens, List.append_nil, List.cons_append, List.nil_append]
          rw [readRows]
          · rfl
          · rintro rest hrest
            simp_all
  | cons next rest ih =>
      have hnext := ih (i + 1) next
      simp only [writtenTokens, Nat.zero_lt_succ, if_true, rowTokens, List.cons_append, List.nil_append] at hnext ⊢
      rw [readRows, hnext]
      rfl

theorem places_statement (p : ImportDIDsParams) (hne : p.numbers ≠ []) :
    p.statement.places = some (writtenPlaces 0 p.numbers) := by
  obtain ⟨num, rest, hnumbers⟩ := List.exists_cons_of_ne_nil hne
  have htext : tokens p.statement.text = tokens "INSERT INTO did_numbers (number, user_id) VALUES " ++
      (rowTokens 2 1 ++ writtenTokens 1 rest ++ tokens " ON CONFLICT (number) DO NOTHING") := by
    rw [ImportDIDsParams.statement, tokens_append _ (by simp [Prepared.Ends]), (tokens_writeNumbers ..).1, hnumbers,
      writtenTokens]
    simp
  have hread : readRows (rowTokens 2 1 ++ writtenTokens 1 rest ++ tokens " ON CONFLICT (number) DO NOTHING") =
      some (writtenPlaces 0 (num :: rest), tokens " ON CONFLICT (number) DO NOTHING") :=
    readRows_written 0 num rest (by decide +kernel)
  rw [Statement.places, htext, List.isPrefixOf?_eq_some_iff_append_eq.mpr rfl, Option.bind_some, hread,
    Option.bind_some,
    hnumbers]
  exact if_pos rfl

theorem args_statement (p : ImportDIDsParams) : p.statement.args = .userID p.userID :: p.numbers.map Arg.text :=
  (tokens_writeNumbers ..).2

-- Each place is that of the number it was written for, and of the one user.
theorem rowValues_written {before : List Arg} {i : Nat} {userID : Option UserID} (hlength : before.length = i + 1)
    (huser : before[0]? = some (.userID userID)) (numbers : List String) :
    (writtenPlaces i numbers).mapM (rowValues (before ++ numbers.map Arg.text)) =
      (numbers.mapM numberColumn).map fun kept => kept.map fun number => (number, userID) := by
  induction numbers generalizing before i with
  | nil => rfl
  | cons num rest ih =>
      have hlast := @ih (before ++ [.text num]) (i + 1) (by simp [hlength])
        (by rw [List.getElem?_append_left (by omega)]; exact huser)
      have hnum : argument (before ++ (num :: rest).map Arg.text) (i + 2) = some (.text num) := by
        simp [argument, ← hlength]
      have hfirst : argument (before ++ (num :: rest).map Arg.text) 1 = some (.userID userID) := by
        simp only [argument, Nat.one_ne_zero, if_false, Nat.sub_self]
        rw [List.getElem?_append_left (by omega)]
        exact huser
      have hargs : before ++ (num :: rest).map Arg.text = before ++ [.text num] ++ rest.map Arg.text := by simp
      simp only [writtenPlaces, List.mapM_cons, rowValues, hnum, hfirst]
      rw [hargs, hlast]
      cases numberColumn num <;> cases rest.mapM numberColumn <;> rfl

theorem values_statement (p : ImportDIDsParams) (hne : p.numbers ≠ []) (hlength : p.numbers.length ≤ 65534) :
    p.statement.values = (p.numbers.mapM numberColumn).map fun kept =>
      kept.map fun number => (number, p.userID) := by
  have hcount : ¬ 65535 < p.statement.args.length := by
    rw [args_statement, List.length_cons, List.length_map]
    omega
  have hvalues := @rowValues_written [.userID p.userID] 0 p.userID rfl rfl p.numbers
  rw [List.singleton_append, ← args_statement] at hvalues
  rw [Statement.values, if_neg hcount, places_statement p hne, Option.bind_some, hvalues]

-- What the statement inserts, for all numbers of arguments that it may have.
theorem execute_statement (p : ImportDIDsParams) (hne : p.numbers ≠ []) (hlength : p.numbers.length ≤ 65534)
    (now : Time) (t : DIDNumbers) : p.statement.execute now t =
      (p.numbers.mapM numberColumn).map fun kept =>
        t.insertRows now (kept.map fun number => (number, p.userID)) := by
  rw [Statement.execute, values_statement p hne hlength, Option.map_map]
  rfl

end Statement

-- The user that a number has, if the table has the number.
def DIDNumbers.owner (t : DIDNumbers) (number : String) : Option (Option UserID) := (t.find number).map DID.userID

section Insert

variable {t : DIDNumbers} {now : Time}

theorem insertRow_cases (t : DIDNumbers) (now : Time) (number : String) (userID : Option UserID) :
    ((t.find number).isSome ∧ (t.insertRow now number userID).1 = 0 ∧
      (t.insertRow now number userID).2.rows = t.rows) ∨
    (t.find number = none ∧ (t.insertRow now number userID).1 = 1 ∧
      t.toTable.insert ⟨t.sequence + 1, number, userID, .available, none, now⟩ =
        some (t.insertRow now number userID).2.toTable) := by
  unfold DIDNumbers.insertRow
  split
  · rename_i hnone
    refine .inl ⟨?_, rfl, rfl⟩
    cases hfind : t.find number with
    | some row => rfl
    | none =>
        have hfresh : number ∉ t.rows.map DID.number := by
          intro hmem
          obtain ⟨row, hrow, hnumber⟩ := List.mem_map.mp hmem
          exact Table.find_eq_none.mp hfind row hrow hnumber
        simp [Table.insert, hfresh] at hnone
  · rename_i table hinsert
    exact .inr ⟨(Table.insert_eq_some hinsert).2, rfl, hinsert⟩

theorem find_of_rows {other : DIDNumbers} (h : other.rows = t.rows) (number : String) :
    other.find number = t.find number := by
  rw [Table.find, Table.find, h]

-- Rows that are there stay as they are.
theorem find_insertRow (number : String) (userID : Option UserID) (other : String) :
    (t.insertRow now number userID).2.find other = (t.find other).or
      (if other = number then some ⟨t.sequence + 1, number, userID, .available, none, now⟩ else none) := by
  obtain ⟨hsome, _, hrows⟩ | ⟨hnone, _, hinsert⟩ := insertRow_cases t now number userID
  · rw [find_of_rows hrows]
    by_cases h : other = number
    · obtain ⟨row, hrow⟩ := Option.isSome_iff_exists.mp hsome
      simp [h, hrow]
    · simp [h]
  · rw [Table.find_insert hinsert]
    by_cases h : other = number
    · simp [h, hnone]
    · simp [h]

theorem insertRows_cons (value : String × Option UserID) (rest : List (String × Option UserID)) :
    (t.insertRows now (value :: rest)).2 = ((t.insertRow now value.1 value.2).2.insertRows now rest).2 := rfl

theorem insertRows_keeps (values : List (String × Option UserID)) {number : String} {row : DID}
    (hrow : t.find number = some row) : (t.insertRows now values).2.find number = some row := by
  induction values generalizing t with
  | nil => exact hrow
  | cons value rest ih =>
      rw [insertRows_cons]
      refine ih ?_
      rw [find_insertRow, hrow, Option.some_or]

theorem owner_insertRow (number : String) (userID : Option UserID) (other : String) :
    (t.insertRow now number userID).2.owner other =
      (t.owner other).or (if other = number then some userID else none) := by
  rw [DIDNumbers.owner, find_insertRow, DIDNumbers.owner]
  by_cases h : other = number <;> cases t.find other <;> simp [h]

-- All the numbers of an import become their user's, but for those that the table has.
theorem owner_insertRows (numbers : List String) (userID : Option UserID) (other : String) :
    (t.insertRows now (numbers.map fun number => (number, userID))).2.owner other =
      (t.owner other).or (if other ∈ numbers then some userID else none) := by
  induction numbers generalizing t with
  | nil => simp [DIDNumbers.insertRows]
  | cons number rest ih =>
      have hrest := ih (t := (t.insertRow now number userID).2)
      rw [List.map_cons, DIDNumbers.insertRows]
      rw [hrest, owner_insertRow, Option.or_assoc]
      by_cases h : other = number <;> simp [h]

theorem owner_eq_none {number : String} : t.owner number = none ↔ t.find number = none := by
  simp [DIDNumbers.owner]

-- The count is that of the distinct numbers that the table did not have.
theorem count_insertRows (numbers : List String) (userID : Option UserID) :
    (t.insertRows now (numbers.map fun number => (number, userID))).1 =
      (numbers.toFinset.filter fun number => t.owner number = none).card := by
  induction numbers generalizing t with
  | nil => rfl
  | cons number rest ih =>
      have hrest := ih (t := (t.insertRow now number userID).2)
      have hcount : (t.insertRow now number userID).1 = if t.owner number = none then 1 else 0 := by
        obtain ⟨hsome, hzero, _⟩ | ⟨hnone, hone, _⟩ := insertRow_cases t now number userID
        · rw [hzero, if_neg]
          rw [owner_eq_none]
          exact Option.isSome_iff_ne_none.mp hsome
        · rw [hone, if_pos (owner_eq_none.mpr hnone)]
      have hothers : (rest.toFinset.filter fun other => (t.insertRow now number userID).2.owner other = none) =
          (rest.toFinset.filter fun other => t.owner other = none).erase number := by
        ext other
        simp only [Finset.mem_filter, Finset.mem_erase, owner_insertRow, Option.or_eq_none_iff]
        by_cases h : other = number <;> simp [h]
      rw [List.map_cons, DIDNumbers.insertRows]
      simp only [hrest, hcount, hothers, List.toFinset_cons, Finset.filter_insert]
      by_cases hnew : t.owner number = none
      · rw [if_pos hnew, if_pos hnew, ← Finset.card_erase_add_one (Finset.mem_insert_self number _),
          Finset.erase_insert_eq_erase, Nat.add_comm]
      · rw [if_neg hnew, if_neg hnew, Finset.erase_eq_of_notMem (by simp [hnew]), Nat.zero_add]

theorem insertRows_present (values : List (String × Option UserID))
    (h : ∀ value ∈ values, (t.find value.1).isSome) :
    (t.insertRows now values).2.rows = t.rows := by
  induction values generalizing t with
  | nil => rfl
  | cons value rest ih =>
      obtain ⟨hvalue, hrest⟩ := List.forall_mem_cons.mp h
      obtain ⟨_, _, hrows⟩ | ⟨hnone, _⟩ := insertRow_cases t now value.1 value.2
      · rw [insertRows_cons, ih, hrows]
        intro other hother
        rw [find_of_rows hrows]
        exact hrest other hother
      · rw [hnone] at hvalue
        cases hvalue

end Insert

-- A number that its column takes as it is.
def NumberFits (number : String) : Prop := number.length ≤ 20 ∧ '\x00' ∉ number.toList

instance (number : String) : Decidable (NumberFits number) := inferInstanceAs (Decidable (_ ∧ _))

theorem mapM_numberColumn {numbers : List String} (h : ∀ number ∈ numbers, NumberFits number) :
    numbers.mapM numberColumn = some numbers := by
  induction numbers with
  | nil => rfl
  | cons number rest ih =>
      obtain ⟨⟨hshort, htext⟩, hrest⟩ := List.forall_mem_cons.mp h
      have hnumber : numberColumn number = some number := by
        rw [numberColumn, varchar, if_neg htext, if_pos hshort]
      rw [List.mapM_cons, hnumber, ih hrest]
      rfl

theorem mapM_numberColumn_none {numbers : List String} (h : ∃ number ∈ numbers, numberColumn number = none) :
    numbers.mapM numberColumn = none := by
  induction numbers with
  | nil => simp at h
  | cons number rest ih =>
      rw [List.mapM_cons]
      cases hnumber : numberColumn number with
      | none => rfl
      | some kept =>
          have hrest : ∃ other ∈ rest, numberColumn other = none := by simpa [hnumber] using h
          rw [ih hrest]
          rfl

-- An import by an administrator, as operations on sets: the numbers of the table are
-- joined with those of the list, and owners are set once.
structure SetImport (auth : Option AuthData) (u : Option UserID) (xs : List String) (e : String) (now : Time)
    (t : DIDNumbers) : Prop where
  numbers : ∀ n, ((importDIDs auth ⟨xs, u⟩ none e now t).2.owner n).isSome ↔ (t.owner n).isSome ∨ n ∈ xs
  keeps : ∀ n row, t.find n = some row → (importDIDs auth ⟨xs, u⟩ none e now t).2.find n = some row
  owned : ∀ n ∈ xs, t.owner n = none → (importDIDs auth ⟨xs, u⟩ none e now t).2.owner n = some u
  answer : ∃ imported skipped, (importDIDs auth ⟨xs, u⟩ none e now t).1 = .ok ⟨imported, skipped⟩ ∧
    imported = (xs.toFinset.filter fun n => t.owner n = none).card ∧ imported + skipped = xs.length
  again : ∀ later, let after := (importDIDs auth ⟨xs, u⟩ none e now t).2
    (importDIDs auth ⟨xs, u⟩ none e later after).1 = .ok ⟨0, xs.length⟩ ∧
      (importDIDs auth ⟨xs, u⟩ none e later after).2.rows = after.rows
  composed : ∀ ys, (∀ y ∈ ys, NumberFits y) → (xs ++ ys).length ≤ 65534 → ∀ later n,
    let after := (importDIDs auth ⟨xs, u⟩ none e now t).2
    (importDIDs auth ⟨ys, u⟩ none e later after).2.owner n =
      (importDIDs auth ⟨xs ++ ys, u⟩ none e now t).2.owner n

section Import

variable {auth : Option AuthData} {e : String} {now : Time} {t : DIDNumbers}

theorem importDIDs_fits (hadmin : requireAdmin auth = .ok ()) {p : ImportDIDsParams}
    (hfits : ∀ x ∈ p.numbers, NumberFits x) (hlength : p.numbers.length ≤ 65534) :
    importDIDs auth p none e now t =
      let inserted := t.insertRows now (p.numbers.map fun number => (number, p.userID))
      (.ok ⟨inserted.1, p.numbers.length - inserted.1⟩, inserted.2) := by
  unfold importDIDs
  rw [hadmin]
  by_cases hempty : p.numbers = []
  · simp [hempty, DIDNumbers.insertRows]
  · simp only [if_neg hempty, execute_statement p hempty hlength, mapM_numberColumn hfits, Option.map_some]

theorem importDIDs_unfit (hadmin : requireAdmin auth = .ok ()) {p : ImportDIDsParams}
    (hunfit : ∃ x ∈ p.numbers, numberColumn x = none) (hlength : p.numbers.length ≤ 65534) :
    importDIDs auth p none e now t = (.error ⟨.Unknown, e⟩, t) := by
  have hne : p.numbers ≠ [] := by
    obtain ⟨x, hx, _⟩ := hunfit
    exact List.ne_nil_of_mem hx
  unfold importDIDs
  rw [hadmin]
  simp only [if_neg hne, execute_statement p hne hlength, mapM_numberColumn_none hunfit, Option.map_none]

theorem setImport_of_fits (hadmin : requireAdmin auth = .ok ()) {u : Option UserID} {xs : List String}
    (hfits : ∀ x ∈ xs, NumberFits x) (hlength : xs.length ≤ 65534) : SetImport auth u xs e now t := by
  have himport : ∀ now t, importDIDs auth ⟨xs, u⟩ none e now t = _ :=
    fun now t => importDIDs_fits hadmin hfits hlength
  have howner : ∀ n, (importDIDs auth ⟨xs, u⟩ none e now t).2.owner n =
      (t.owner n).or (if n ∈ xs then some u else none) := by
    intro n
    rw [himport]
    exact owner_insertRows xs u n
  have hcount := @count_insertRows t now xs u
  constructor
  · intro n
    rw [howner]
    by_cases h : n ∈ xs <;> simp [h]
  · intro n row hrow
    rw [himport]
    exact insertRows_keeps _ hrow
  · intro n hn hnew
    rw [howner, hnew, if_pos hn, Option.none_or]
  · refine ⟨_, _, congrArg Prod.fst (himport now t), congrArg Nat.cast hcount, ?_⟩
    have hsum : ∀ a b : Int, a + (b - a) = b := by
      intro a b
      omega
    exact hsum _ _
  · intro later after
    have hpresent : ∀ n ∈ xs, (after.owner n).isSome := by
      intro n hn
      rw [howner, if_pos hn]
      simp
    have hzero := @count_insertRows after later xs u
    rw [Finset.filter_false_of_mem, Finset.card_empty] at hzero
    · rw [himport later after]
      refine ⟨?_, insertRows_present _ ?_⟩
      · simp only [hzero]
        simp
      · intro value hvalue
        obtain ⟨n, hn, rfl⟩ := List.mem_map.mp hvalue
        simpa [DIDNumbers.owner] using hpresent n hn
    · intro n hn
      exact Option.isSome_iff_ne_none.mp (hpresent n (List.mem_toFinset.mp hn))
  · intro ys hys hboth later n after
    rw [List.length_append] at hboth
    have hall : ∀ y ∈ xs ++ ys, NumberFits y := fun y hy => (List.mem_append.mp hy).elim (hfits y) (hys y)
    rw [importDIDs_fits hadmin hys (by simp only; omega),
      importDIDs_fits hadmin hall (by simp only [List.length_append]; omega)]
    have hlater := @owner_insertRows after later ys u n
    have htogether := @owner_insertRows t now (xs ++ ys) u n
    simp only at hlater htogether ⊢
    rw [hlater, htogether, howner, Option.or_assoc]
    by_cases hx : n ∈ xs <;> by_cases hy : n ∈ ys <;> simp [hx, hy]

end Import

-- For every table and every list that one statement can take: numbers that fit their
-- column are imported as a set, and one that the column refuses changes nothing.
theorem import_set_semantics {auth : Option AuthData} (hadmin : requireAdmin auth = .ok ()) (u : Option UserID)
    (xs : List String) (hlength : xs.length ≤ 65534) (e : String) (now : Time) (t : DIDNumbers) :
    ((∀ x ∈ xs, NumberFits x) → SetImport auth u xs e now t) ∧
      ((∃ x ∈ xs, numberColumn x = none) →
      importDIDs auth ⟨xs, u⟩ none e now t = (.error ⟨.Unknown, e⟩, t)) :=
  ⟨fun hfits => setImport_of_fits hadmin hfits hlength, fun hunfit => importDIDs_unfit hadmin hunfit hlength⟩

def emptyDIDs : DIDNumbers where
  toTable := .empty
  sequence := 0
  drawn := by simp [Table.empty]
  ids := List.nodup_nil

theorem import_set_semantics_twice :
    SetImport (some ⟨1, "admin"⟩) (some 7) ["+18001110001", "+18001110001"] "" 0 emptyDIDs :=
  (import_set_semantics rfl (some 7) ["+18001110001", "+18001110001"] (by decide) "" 0 emptyDIDs).1 (by decide)

-- A number that is longer than its column is refused, and with it the import.
theorem import_refused : importDIDs (some ⟨1, "admin"⟩) ⟨["+18001110001", "+1800111000100000000000"], none⟩ none
      "value too long for type character varying(20)" 0 emptyDIDs =
        (.error ⟨.Unknown, "value too long for type character varying(20)"⟩, emptyDIDs) ∧
    ¬ SetImport (some ⟨1, "admin"⟩) none ["+18001110001", "+1800111000100000000000"]
      "value too long for type character varying(20)" 0 emptyDIDs := by
  have hrefused := @importDIDs_unfit (some ⟨1, "admin"⟩) "value too long for type character varying(20)" 0
    emptyDIDs rfl
    ⟨["+18001110001", "+1800111000100000000000"], none⟩ ⟨"+1800111000100000000000", by decide, by decide⟩
      (by decide)
  refine ⟨hrefused, fun h => ?_⟩
  obtain ⟨_, _, hanswer, _⟩ := h.answer
  rw [hrefused] at hanswer
  cases hanswer

end Bos3000.Routing
