import Bos3000.Compliance.BlacklistView

-- The admin console's import of numbers into the blacklist: one request after the
-- other, while the compliance service goes on.
namespace Bos3000.Web

open Compliance (AddBlacklistParams BlacklistEntry BlacklistedNumbers CheckBlacklistParams addBlacklist
  addBlacklist_rows checkBlacklist globalHit globalHit_iff removeBlacklist)

-- A row of the uploaded file. A cell that is missing is undefined.
structure ImportRow where
  number : Option String
  reason : Option String
  deriving DecidableEq

-- The request that a row is sent in. It has no user.
def ImportRow.params (row : ImportRow) : AddBlacklistParams where
  number := row.number.getD ""
  userID := none
  reason := if row.reason.getD "" = "" then "批量导入" else row.reason.getD ""

-- handleBulkImport between two requests.
structure BulkImport where
  db : BlacklistedNumbers
  left : List ImportRow
  success : Nat

inductive ImportLabel
  | other (l : Compliance.Label)
  -- the next row is sent, with the database's answer and whether the response arrives
  | row (answer : Except String Int64) (arrives : Bool)

-- A request that fails is not counted, and the loop goes on.
def BulkImport.step (ad : AuthData) (s : BulkImport) : ImportLabel → Option BulkImport
  | .other l => (Compliance.step s.db l).map fun db => { s with db }
  | .row answer arrives =>
      match s.left with
      | [] => none
      | row :: left =>
          (addBlacklist (some ad) row.params answer s.db).map fun (response, db) =>
            ⟨db, left, if response.isOk && arrives then s.success + 1 else s.success⟩

def isGlobal (e : BlacklistEntry) : Bool := e.userID = none

def globals (db : BlacklistedNumbers) : Nat := (db.rows.filter isGlobal).length

-- Nobody else lifts a global entry, and the database refuses a row only where its
-- number does not fit or is blocked already.
def BulkImport.undisturbed (s : BulkImport) : ImportLabel → Bool
  | .other l => s.db.rows.all fun e => !isGlobal e || !l.lifts e
  | .row (.error _) _ =>
      s.left.head?.all fun row => (varchar 20 row.params.number).all fun number => globalHit s.db number
  | .row (.ok _) _ => true

-- Nobody else adds a global entry, and every response arrives.
def ImportLabel.quiet : ImportLabel → Bool
  | .other (.add _ p _) => p.userID ≠ none
  | .other (.remove ..) => true
  | .row _ arrives => arrives

section Steps

variable {db next : BlacklistedNumbers} {ad : AuthData}

theorem filter_delete {t : BlacklistedNumbers} {condemned : BlacklistEntry → Bool}
    (h : ∀ e ∈ t.rows, isGlobal e = true → condemned e = false) :
    (t.delete condemned).rows.filter isGlobal = t.rows.filter isGlobal := by
  have hrows : (t.delete condemned).rows = t.rows.filter fun e => !condemned e := rfl
  rw [hrows, List.filter_filter]
  refine List.filter_congr fun e he => ?_
  cases hglobal : isGlobal e with
  | false => rfl
  | true => simp [h e he hglobal]

-- What an operation of somebody else does to the global entries.
theorem other_globals {l : Compliance.Label} (hstep : Compliance.step db l = some next)
    (hlifts : ∀ e ∈ db.rows, isGlobal e = true → l.lifts e = false) :
    ∃ more, next.rows.filter isGlobal = db.rows.filter isGlobal ++ more ∧
      ((ImportLabel.other l).quiet = true → more = []) := by
  cases l with
  | add auth p answer =>
      obtain ⟨⟨response, _⟩, hadd, rfl⟩ := Option.map_eq_some_iff.mp hstep
      obtain ⟨rfl, _⟩ | ⟨_, _, _, _, _, _, hrows⟩ := addBlacklist_rows hadd
      · exact ⟨[], by rw [List.append_nil], fun _ => rfl⟩
      · rw [hrows, List.filter_append]
        refine ⟨_, rfl, fun hquiet => ?_⟩
        simpa [ImportLabel.quiet, isGlobal] using hquiet
  | remove auth id answer =>
      cases hstep
      refine ⟨[], ?_, fun _ => rfl⟩
      rw [List.append_nil]
      fun_cases removeBlacklist auth id answer db
      case case3 => exact filter_delete hlifts
      all_goals rfl

-- What the service does with the request of a row.
theorem row_globals (hadmin : ad.role = "admin") {row : ImportRow} {answer : Except String Int64}
    {response : Except APIError Int64} (hadd : addBlacklist (some ad) row.params answer db = some (response, next)) :
    (next = db ∧ response.isOk = false ∧ ∃ e, answer = .error e) ∨
      ∃ e, next.rows.filter isGlobal = db.rows.filter isGlobal ++ [e] ∧ response.isOk = true ∧
        varchar 20 row.params.number = some e.number := by
  obtain ⟨hnext, hrefused, herror⟩ | ⟨maker, id, number, _, rfl, hfits, hrows⟩ := addBlacklist_rows hadd
  · exact .inl ⟨hnext, hrefused, herror ad rfl hadmin⟩
  · refine .inr ⟨⟨id, number, none, row.params.reason, maker.userID⟩, ?_, rfl, hfits⟩
    rw [hrows, List.filter_append]
    rfl

theorem globalHit_filter (number : String) :
    globalHit db number = (db.rows.filter isGlobal).any fun e => e.number = number := by
  rw [Bool.eq_iff_iff, globalHit_iff, List.any_eq_true]
  constructor
  · rintro ⟨e, he, hnumber, hnull⟩
    exact ⟨e, List.mem_filter.mpr ⟨he, by simp [isGlobal, hnull]⟩, by simp [hnumber]⟩
  · rintro ⟨e, he, hnumber⟩
    obtain ⟨hrow, hglobal⟩ := List.mem_filter.mp he
    exact ⟨e, hrow, of_decide_eq_true hnumber, of_decide_eq_true hglobal⟩

theorem globalHit_grows {more : List BlacklistEntry} (h : next.rows.filter isGlobal = db.rows.filter isGlobal ++ more)
    {number : String} (hhit : globalHit db number = true) : globalHit next number = true := by
  rw [globalHit_filter] at hhit ⊢
  rw [h, List.any_append, hhit, Bool.true_or]

end Steps

-- The import so far: the rows that were sent are blocked, and the count is at most the
-- global entries that have come, or just these.
structure Imported (rows : List ImportRow) (db : BlacklistedNumbers) (labels : List ImportLabel)
    (s : BulkImport) : Prop where
  sent : ∃ done, rows = done ++ s.left ∧
    ∀ row ∈ done, ∀ number, varchar 20 row.params.number = some number → globalHit s.db number = true
  added : ∃ more, s.db.rows.filter isGlobal = db.rows.filter isGlobal ++ more ∧ s.success ≤ more.length ∧
    (labels.all ImportLabel.quiet = true → s.success = more.length)

section Runs

variable {ad : AuthData} {rows : List ImportRow} {db : BlacklistedNumbers} {labels : List ImportLabel}
  {s t : BulkImport}

theorem Imported.other (hinv : Imported rows db labels s) {l : Compliance.Label} {next : BlacklistedNumbers}
    (hstep : Compliance.step s.db l = some next)
    (hlifts : ∀ e ∈ s.db.rows, isGlobal e = true → l.lifts e = false) :
    Imported rows db (labels ++ [.other l]) { s with db := next } := by
  obtain ⟨come, hcome, hquiet⟩ := other_globals hstep hlifts
  obtain ⟨done, hdone, hblocked⟩ := hinv.sent
  obtain ⟨more, hmore, hle, heq⟩ := hinv.added
  refine ⟨⟨done, hdone, fun row hrow number hfits => globalHit_grows hcome (hblocked row hrow number hfits)⟩,
    more ++ come, by rw [hcome, hmore, List.append_assoc], ?_, fun hall => ?_⟩
  · rw [List.length_append]
    exact Nat.le_add_right_of_le hle
  · rw [List.all_append, Bool.and_eq_true] at hall
    rw [hquiet (by simpa using hall.2), List.append_nil]
    exact heq hall.1

-- A row that the service refuses is blocked already, or its number does not fit.
theorem Imported.refused (hinv : Imported rows db labels s) {row : ImportRow} {left : List ImportRow}
    (hleft : s.left = row :: left)
    (hblocked : ∀ number, varchar 20 row.params.number = some number → globalHit s.db number = true)
    (answer : Except String Int64) (arrives : Bool) :
    Imported rows db (labels ++ [.row answer arrives]) ⟨s.db, left, s.success⟩ := by
  obtain ⟨done, hdone, hsent⟩ := hinv.sent
  obtain ⟨more, hmore, hle, heq⟩ := hinv.added
  refine ⟨⟨done ++ [row], by rw [hdone, hleft, List.append_assoc]; rfl, fun r hr => ?_⟩, more, hmore, hle,
    fun hall => ?_⟩
  · rcases List.mem_append.mp hr with hold | hnew
    · exact hsent r hold
    · rw [List.mem_singleton.mp hnew]
      exact hblocked
  · rw [List.all_append, Bool.and_eq_true] at hall
    exact heq hall.1

theorem Imported.accepted (hinv : Imported rows db labels s) {row : ImportRow} {left : List ImportRow}
    (hleft : s.left = row :: left) {next : BlacklistedNumbers} {e : BlacklistEntry}
    (hnext : next.rows.filter isGlobal = s.db.rows.filter isGlobal ++ [e])
    (hfits : varchar 20 row.params.number = some e.number) (answer : Except String Int64) (arrives : Bool) :
    Imported rows db (labels ++ [.row answer arrives])
      ⟨next, left, if arrives then s.success + 1 else s.success⟩ := by
  obtain ⟨done, hdone, hsent⟩ := hinv.sent
  obtain ⟨more, hmore, hle, heq⟩ := hinv.added
  refine ⟨⟨done ++ [row], by rw [hdone, hleft, List.append_assoc]; rfl, fun r hr number hnumber => ?_⟩,
    more ++ [e],
    by rw [hnext, hmore, List.append_assoc], ?_, fun hall => ?_⟩
  · rcases List.mem_append.mp hr with hold | hnew
    · exact globalHit_grows hnext (hsent r hold number hnumber)
    · rw [List.mem_singleton.mp hnew, hfits] at hnumber
      cases hnumber
      rw [globalHit_filter, hnext]
      simp
  · rw [List.length_append, List.length_singleton]
    change (if arrives = true then s.success + 1 else s.success) ≤ more.length + 1
    split <;> omega
  · rw [List.all_append, Bool.and_eq_true] at hall
    have harrives : arrives = true := by simpa [ImportLabel.quiet] using hall.2
    rw [if_pos harrives, List.length_append, heq hall.1]
    rfl

theorem step_imported (hadmin : ad.role = "admin") (hinv : Imported rows db labels s) {label : ImportLabel}
    (hallowed : s.undisturbed label = true)
    (hstep : s.step ad label = some t) : Imported rows db (labels ++ [label]) t := by
  cases label with
  | other l =>
      obtain ⟨next, hnext, rfl⟩ := Option.map_eq_some_iff.mp hstep
      refine hinv.other hnext fun e he hglobal => ?_
      simpa [hglobal] using List.all_eq_true.mp hallowed e he
  | row answer arrives =>
      simp only [BulkImport.step] at hstep
      split at hstep
      · cases hstep
      · rename_i row left hleft
        obtain ⟨⟨response, next⟩, hadd, rfl⟩ := Option.map_eq_some_iff.mp hstep
        obtain ⟨rfl, hrefused, e, rfl⟩ | ⟨e, hnext, hok, hfits⟩ := row_globals hadmin hadd
        · simp only [hrefused, Bool.false_and, Bool.false_eq_true, if_false]
          refine hinv.refused hleft (fun number hnumber => ?_) _ _
          simpa [BulkImport.undisturbed, hleft, hnumber] using hallowed
        · simp only [hok, Bool.true_and]
          exact hinv.accepted hleft hnext hfits answer arrives

-- After an import that nobody disturbs, each number of the file that fits is refused to
-- every user, whichever of the rows were refused on the way, and the message counts no
-- more entries than came; just these, if nobody else added any and no response was lost.
theorem import_blocks (hadmin : ad.role = "admin")
    (hrun : Machine.run (Machine.restrict BulkImport.undisturbed (BulkImport.step ad)) ⟨db, rows, 0⟩ labels =
      some s)
    (hdone : s.left = []) :
    (∀ row ∈ rows, ∀ number, varchar 20 row.params.number = some number → ∀ userID second,
      checkBlacklist ⟨number, userID⟩ (.ok s.db) second =
        .error ⟨.FailedPrecondition, "number is globally blacklisted"⟩) ∧
      s.success + globals db ≤ globals s.db ∧
      (labels.all ImportLabel.quiet = true → s.success + globals db = globals s.db) := by
  have hinv : Imported rows db labels s := by
    refine Machine.run_induction (motive := fun labels s => Imported rows db labels s)
      ⟨⟨[], rfl, fun _ hrow => by cases hrow⟩, [], by rw [List.append_nil], Nat.le_refl 0, fun _ => rfl⟩ ?_ hrun
    intro labels label middle t _ ih hstep
    obtain ⟨hallowed, hstep⟩ := Machine.restrict_eq_some.mp hstep
    exact step_imported hadmin ih hallowed hstep
  obtain ⟨done, hall, hblocked⟩ := hinv.sent
  obtain ⟨more, hmore, hle, heq⟩ := hinv.added
  rw [hdone, List.append_nil] at hall
  have hcount : globals s.db = globals db + more.length := by rw [globals, globals, hmore, List.length_append]
  refine ⟨fun row hrow number hfits userID second => ?_, by omega, fun hquiet => ?_⟩
  · have hhit := hblocked row (hall ▸ hrow) number hfits
    simp [checkBlacklist, hhit]
  · have hsame := heq hquiet
    omega

end Runs

-- A file with a number twice, one that is too long and one that a client has added
-- for itself, while another client goes on.
def importedFile : List ImportRow :=
  [⟨some "110", some "fraud"⟩, ⟨some "110", none⟩, ⟨some "123456789012345678901", none⟩,
    ⟨some "95588", some ""⟩]

def importing : List ImportLabel :=
  [.row (.ok 1) true, .other (.add (some ⟨2, "client"⟩) ⟨"95588", some 2, "spam"⟩ (.ok 2)),
   .row (.error "duplicate key") true,
   .row (.error "value too long") true, .row (.ok 3) true]

theorem import_blocks_file : ∃ s,
    Machine.run (Machine.restrict BulkImport.undisturbed (BulkImport.step ⟨1, "admin"⟩))
    ⟨IndexedTable.empty, importedFile, 0⟩ importing = some s ∧ s.success = 2 ∧
    checkBlacklist ⟨"95588", 7⟩ (.ok s.db) (.ok s.db) =
      .error ⟨.FailedPrecondition, "number is globally blacklisted"⟩ := by
  have hrun : (Machine.run (Machine.restrict BulkImport.undisturbed (BulkImport.step ⟨1, "admin"⟩))
      ⟨IndexedTable.empty, importedFile, 0⟩ importing).map (fun s => (s.left.length, globals s.db)) =
      some (0, 2) := by
    decide +kernel
  obtain ⟨s, hrun, hleft⟩ := Option.map_eq_some_iff.mp hrun
  obtain ⟨hleft, hcount⟩ := Prod.mk.inj hleft
  obtain ⟨hblocked, _, heq⟩ := import_blocks rfl hrun (List.length_eq_zero_iff.mp hleft)
  have hsuccess := heq (by decide)
  have hnone : globals IndexedTable.empty = 0 := rfl
  exact ⟨s, hrun, by omega, hblocked ⟨some "95588", some ""⟩ (by simp [importedFile]) "95588" rfl 7 _⟩

end Bos3000.Web
