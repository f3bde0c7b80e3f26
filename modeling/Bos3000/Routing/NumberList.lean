import Bos3000.Lib.GrowingPages
import Bos3000.Listing
import Bos3000.Routing.Numbers

-- The list of numbers, whose pages follow the ids.
namespace Bos3000.Routing

def DIDStatus.text : DIDStatus → String
  | .available => "available"
  | .in_use => "in_use"
  | .reserved => "reserved"

structure ListDIDsParams where
  userID : UserID
  status : String
  page : Int64
  deriving DecidableEq, Repr

structure DIDItem where
  id : Nat
  number : String
  userID : Option UserID
  status : String
  region : Option String
  createdAt : Time
  deriving DecidableEq, Repr

def DID.item (row : DID) : DIDItem :=
  ⟨row.id, row.number, row.userID, row.status.text, row.region, row.createdAt⟩

structure ListDIDsResponse where
  dids : List DIDItem
  page : Int64
  totalCount : Nat
  deriving DecidableEq, Repr

def pageSize : Int64 := 50

-- The conditions of the WHERE clause.
def ListDIDsParams.selects (p : ListDIDsParams) (row : DID) : Bool :=
  (p.userID = 0 || row.userID = some p.userID) && (p.status = "" || row.status.text = p.status)

-- Each query sees the table as it stands, or fails; both read the status.
def listDIDs (db : Listing DID) (auth : Option AuthData) (p : ListDIDsParams) (count query : Except String DIDNumbers) :
    Except APIError ListDIDsResponse :=
  match requireAdmin auth with
  | .error e => .error e
  | .ok _ =>
      let page := pageOf p.page
      let offset := (page - 1) * pageSize
      match count, db.readText p.status with
      | .error e, _ => .error ⟨.Unknown, e⟩
      | .ok _, .error e => .error ⟨.Unknown, e⟩
      | .ok counted, .ok _ =>
          match query with
          | .error e => .error ⟨.Unknown, e⟩
          | .ok t =>
              if offset < 0 then .error ⟨.Unknown, db.negativeOffset⟩
              else
                let found := (t.rows.filter p.selects).mergeSort fun a b => a.id ≤ b.id
                .ok ⟨((found.drop offset.toNatClampNeg).take pageSize.toNatClampNeg).map DID.item, page,
                  (counted.rows.filter p.selects).length⟩

-- Somebody reads all numbers page by page while the pool goes on.
structure Reader where
  numbers : Numbers
  pages : Nat
  got : List DIDItem

inductive ReaderLabel
  | other (l : NumberLabel)
  | read
  deriving DecidableEq

def nextPage (pages : Nat) : ListDIDsParams := ⟨0, "", Int64.ofNat (pages + 1)⟩

section Reading

variable (db : Listing DID) (auth : Option AuthData)

def Reader.step (r : Reader) : ReaderLabel → Option Reader
  | .other l => (r.numbers.step l).map fun numbers => { r with numbers }
  | .read =>
      match listDIDs db auth (nextPage r.pages) (.ok r.numbers.shared) (.ok r.numbers.shared) with
      | .error _ => none
      | .ok response => some { r with pages := r.pages + 1, got := r.got ++ response.dids }

def Reader.run (numbers : Numbers) (labels : List ReaderLabel) : Option Reader :=
  Machine.run (Reader.step db auth) ⟨numbers, 0, []⟩ labels

end Reading

-- No commit brings a number whose id is below one that was shown.
def commitsAbove (r : Reader) : ReaderLabel → Bool
  | .other (.imports (.commit i)) =>
      (r.numbers.imports[i]?).all fun m => m.rows.all fun row => r.got.all fun shown => shown.id < row.id
  | _ => true

def startsAlone (r : Reader) : ReaderLabel → Bool
  | .other (.imports (.start _ _ _ _)) => r.numbers.imports.isEmpty
  | _ => true

-- The pages show each number of the start once, and none twice.
def Reader.ShowsOnce (s : Numbers) (r : Reader) : Prop :=
  (∀ row ∈ s.shared.rows, (r.got.map DIDItem.id).count row.id = 1) ∧ (r.got.map DIDItem.id).Nodup ∧
    (r.got.map DIDItem.id).Pairwise (· < ·)

def DIDNumbers.listed (t : DIDNumbers) : List DID := t.rows.mergeSort fun a b => a.id ≤ b.id

def DIDNumbers.listedIds (t : DIDNumbers) : List Nat := t.listed.map DID.id

section Listed

variable {t : DIDNumbers}

theorem listedIds_perm (t : DIDNumbers) : t.listedIds.Perm (t.rows.map DID.id) := (List.mergeSort_perm _ _).map _

theorem mem_listedIds {id : Nat} : id ∈ t.listedIds ↔ id ∈ t.rows.map DID.id := (listedIds_perm t).mem_iff

theorem listedIds_ascending (t : DIDNumbers) : t.listedIds.Pairwise (· < ·) := by
  have hsorted : t.listed.Pairwise fun a b => decide (a.id ≤ b.id) = true :=
    List.pairwise_mergeSort (by simpa using fun a b c : DID => Nat.le_trans)
      (by simpa using fun a b : DID => Nat.le_total _ _) _
  have hdistinct : t.listedIds.Pairwise (· ≠ ·) := (listedIds_perm t).nodup_iff.mpr t.ids
  have hle : t.listedIds.Pairwise (· ≤ ·) := List.pairwise_map.mpr (hsorted.imp fun h => by simpa using h)
  exact hle.imp₂ (fun _ _ hle hne => Nat.lt_of_le_of_ne hle hne) hdistinct

end Listed

section Pages

variable {db : Listing DID} {auth : Option AuthData} {s : Numbers} {r after : Reader}

theorem page_offset {pages : Nat} (hbound : (pages + 1) * 50 < 2 ^ 63) :
    (pageOf (Int64.ofNat (pages + 1)) - 1) * pageSize = Int64.ofNat (pages * 50) ∧ pages * 50 < 2 ^ 63 := by
  refine offset_of_page (n := (pages + 1) * 50) (by decide) hbound ?_
  have hpages : Paging.pages ((pages + 1) * 50) 50 = pages + 1 := by
    unfold Paging.pages
    omega
  rw [hpages]
  exact Nat.lt_succ_self pages

theorem listDIDs_eq_ok {p : ListDIDsParams} {count query : Except String DIDNumbers} {response : ListDIDsResponse}
    (h : listDIDs db auth p count query = .ok response) :
    ∃ t, query = .ok t ∧ response.dids =
      ((((t.rows.filter p.selects).mergeSort fun a b => a.id ≤ b.id).drop
        ((pageOf p.page - 1) * pageSize).toNatClampNeg).take pageSize.toNatClampNeg).map DID.item := by
  revert h
  fun_cases listDIDs db auth p count query
  case case6 =>
      intro h
      cases h
      exact ⟨_, rfl, rfl⟩
  all_goals
    intro h
    cases h

-- A page of all numbers is that of their ids in ascending order.
theorem listDIDs_page {pages : Nat} {t : DIDNumbers} (hbound : (pages + 1) * 50 < 2 ^ 63)
    {count : Except String DIDNumbers} {response : ListDIDsResponse}
    (h : listDIDs db auth (nextPage pages) count (.ok t) = .ok response) :
    response.dids.map DIDItem.id = Paging.page 50 pages t.listedIds := by
  obtain ⟨_, heq, hdids⟩ := listDIDs_eq_ok h
  cases heq
  obtain ⟨hoffset, hfits⟩ := page_offset hbound
  have hall : t.rows.filter (nextPage pages).selects = t.rows :=
    List.filter_eq_self.mpr fun row _ => by simp [nextPage, ListDIDsParams.selects]
  have hstart : ((pageOf (nextPage pages).page - 1) * pageSize).toNatClampNeg = pages * 50 := by
    rw [nextPage, hoffset, Int64.toNatClampNeg_ofNat_of_lt hfits]
  rw [hdids, hall, hstart, Paging.page, DIDNumbers.listedIds, ← List.map_drop, ← List.map_take, List.map_map]
  rfl

-- The ids stay, and only a commit brings new ones.
theorem step_ids {t : Numbers} {l : NumberLabel} (hstep : s.step l = some t) :
    s.shared.listedIds ⊆ t.shared.listedIds ∧ ∀ id ∈ t.shared.listedIds, id ∉ s.shared.listedIds →
      ∃ i m row, l = .imports (.commit i) ∧ s.imports[i]? = some m ∧ row ∈ m.rows ∧ row.id = id := by
  obtain ⟨new, hnew⟩ := step_adds hstep
  have hids : t.shared.rows.map DID.id = s.shared.rows.map DID.id ++ new.map DID.id := by
    rw [ids_fixed, hnew.rows, ← ids_fixed, List.map_append]
  constructor
  · intro id hid
    rw [mem_listedIds] at hid ⊢
    rw [hids]
    exact List.mem_append_left _ hid
  · intro id hid hfresh
    rw [mem_listedIds] at hid hfresh
    rw [hids] at hid
    obtain ⟨row, hrow, rfl⟩ := List.mem_map.mp ((List.mem_append.mp hid).resolve_left hfresh)
    obtain ⟨i, m, hl, hm, hwritten⟩ := hnew.committed row hrow
    exact ⟨i, m, row, hl, hm, hwritten, rfl⟩

-- What a read does.
theorem step_read (hstep : r.step db auth .read = some after) (hbound : after.pages * 50 < 2 ^ 63) :
    after.numbers = r.numbers ∧ after.pages = r.pages + 1 ∧
      after.got.map DIDItem.id = r.got.map DIDItem.id ++ Paging.page 50 r.pages r.numbers.shared.listedIds := by
  simp only [Reader.step] at hstep
  split at hstep
  · cases hstep
  · rename_i response hresponse
    cases hstep
    exact ⟨rfl, rfl, by rw [List.map_append, listDIDs_page hbound hresponse]⟩

theorem pages_le {l : ReaderLabel} (hstep : r.step db auth l = some after) : r.pages * 50 ≤ after.pages * 50 := by
  cases l with
  | other l =>
      obtain ⟨numbers, _, rfl⟩ := Option.map_eq_some_iff.mp hstep
      exact Nat.le_refl _
  | read =>
      simp only [Reader.step] at hstep
      split at hstep
      · cases hstep
      · cases hstep
        exact Nat.mul_le_mul_right 50 (Nat.le_succ _)

theorem reader_run {labels : List ReaderLabel} (hrun : Reader.run db auth s labels = some r)
    (hbound : r.pages * 50 < 2 ^ 63) :
    GrowingPages.Read 50 r.pages s.shared.listedIds r.numbers.shared.listedIds (r.got.map DIDItem.id) := by
  refine Machine.invariant (P := fun r => r.pages * 50 < 2 ^ 63 →
    GrowingPages.Read 50 r.pages s.shared.listedIds r.numbers.shared.listedIds (r.got.map DIDItem.id))
    ?_ (fun _ => .nil 50 (listedIds_ascending _)) hrun hbound
  intro r l after ih hstep hbound
  cases l with
  | other l =>
      obtain ⟨numbers, hnumbers, rfl⟩ := Option.map_eq_some_iff.mp hstep
      exact (ih hbound).grow (listedIds_ascending _) (step_ids hnumbers).1
  | read =>
      obtain ⟨hnumbers, hpages, hgot⟩ := step_read hstep hbound
      rw [hpages] at hbound
      rw [hnumbers, hpages, hgot]
      exact (ih (by omega)).next

-- What was shown is not shown again.
def Passed (r : Reader) : Prop :=
  GrowingPages.Once 50 r.pages r.numbers.shared.listedIds (r.got.map DIDItem.id)

theorem passed_start (s : Numbers) : Passed ⟨s, 0, []⟩ := .nil 50 (listedIds_ascending _)

theorem Passed.step (h : Passed r) {l : ReaderLabel} (habove : commitsAbove r l = true)
    (hstep : r.step db auth l = some after) (hbound : after.pages * 50 < 2 ^ 63) : Passed after := by
  cases l with
  | other l =>
      obtain ⟨numbers, hnumbers, rfl⟩ := Option.map_eq_some_iff.mp hstep
      obtain ⟨hkept, hnew⟩ := step_ids hnumbers
      refine GrowingPages.Once.grow h (listedIds_ascending _) hkept fun id hid hfresh shown hshown => ?_
      obtain ⟨i, m, row, rfl, hm, hrow, rfl⟩ := hnew id hid hfresh
      obtain ⟨item, hitem, rfl⟩ := List.mem_map.mp hshown
      simp only [commitsAbove, hm, Option.all_some, List.all_eq_true, decide_eq_true_eq] at habove
      exact habove row hrow item hitem
  | read =>
      obtain ⟨hnumbers, hpages, hgot⟩ := step_read hstep hbound
      rw [Passed, hnumbers, hpages, hgot]
      exact GrowingPages.Once.next h

-- A single import commits above all that is there.
theorem commitsAbove_of_alone (h : Passed r) (halone : r.numbers.importing.Alone) (l : ReaderLabel) :
    commitsAbove r l = true := by
  unfold commitsAbove
  split
  · rename_i i
    cases hm : r.numbers.imports[i]? with
    | none => rfl
    | some m =>
        simp only [Option.all_some, List.all_eq_true, decide_eq_true_eq]
        intro row hrow item hitem
        have hthere := List.mem_of_mem_take (h.passed (List.mem_map_of_mem hitem))
        exact halone.above m (List.mem_of_getElem? hm) row (List.mem_append_left _ hrow) item.id
          (mem_listedIds.mp hthere)
  · rfl

theorem step_alone {t : Numbers} {l : NumberLabel} (h : s.importing.Alone)
    (hstart : ∀ auth p fault now, l = .imports (.start auth p fault now) → s.imports = [])
    (hstep : s.step l = some t) : t.importing.Alone := by
  cases l with
  | imports l =>
      obtain ⟨next, hnext, rfl⟩ := Option.map_eq_some_iff.mp hstep
      exact h.step (fun auth p fault now hl => hstart auth p fault now (congrArg _ hl)) hnext
  | assign auth id userID fault =>
      cases hstep
      refine ⟨h.one, ?_⟩
      rw [Numbers.importing, ids_fixed, assignDID, (moveDID_fixed ..).1, ← ids_fixed]
      exact h.above
  | unassign auth id fault =>
      cases hstep
      refine ⟨h.one, ?_⟩
      rw [Numbers.importing, ids_fixed, unassignDID, (moveDID_fixed ..).1, ← ids_fixed]
      exact h.above
  | select l =>
      rw [select_importing hstep]
      exact h

theorem passed_above {labels : List ReaderLabel}
    (hrun : Machine.run (Machine.restrict commitsAbove (Reader.step db auth)) ⟨s, 0, []⟩ labels = some r)
    (hbound : r.pages * 50 < 2 ^ 63) : Passed r := by
  refine Machine.restrict_invariant (P := fun r => r.pages * 50 < 2 ^ 63 → Passed r)
    (fun r l after ih habove hstep hbound => ?_) (fun _ => passed_start s) hrun hbound
  exact (ih ((pages_le hstep).trans_lt hbound)).step habove hstep hbound

theorem reader_alone {l : ReaderLabel} (h : r.numbers.importing.Alone) (hstart : startsAlone r l = true)
    (hstep : r.step db auth l = some after) (hbound : after.pages * 50 < 2 ^ 63) :
    after.numbers.importing.Alone := by
  cases l with
  | other l =>
      obtain ⟨numbers, hnumbers, rfl⟩ := Option.map_eq_some_iff.mp hstep
      refine step_alone h ?_ hnumbers
      rintro auth p fault now rfl
      simpa [startsAlone] using hstart
  | read =>
      rw [(step_read hstep hbound).1]
      exact h

theorem passed_alone {labels : List ReaderLabel} (hnone : s.imports = [])
    (hrun : Machine.run (Machine.restrict startsAlone (Reader.step db auth)) ⟨s, 0, []⟩ labels = some r)
    (hbound : r.pages * 50 < 2 ^ 63) : Passed r := by
  have hboth : Passed r ∧ r.numbers.importing.Alone := by
    refine Machine.restrict_invariant
      (P := fun r => r.pages * 50 < 2 ^ 63 → Passed r ∧ r.numbers.importing.Alone)
      (fun r l after ih hstart hstep hbound => ?_) (fun _ => ⟨passed_start s, ?_⟩) hrun hbound
    · obtain ⟨hpassed, halone⟩ := ih ((pages_le hstep).trans_lt hbound)
      exact ⟨hpassed.step (commitsAbove_of_alone hpassed halone l) hstep hbound,
        reader_alone halone hstart hstep hbound⟩
    · rw [Numbers.importing, hnone]
      exact Importing.Alone.idle _
  exact hboth.1

-- Whatever is imported, assigned and picked between the reads, the pages of all
-- numbers show each that was there at the first one. They show it once, and no
-- number twice, if no import commits below what was shown, as when imports are
-- made one after the other.
theorem pages_complete {labels : List ReaderLabel} (hrun : Reader.run db auth s labels = some r)
    (hbound : r.pages * 50 < 2 ^ 63) (hpages : r.numbers.shared.rows.length ≤ r.pages * 50) :
    (∀ row ∈ s.shared.rows, row.id ∈ r.got.map DIDItem.id) ∧
      (Machine.run (Machine.restrict commitsAbove (Reader.step db auth)) ⟨s, 0, []⟩ labels = some r →
        r.ShowsOnce s) ∧
      (s.imports = [] →
        Machine.run (Machine.restrict startsAlone (Reader.step db auth)) ⟨s, 0, []⟩ labels = some r →
          r.ShowsOnce s) := by
  have hcovers : ∀ row ∈ s.shared.rows, row.id ∈ r.got.map DIDItem.id := by
    intro row hrow
    have hlength : r.numbers.shared.listedIds.length ≤ r.pages * 50 := by
      rw [(listedIds_perm _).length_eq, List.length_map]
      exact hpages
    exact (reader_run hrun hbound).complete hlength (mem_listedIds.mpr (List.mem_map_of_mem hrow))
  have honce : Passed r → r.ShowsOnce s := fun h =>
    ⟨fun row hrow => List.count_eq_one_of_mem h.once.nodup (hcovers row hrow), h.once.nodup, h.once⟩
  exact ⟨hcovers, fun habove => honce (passed_above habove hbound),
    fun hnone halone => honce (passed_alone hnone halone hbound)⟩

def anyOrder : Listing DID := ⟨fun _ => .error "", id, "", ""⟩

-- A third number is imported before the first page is read.
def readingOn : List ReaderLabel :=
  (imported ["4003"] 5).map .other ++ [.read, .other (.assign operator 1 8 none)]

theorem pages_complete_reading :
    ∃ s r, Numbers.run (imported ["4001", "4002"] 0) = some s ∧
      Reader.run anyOrder operator s readingOn = some r ∧
      s.shared.rows.length = 2 ∧ r.numbers.shared.rows.length = 3 ∧
      (∀ row ∈ s.shared.rows, row.id ∈ r.got.map DIDItem.id) ∧ r.ShowsOnce s := by
  have hread : ((Numbers.run (imported ["4001", "4002"] 0)).bind fun s =>
      (Machine.run (Machine.restrict startsAlone (Reader.step anyOrder operator)) ⟨s, 0, []⟩ readingOn).map
        fun r => (s.imports.length, s.shared.rows.length, r.numbers.shared.rows.length, r.pages)) =
      some (0, 2, 3, 1) := by
    decide +kernel
  obtain ⟨s, hfirst, hread⟩ := Option.bind_eq_some_iff.mp hread
  obtain ⟨r, halone, hlengths⟩ := Option.map_eq_some_iff.mp hread
  simp only [Prod.mk.injEq] at hlengths
  obtain ⟨himports, hrows, hlater, hpages⟩ := hlengths
  have hrun := Machine.run_of_restrict halone
  obtain ⟨hcovers, _, honce⟩ := pages_complete hrun (by omega) (by omega)
  exact ⟨s, r, hfirst, hrun, hrows, hlater, hcovers, honce (List.length_eq_zero_iff.mp himports) halone⟩

end Pages

end Bos3000.Routing
