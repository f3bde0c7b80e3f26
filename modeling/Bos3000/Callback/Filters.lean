import Bos3000.Callback.Views
import Bos3000.Lib.Where

-- The two queries of ListCallbacks, whose text is written filter after filter.
namespace Bos3000.Callback

open Prepared (Clause Comparison Token argued argued_places parameters parameters_append parameters_writtenTokens places
  readWhere readWhere_written tokens tokens_append tokens_constant tokens_placeholder writtenTokens)

inductive QueryArg
  | int (n : Int64)
  | text (s : String)
  deriving DecidableEq, Repr

structure CallQuery where
  text : String
  args : List QueryArg
  deriving DecidableEq, Repr

-- Build dynamic WHERE
def ListCallbacksParams.where (p : ListCallbacksParams) (ad : AuthData) : Clause QueryArg :=
  let q := Clause.start
  -- Client isolation: force user_id filter
  let q := if ad.role ≠ "admin" then q.add " AND user_id = $" (.int ad.userID)
    else q.addIf (p.userID ≠ 0) " AND user_id = $" (.int p.userID)
  let q := q.addIf (p.status ≠ "") " AND status = $" (.text p.status)
  let q := q.addIf (p.aNumber ≠ "") " AND a_number = $" (.text p.aNumber)
  let q := q.addIf (p.bNumber ≠ "") " AND b_number = $" (.text p.bNumber)
  let q := q.addIf (p.wastageType ≠ "") " AND wastage_type = $" (.text p.wastageType)
  let q := q.addIf (p.startTime ≠ "") " AND created_at >= $" (.text p.startTime)
  q.addIf (p.endTime ≠ "") " AND created_at <= $" (.text p.endTime)

def ListCallbacksParams.offset (p : ListCallbacksParams) : Int64 := (p.pageOf - 1) * p.pageSizeOf

def ListCallbacksParams.countQuery (p : ListCallbacksParams) (ad : AuthData) : CallQuery :=
  ⟨"SELECT COUNT(*) FROM callback_calls " ++ (p.where ad).text, (p.where ad).args⟩

def pageColumns : String :=
  "SELECT call_id, user_id, a_number, b_number, status,\n" ++
  "\t\tbridge_duration_ms, total_cost, wastage_type, hangup_by, failure_reason,\n" ++
  "\t\tcustom_data, created_at\n" ++
  "\t\tFROM callback_calls "

def ListCallbacksParams.pageQuery (p : ListCallbacksParams) (ad : AuthData) : CallQuery :=
  let q := p.where ad
  ⟨pageColumns ++ q.text ++ " ORDER BY created_at DESC LIMIT $" ++ toString q.argIdx ++ " OFFSET $" ++
      toString (q.argIdx + 1),
    q.args ++ [.int p.pageSizeOf, .int p.offset]⟩

section Database

-- A condition on a column of callback_calls.
def Condition.ofComparison (c : Comparison QueryArg) : Option Condition :=
  match c.column, c.operator, c.arg with
  | "user_id", .equal, .int u => some (.userID u)
  | "status", .equal, .text s => some (.status s)
  | "a_number", .equal, .text s => some (.aNumber s)
  | "b_number", .equal, .text s => some (.bNumber s)
  | "wastage_type", .equal, .text s => some (.wastageType s)
  | "created_at", .atLeast, .text s => some (.startTime s)
  | "created_at", .atMost, .text s => some (.endTime s)
  | _, _, _ => none

-- The conditions of a text after its constant start, each with the argument at its
-- place, and what follows them.
def CallQuery.read (q : CallQuery) (start : String) : Option (List Condition × List Token) :=
  ((tokens start).isPrefixOf? (tokens q.text)).bind fun rest =>
    (readWhere rest).bind fun (placed, rest) =>
      (argued q.args placed).bind fun comparisons =>
        (comparisons.mapM Condition.ofComparison).map fun conditions => (conditions, rest)

def CallQuery.countConditions (q : CallQuery) : Option (List Condition) :=
  (q.read "SELECT COUNT(*) FROM callback_calls ").bind fun (conditions, rest) =>
    if rest = [] then some conditions else none

-- The conditions of a page, its LIMIT and its OFFSET.
def CallQuery.page (q : CallQuery) : Option (List Condition × Int64 × Int64) :=
  (q.read pageColumns).bind fun (conditions, rest) =>
    ((tokens " ORDER BY created_at DESC LIMIT ").isPrefixOf? rest).bind fun
      | .parameter l :: rest =>
          ((tokens " OFFSET ").isPrefixOf? rest).bind fun
            | [.parameter o] =>
                match Prepared.argument q.args l, Prepared.argument q.args o with
                | some (.int limit), some (.int offset) => some (conditions, limit, offset)
                | _, _ => none
            | _ => none
      | _ => none

-- What a query that the database cannot read comes to.
def syntaxError : String := "ERROR: syntax error (SQLSTATE 42601)"

def CallQuery.runCount (db : Listing CallRow) (fault : Option String) (q : CallQuery) (rows : List CallRow) :
    Except String Nat :=
  match q.countConditions with
  | none => .error syntaxError
  | some conditions => (selectWhere db fault conditions rows).map List.length

def CallQuery.runPage (db : Listing CallRow) (fault : Option PageFault) (q : CallQuery) (rows : List CallRow) :
    Except String (List CallRow) :=
  match q.page with
  | none => .error syntaxError
  | some (conditions, limit, offset) => db.readPage fault limit offset (selectWhere db none conditions rows)

end Database

-- ListCallbacks, with its queries as they are written.
def queryCallbacks (db : Listing CallRow) (auth : Option AuthData) (p : ListCallbacksParams)
    (countFault : Option String) (pageFault : Option PageFault) (s : CallStore) :
    Except APIError ListCallbacksResponse :=
  match auth with
  | none => .error notAuthenticated
  | some ad =>
      match (p.countQuery ad).runCount db countFault s.rows.rows with
      | .error e => .error ⟨.Unknown, e⟩
      | .ok total =>
          match (p.pageQuery ad).runPage db pageFault s.rows.rows with
          | .error e => .error ⟨.Unknown, e⟩
          | .ok items => .ok ⟨items.map CallRow.summary, total, p.pageOf, p.pageSizeOf⟩

section Reading

variable (p : ListCallbacksParams) (ad : AuthData)

def Condition.comparison : Condition → Comparison QueryArg
  | .userID u => ⟨"user_id", .equal, .int u⟩
  | .status s => ⟨"status", .equal, .text s⟩
  | .aNumber s => ⟨"a_number", .equal, .text s⟩
  | .bNumber s => ⟨"b_number", .equal, .text s⟩
  | .wastageType s => ⟨"wastage_type", .equal, .text s⟩
  | .startTime s => ⟨"created_at", .atLeast, .text s⟩
  | .endTime s => ⟨"created_at", .atMost, .text s⟩

theorem Condition.ofComparison_comparison (c : Condition) : Condition.ofComparison c.comparison = some c := by
  cases c <;> rfl

theorem Condition.comparison_named (c : Condition) : c.comparison.Named := by
  have hname : c.comparison.column.toList.all (fun x => (Token.char x).isName) = true := by
    cases c <;> simp only [Condition.comparison] <;> decide
  exact List.all_eq_true.mp hname

def ListCallbacksParams.comparisons : List (Comparison QueryArg) := (p.conditions ad).map Condition.comparison

theorem comparisons_named : ∀ c ∈ p.comparisons ad, c.Named := by
  intro c hc
  obtain ⟨condition, _, rfl⟩ := List.mem_map.mp hc
  exact condition.comparison_named

theorem addAll_filter (q : Clause QueryArg) (set : Prop) [Decidable set] (c : Condition) {condition : String}
    (htext : c.comparison.condition = condition) :
    q.addAll ((if set then [c] else []).map Condition.comparison) = q.addIf set condition c.comparison.arg := by
  rw [apply_ite (List.map Condition.comparison), List.map_singleton, List.map_nil, Clause.addAll_ite, htext]

-- What is written is what the filters mean.
theorem where_eq : p.where ad = Clause.start.addAll (p.comparisons ad) := by
  unfold ListCallbacksParams.where ListCallbacksParams.comparisons ListCallbacksParams.conditions
  simp only [List.map_append, Clause.addAll_append]
  rw [addAll_filter _ _ (.status p.status) rfl, addAll_filter _ _ (.aNumber p.aNumber) rfl,
    addAll_filter _ _ (.bNumber p.bNumber) rfl, addAll_filter _ _ (.wastageType p.wastageType) rfl,
    addAll_filter _ _ (.startTime p.startTime) rfl, addAll_filter _ _ (.endTime p.endTime) rfl]
  have huser : Clause.start.addAll ((if ad.role ≠ "admin" then [Condition.userID ad.userID]
      else if p.userID ≠ 0 then [Condition.userID p.userID] else []).map Condition.comparison) =
      if ad.role ≠ "admin" then Clause.start.add " AND user_id = $" (.int ad.userID)
      else Clause.start.addIf (p.userID ≠ 0) " AND user_id = $" (.int p.userID) := by
    split
    · rfl
    · exact addAll_filter _ _ (.userID p.userID) rfl
  rw [huser]
  rfl

theorem where_args : (p.where ad).args = (p.comparisons ad).map Comparison.arg := by
  rw [where_eq, (Clause.addAll_eq _ (comparisons_named p ad)).2.1]
  rfl

theorem where_argIdx : (p.where ad).argIdx = (p.where ad).args.length + 1 := by
  rw [where_args, where_eq, (Clause.addAll_eq _ (comparisons_named p ad)).2.2, List.length_map, Nat.add_comm]
  rfl

theorem tokens_where : tokens (p.where ad).text = tokens "WHERE 1=1" ++ writtenTokens 1 (p.comparisons ad) := by
  rw [where_eq, (Clause.addAll_eq _ (comparisons_named p ad)).1]
  rfl

theorem where_ends (more : String) : Prepared.Ends ((p.where ad).text ++ more).toList := by
  obtain ⟨rest, hrest⟩ := Clause.text_addAll Clause.start (p.comparisons ad)
  rw [where_eq, hrest]
  simp [Prepared.Ends, Clause.start]

theorem tokens_count : tokens (p.countQuery ad).text = tokens "SELECT COUNT(*) FROM callback_calls " ++
    (tokens "WHERE 1=1" ++ (writtenTokens 1 (p.comparisons ad) ++ [])) := by
  have hends := where_ends p ad ""
  rw [String.append_empty] at hends
  change tokens ("SELECT COUNT(*) FROM callback_calls " ++ (p.where ad).text) = _
  rw [tokens_append "SELECT COUNT(*) FROM callback_calls " hends, tokens_where, List.append_nil]

theorem tokens_page : tokens (p.pageQuery ad).text =
    tokens pageColumns ++ (tokens "WHERE 1=1" ++ (writtenTokens 1 (p.comparisons ad) ++
      (tokens " ORDER BY created_at DESC LIMIT " ++ ([.parameter (p.where ad).argIdx] ++
        (tokens " OFFSET " ++ [.parameter ((p.where ad).argIdx + 1)]))))) := by
  have htext : (p.pageQuery ad).text = pageColumns ++ ((p.where ad).text ++ (" ORDER BY created_at DESC LIMIT " ++
      (("$" ++ toString (p.where ad).argIdx) ++ (" OFFSET " ++ ("$" ++ toString ((p.where ad).argIdx + 1)))))) := by
    apply String.toList_inj.mp
    simp [ListCallbacksParams.pageQuery]
  rw [htext, tokens_append pageColumns (where_ends p ad _), tokens_append (p.where ad).text (by simp [Prepared.Ends]),
    tokens_append " ORDER BY created_at DESC LIMIT " (by simp [Prepared.Ends]),
    tokens_append ("$" ++ toString (p.where ad).argIdx) (by simp [Prepared.Ends]),
    tokens_append " OFFSET " (by simp [Prepared.Ends]), tokens_where, tokens_placeholder, tokens_placeholder,
    List.append_assoc]

-- The text is read as the conditions it was written for, each with its own argument.
theorem read_written {q : CallQuery} {start : String} {tail : List Token} {more : List QueryArg}
    (htext : tokens q.text = tokens start ++ (tokens "WHERE 1=1" ++ (writtenTokens 1 (p.comparisons ad) ++ tail)))
    (hargs : q.args = (p.where ad).args ++ more) (htail : (tokens " AND ").isPrefixOf? tail = none) :
    q.read start = some (p.conditions ad, tail) := by
  have hargued : argued q.args (places 1 (p.comparisons ad)) = some (p.comparisons ad) := by
    rw [hargs, where_args]
    exact argued_places [] (p.comparisons ad) more
  have hback : (p.comparisons ad).mapM Condition.ofComparison = some (p.conditions ad) := by
    rw [ListCallbacksParams.comparisons]
    induction p.conditions ad with
    | nil => rfl
    | cons c rest ih => rw [List.map_cons, List.mapM_cons, Condition.ofComparison_comparison, ih]; rfl
  rw [CallQuery.read, htext, List.isPrefixOf?_eq_some_iff_append_eq.mpr rfl, Option.bind_some,
    readWhere_written (comparisons_named p ad) htail, Option.bind_some]
  simp only [hargued, Option.bind_some, hback, Option.map_some]

theorem countQuery_conditions : (p.countQuery ad).countConditions = some (p.conditions ad) := by
  rw [CallQuery.countConditions, read_written p ad (tokens_count p ad) (List.append_nil _).symm (by decide)]
  rfl

theorem pageQuery_page : (p.pageQuery ad).page = some (p.conditions ad, p.pageSizeOf, p.offset) := by
  have hlimit : Prepared.argument (p.pageQuery ad).args (p.where ad).argIdx = some (.int p.pageSizeOf) := by
    simp [Prepared.argument, ListCallbacksParams.pageQuery, where_argIdx]
  have hoffset : Prepared.argument (p.pageQuery ad).args ((p.where ad).argIdx + 1) = some (.int p.offset) := by
    simp [Prepared.argument, ListCallbacksParams.pageQuery, where_argIdx]
  have hargs : (p.pageQuery ad).args = (p.where ad).args ++ [.int p.pageSizeOf, .int p.offset] := rfl
  have hread := read_written p ad (tokens_page p ad) hargs rfl
  rw [CallQuery.page, hread]
  simp only [Option.bind_some, List.isPrefixOf?_eq_some_iff_append_eq.mpr rfl, List.singleton_append]
  simp only [hlimit, hoffset]

theorem runCount_eq (db : Listing CallRow) (fault : Option String) (rows : List CallRow) :
    (p.countQuery ad).runCount db fault rows = (selectWhere db fault (p.conditions ad) rows).map List.length := by
  rw [CallQuery.runCount, countQuery_conditions]

theorem runPage_eq (db : Listing CallRow) (fault : Option PageFault) (rows : List CallRow) :
    (p.pageQuery ad).runPage db fault rows =
      db.readPage fault p.pageSizeOf p.offset (selectWhere db none (p.conditions ad) rows) := by
  unfold CallQuery.runPage
  rw [pageQuery_page]

-- The queries as they are written are those of their conditions.
theorem queryCallbacks_eq (db : Listing CallRow) (auth : Option AuthData) (countFault : Option String)
    (pageFault : Option PageFault) (s : CallStore) :
    queryCallbacks db auth p countFault pageFault s = listCallbacks db auth p countFault pageFault s := by
  unfold queryCallbacks listCallbacks
  cases auth with
  | none => rfl
  | some ad =>
      dsimp only
      rw [runCount_eq, runPage_eq]
      cases selectWhere db countFault (p.conditions ad) s.rows.rows <;> rfl

end Reading

section Selection

-- Whether the database can read the argument of a condition.
def Condition.Readable (db : Listing CallRow) : Condition → Prop
  | .userID _ => True
  | .status s | .aNumber s | .bNumber s | .wastageType s => '\x00' ∉ s.toList
  | .startTime s | .endTime s => ∃ t, db.timestamptz s = .ok t

def Condition.holds (db : Listing CallRow) (row : CallRow) : Condition → Bool
  | .userID u => row.call.userID = u
  | .status s => row.call.status.text = s
  | .aNumber s => row.call.aNumber = s
  | .bNumber s => row.call.bNumber = s
  | .wastageType s => row.call.wastageType.map WastageType.text = some s
  | .startTime s => (db.timestamptz s).toOption.any fun t => t ≤ row.createdAt
  | .endTime s => (db.timestamptz s).toOption.any fun t => row.createdAt ≤ t

theorem Condition.test_of_readable {db : Listing CallRow} {c : Condition} (h : c.Readable db) :
    c.test db = .ok fun row => c.holds db row := by
  cases c with
  | userID u => rfl
  | status s | aNumber s | bNumber s | wastageType s => rw [Condition.test, Listing.readText, if_neg h]; rfl
  | startTime s | endTime s =>
      obtain ⟨t, ht⟩ := h
      simp [Condition.test, Condition.holds, ht, Except.map, Except.toOption]

theorem Condition.test_of_unreadable {db : Listing CallRow} {c : Condition} (h : ¬ c.Readable db) :
    ∃ e, c.test db = .error e := by
  cases c with
  | userID u => exact absurd trivial h
  | status s | aNumber s | bNumber s | wastageType s =>
      exact ⟨db.invalidText, by rw [Condition.test, Listing.readText, if_pos (not_not.mp h)]; rfl⟩
  | startTime s | endTime s =>
      cases htime : db.timestamptz s with
      | error e => exact ⟨e, by rw [Condition.test, htime]; rfl⟩
      | ok t => exact absurd ⟨t, htime⟩ h

theorem mapM_test {db : Listing CallRow} {cs : List Condition} {tests : List (CallRow → Bool)} :
    cs.mapM (Condition.test db) = .ok tests ↔
      (∀ c ∈ cs, c.Readable db) ∧ tests = cs.map fun c row => c.holds db row := by
  induction cs generalizing tests with
  | nil => simp [pure, Except.pure, eq_comm]
  | cons c rest ih =>
      rw [List.mapM_cons, List.forall_mem_cons, List.map_cons]
      by_cases hreadable : c.Readable db
      · rw [Condition.test_of_readable hreadable]
        cases hrest : rest.mapM (Condition.test db) with
        | error e =>
            have hnot : ¬ ∀ c ∈ rest, c.Readable db := fun hall => by
              have hok := ih.mpr ⟨hall, rfl⟩
              rw [hrest] at hok
              cases hok
            simp [bind, Except.bind, hnot]
        | ok more =>
            obtain ⟨hall, rfl⟩ := ih.mp hrest
            simpa [bind, Except.bind, pure, Except.pure, hreadable, eq_comm] using fun _ => hall
      · obtain ⟨e, he⟩ := Condition.test_of_unreadable hreadable
        simp [he, bind, Except.bind, hreadable]

-- The rows that a query finds, and when it finds any.
theorem selectWhere_eq_ok {db : Listing CallRow} {fault : Option String} {cs : List Condition}
    {rows found : List CallRow} :
    selectWhere db fault cs rows = .ok found ↔
      fault = none ∧ (∀ c ∈ cs, c.Readable db) ∧
      found = rows.filter fun row => cs.all (Condition.holds db row) := by
  cases fault with
  | some e => simp [selectWhere]
  | none =>
      rw [selectWhere]
      cases htests : cs.mapM (Condition.test db) with
      | error e =>
          have hnot : ¬ ∀ c ∈ cs, c.Readable db := fun hall => by
            have hok := mapM_test.mpr ⟨hall, rfl⟩
            rw [htests] at hok
            cases hok
          simp [Except.map, hnot]
      | ok tests =>
          obtain ⟨hall, rfl⟩ := mapM_test.mp htests
          simpa [Except.map, List.all_map, Function.comp_def, eq_comm] using fun _ => hall

-- The rows of a list: those of the caller, or of the requested user for an admin,
-- that pass every filter that is not empty.
def ListCallbacksParams.selects (p : ListCallbacksParams) (db : Listing CallRow) (ad : AuthData) (row : CallRow) :
    Bool :=
  (if ad.role ≠ "admin" then row.call.userID = ad.userID else p.userID = 0 ∨ row.call.userID = p.userID) ∧
    (p.status = "" ∨ row.call.status.text = p.status) ∧ (p.aNumber = "" ∨ row.call.aNumber = p.aNumber) ∧
    (p.bNumber = "" ∨ row.call.bNumber = p.bNumber) ∧
    (p.wastageType = "" ∨ row.call.wastageType.map WastageType.text = some p.wastageType) ∧
    (p.startTime = "" ∨ (db.timestamptz p.startTime).toOption.any fun t => t ≤ row.createdAt) ∧
    (p.endTime = "" ∨ (db.timestamptz p.endTime).toOption.any fun t => row.createdAt ≤ t)

theorem all_filter {set : Prop} [Decidable set] {c : Condition} {f : Condition → Bool} :
    (if set then [c] else []).all f = true ↔ (set → f c = true) := by
  split <;> simp [*]

theorem all_conditions {p : ListCallbacksParams} {db : Listing CallRow} {ad : AuthData} {row : CallRow} :
    (p.conditions ad).all (Condition.holds db row) = p.selects db ad row := by
  rw [Bool.eq_iff_iff, ListCallbacksParams.selects, decide_eq_true_eq, ListCallbacksParams.conditions]
  simp only [List.all_append, Bool.and_eq_true, all_filter, Condition.holds, decide_eq_true_eq, and_assoc]
  refine and_congr ?_ ?_
  · split
    · simp [Condition.holds]
    · rw [all_filter]
      simp [Condition.holds, imp_iff_not_or]
  · simp only [ne_eq, imp_iff_not_or, not_not]

end Selection

section Shape

-- Which of the filters are in force.
def ListCallbacksParams.filters (p : ListCallbacksParams) (ad : AuthData) : List Bool :=
  [decide (ad.role ≠ "admin" ∨ p.userID ≠ 0), decide (p.status ≠ ""), decide (p.aNumber ≠ ""),
    decide (p.bNumber ≠ ""), decide (p.wastageType ≠ ""), decide (p.startTime ≠ ""), decide (p.endTime ≠ "")]

variable {p other : ListCallbacksParams} {ad caller : AuthData}

theorem condition_congr {set same : Prop} [Decidable set] [Decidable same] (h : set ↔ same) {c d : Condition}
    (htext : c.comparison.condition = d.comparison.condition) :
    (if set then [c] else []).map (fun c => c.comparison.condition) =
      (if same then [d] else []).map (fun c => c.comparison.condition) := by
  by_cases hset : set
  · rw [if_pos hset, if_pos (h.mp hset), List.map_singleton, List.map_singleton, htext]
  · rw [if_neg hset, if_neg (hset ∘ h.mpr)]

theorem user_condition : (if ad.role ≠ "admin" then [Condition.userID ad.userID]
    else if p.userID ≠ 0 then [Condition.userID p.userID] else []).map (fun c => c.comparison.condition) =
      (if ad.role ≠ "admin" ∨ p.userID ≠ 0 then [Condition.userID 0] else []).map
        fun c => c.comparison.condition := by
  by_cases hrole : ad.role ≠ "admin"
  · rw [if_pos hrole, if_pos (.inl hrole)]
    rfl
  · rw [if_neg hrole]
    exact condition_congr (or_iff_right hrole).symm rfl

-- The conditions are written alike where the same filters are in force.
theorem conditions_congr (h : other.filters caller = p.filters ad) :
    (other.comparisons caller).map Comparison.condition = (p.comparisons ad).map Comparison.condition := by
  simp only [ListCallbacksParams.filters, List.cons.injEq, decide_eq_decide, and_true] at h
  obtain ⟨huser, hstatus, haNumber, hbNumber, hwastage, hstart, hend⟩ := h
  simp only [ListCallbacksParams.comparisons, ListCallbacksParams.conditions, List.map_append, List.map_map,
    Function.comp_def]
  have hcaller : (if caller.role ≠ "admin" then [Condition.userID caller.userID]
      else if other.userID ≠ 0 then [Condition.userID other.userID] else []).map (fun c => c.comparison.condition) =
        (if ad.role ≠ "admin" then [Condition.userID ad.userID]
          else if p.userID ≠ 0 then [Condition.userID p.userID] else []).map fun c => c.comparison.condition := by
    rw [user_condition, user_condition]
    exact condition_congr huser rfl
  rw [hcaller, @condition_congr _ _ _ _ hstatus (.status other.status) (.status p.status) rfl,
    @condition_congr _ _ _ _ haNumber (.aNumber other.aNumber) (.aNumber p.aNumber) rfl,
    @condition_congr _ _ _ _ hbNumber (.bNumber other.bNumber) (.bNumber p.bNumber) rfl,
    @condition_congr _ _ _ _ hwastage (.wastageType other.wastageType) (.wastageType p.wastageType) rfl,
    @condition_congr _ _ _ _ hstart (.startTime other.startTime) (.startTime p.startTime) rfl,
    @condition_congr _ _ _ _ hend (.endTime other.endTime) (.endTime p.endTime) rfl]

theorem where_congr (h : other.filters caller = p.filters ad) :
    (other.where caller).text = (p.where ad).text ∧ (other.where caller).argIdx = (p.where ad).argIdx := by
  have htexts := conditions_congr h
  have hlength := congrArg List.length htexts
  rw [List.length_map, List.length_map] at hlength
  refine ⟨?_, ?_⟩
  · rw [where_eq, where_eq]
    exact Clause.text_addAll_congr rfl rfl htexts
  · rw [where_argIdx, where_argIdx, where_args, where_args, List.length_map, List.length_map, hlength]

end Shape

def CallRow.created (row : CallRow) : Time := row.createdAt

-- What ListCallbacks answers from a table: how many rows are selected, and the page of
-- these rows, newest first, as far as it was received. A negative offset has no page.
structure Lists (db : Listing CallRow) (ad : AuthData) (p : ListCallbacksParams) (pageFault : Option PageFault)
    (rows : List CallRow) (response : ListCallbacksResponse) : Prop where
  total : response.total = (rows.filter (p.selects db ad)).length
  items : ∃ listed : List CallRow, listed.Perm (rows.filter (p.selects db ad)) ∧
    listed.Pairwise (fun a b => b.createdAt ≤ a.createdAt) ∧
    response.items = (received pageFault (limitOffset p.pageSizeOf p.offset listed)).map CallRow.summary

structure FiltersCalls (db : Listing CallRow) (ad : AuthData) (p : ListCallbacksParams) : Prop where
  -- $1 to $k, one for each argument
  count_placeholders : parameters (tokens (p.countQuery ad).text) = List.range' 1 (p.countQuery ad).args.length
  page_placeholders : parameters (tokens (p.pageQuery ad).text) = List.range' 1 (p.pageQuery ad).args.length
  -- the conditions of the text, each with the argument at its place
  count_conditions : (p.countQuery ad).countConditions = some (p.conditions ad)
  page_conditions : (p.pageQuery ad).page = some (p.conditions ad, p.pageSizeOf, p.offset)
  no_request_text : ∀ (other : ListCallbacksParams) (caller : AuthData), other.filters caller = p.filters ad →
    (other.countQuery caller).text = (p.countQuery ad).text ∧ (other.pageQuery caller).text = (p.pageQuery ad).text
  answers : ∀ (countFault : Option String) (pageFault : Option PageFault) (s : CallStore),
    (∃ response, queryCallbacks db (some ad) p countFault pageFault s = .ok response) ↔
      countFault = none ∧ (∀ e, pageFault ≠ some (.refused e)) ∧ ∀ c ∈ p.conditions ad, c.Readable db
  lists : ∀ (countFault : Option String) (pageFault : Option PageFault) (s : CallStore)
    (response : ListCallbacksResponse), queryCallbacks db (some ad) p countFault pageFault s = .ok response →
      Lists db ad p pageFault s.rows.rows response
  -- a caller who is no admin gets the same own rows for every requested user
  isolated : ad.role ≠ "admin" → ∀ (u : UserID) (countFault : Option String) (pageFault : Option PageFault)
      (s : CallStore),
    queryCallbacks db (some ad) { p with userID := u } countFault pageFault s =
      queryCallbacks db (some ad) p countFault pageFault s ∧
    ∀ response, queryCallbacks db (some ad) p countFault pageFault s = .ok response →
      ∀ item ∈ response.items, item.userID = ad.userID

section Correctness

variable {db : Listing CallRow} {ad : AuthData} {p : ListCallbacksParams}

theorem count_places : parameters (tokens (p.countQuery ad).text) = List.range' 1 (p.countQuery ad).args.length := by
  have hargs : (p.countQuery ad).args = (p.comparisons ad).map Comparison.arg := where_args p ad
  have hstart : parameters (tokens "SELECT COUNT(*) FROM callback_calls ") = [] := by decide
  have hwhere : parameters (tokens "WHERE 1=1") = [] := by decide
  rw [tokens_count, parameters_append, parameters_append, List.append_nil, parameters_writtenTokens, hstart, hwhere,
    hargs, List.length_map]
  rfl

theorem page_places : parameters (tokens (p.pageQuery ad).text) = List.range' 1 (p.pageQuery ad).args.length := by
  have hlength : (p.pageQuery ad).args.length = (p.comparisons ad).length + 2 := by
    rw [ListCallbacksParams.pageQuery, List.length_append, where_args, List.length_map]
    rfl
  have hidx : (p.where ad).argIdx = (p.comparisons ad).length + 1 := by
    rw [where_argIdx, where_args, List.length_map]
  have hcolumns : parameters (tokens pageColumns) = [] := by decide +kernel
  have hwhere : parameters (tokens "WHERE 1=1") = [] := by decide
  have hlimit : parameters (tokens " ORDER BY created_at DESC LIMIT ") = [] := by decide +kernel
  have hoffset : parameters (tokens " OFFSET ") = [] := by decide
  have hplace : ∀ k, parameters [.parameter k] = [k] := fun _ => rfl
  simp only [tokens_page, parameters_append, parameters_writtenTokens, hcolumns, hwhere, hlimit, hoffset, hplace,
    List.nil_append, hlength, hidx]
  rw [List.range'_concat, List.range'_concat, List.append_assoc]
  simp [Nat.add_comm]

theorem queryCallbacks_eq_ok {countFault : Option String} {pageFault : Option PageFault} {s : CallStore}
    {response : ListCallbacksResponse} :
    queryCallbacks db (some ad) p countFault pageFault s = .ok response ↔
      countFault = none ∧ (∀ e, pageFault ≠ some (.refused e)) ∧ (∀ c ∈ p.conditions ad, c.Readable db) ∧
        response = ⟨(received pageFault (limitOffset p.pageSizeOf p.offset
          (db.newestFirst (s.rows.rows.filter (p.selects db ad))))).map CallRow.summary,
            (s.rows.rows.filter (p.selects db ad)).length, p.pageOf, p.pageSizeOf⟩ := by
  have hfound : ∀ fault found, selectWhere db fault (p.conditions ad) s.rows.rows = .ok found ↔
      fault = none ∧ (∀ c ∈ p.conditions ad, c.Readable db) ∧ found = s.rows.rows.filter (p.selects db ad) := by
    intro fault found
    rw [selectWhere_eq_ok]
    simp only [all_conditions]
  rw [queryCallbacks_eq]
  simp only [listCallbacks, ListCallbacksParams.offset]
  cases hcount : selectWhere db countFault (p.conditions ad) s.rows.rows with
  | error e =>
      simp only [reduceCtorEq, false_iff]
      rintro ⟨hfault, _, hreadable, _⟩
      rw [(hfound countFault _).mpr ⟨hfault, hreadable, rfl⟩] at hcount
      cases hcount
  | ok counted =>
      obtain ⟨hcountFault, hreadable, rfl⟩ := (hfound countFault counted).mp hcount
      rw [(hfound none _).mpr ⟨rfl, hreadable, rfl⟩]
      cases pageFault with
      | none => simpa [Listing.readPage, hcountFault, eq_comm] using fun _ => hreadable
      | some fault =>
          cases fault with
          | refused e => simp [Listing.readPage]
          | broken n => simpa [Listing.readPage, hcountFault, eq_comm] using fun _ => hreadable

end Correctness

-- Every list of calls, for either role and any filters.
theorem listCallbacks_filters (db : Listing CallRow) (horder : NewestFirst CallRow.created db.newestFirst)
    (ad : AuthData) (p : ListCallbacksParams) : FiltersCalls db ad p where
  count_placeholders := count_places
  page_placeholders := page_places
  count_conditions := countQuery_conditions p ad
  page_conditions := pageQuery_page p ad
  no_request_text := by
    intro other caller h
    obtain ⟨htext, hidx⟩ := where_congr h
    constructor
    · exact congrArg (fun text => "SELECT COUNT(*) FROM callback_calls " ++ text) htext
    · exact congrArg₂ (fun text argIdx => pageColumns ++ text ++ " ORDER BY created_at DESC LIMIT $" ++
        toString argIdx ++ " OFFSET $" ++ toString (argIdx + 1)) htext hidx
  answers := by
    intro countFault pageFault s
    constructor
    · rintro ⟨response, h⟩
      obtain ⟨hcount, hpage, hreadable, _⟩ := queryCallbacks_eq_ok.mp h
      exact ⟨hcount, hpage, hreadable⟩
    · rintro ⟨hcount, hpage, hreadable⟩
      exact ⟨_, queryCallbacks_eq_ok.mpr ⟨hcount, hpage, hreadable, rfl⟩⟩
  lists := by
    intro countFault pageFault s response h
    obtain ⟨_, _, _, rfl⟩ := queryCallbacks_eq_ok.mp h
    exact ⟨rfl, _, (horder _).1, (horder _).2, rfl⟩
  isolated := by
    intro hrole u countFault pageFault s
    have hconditions : ({ p with userID := u } : ListCallbacksParams).conditions ad = p.conditions ad := by
      simp [ListCallbacksParams.conditions, hrole]
    constructor
    · have hlist : listCallbacks db (some ad) { p with userID := u } countFault pageFault s =
          listCallbacks db (some ad) p countFault pageFault s := by
        unfold listCallbacks
        dsimp only
        rw [hconditions]
        rfl
      exact (queryCallbacks_eq { p with userID := u } db (some ad) countFault pageFault s).trans
        (hlist.trans (queryCallbacks_eq p db (some ad) countFault pageFault s).symm)
    · intro response h item hitem
      obtain ⟨_, _, _, rfl⟩ := queryCallbacks_eq_ok.mp h
      obtain ⟨row, hrow, rfl⟩ := List.mem_map.mp hitem
      have hfound := (horder _).1.subset (mem_of_limitOffset (mem_of_received hrow))
      have hselected := (List.mem_filter.mp hfound).2
      rw [ListCallbacksParams.selects, decide_eq_true_eq, if_pos hrole] at hselected
      exact hselected.1

-- A table that is read and listed as PostgreSQL would, for texts that are numbers of
-- microseconds.
def sampleListing : Listing CallRow where
  timestamptz := fun text => match text.toInt? with
    | some t => .ok t
    | none => .error "ERROR: invalid input syntax for type timestamp with time zone (SQLSTATE 22007)"
  newestFirst := fun rows => rows.mergeSort fun a b => b.createdAt ≤ a.createdAt
  invalidText := "ERROR: invalid byte sequence for encoding \"UTF8\": 0x00 (SQLSTATE 22021)"
  negativeOffset := "ERROR: OFFSET must not be negative (SQLSTATE 2201X)"

theorem sampleListing_newestFirst : NewestFirst CallRow.created sampleListing.newestFirst := by
  intro rows
  refine ⟨List.mergeSort_perm rows _, ?_⟩
  have hsorted : (rows.mergeSort fun a b => decide (b.createdAt ≤ a.createdAt)).Pairwise
      fun a b => decide (b.createdAt ≤ a.createdAt) = true := by
    refine List.pairwise_mergeSort ?_ ?_ rows
    · intro a b c hab hbc
      exact decide_eq_true (Int.le_trans (of_decide_eq_true hbc) (of_decide_eq_true hab))
    · intro a b
      obtain h | h := Int.le_total b.createdAt a.createdAt <;> simp [h]
  exact hsorted.imp of_decide_eq_true

theorem listCallbacks_filters_sample :
    FiltersCalls sampleListing ⟨2, "client"⟩ ⟨"finished", "", "13900139001", "", 1, "0", "", 1, 50⟩ :=
  listCallbacks_filters sampleListing sampleListing_newestFirst _ _

section Pages

variable (db : Listing CallRow) (ad : AuthData) (p : ListCallbacksParams) (s : CallStore)

def callbacksPage (order : List CallRow → List CallRow) (page : Int64) : List CallSummary :=
  itemsOf ListCallbacksResponse.items
    (queryCallbacks { db with newestFirst := order } (some ad) { p with page } none none s)

theorem listCallbacks_paginates (hreadable : ∀ c ∈ p.conditions ad, c.Readable db)
    (hbound : (s.rows.rows.filter (p.selects db ad)).length < 2 ^ 63) :
    Paginates CallRow.created (s.rows.rows.filter (p.selects db ad)) CallRow.summary (pageSizeOf p.pageSize)
        (callbacksPage db ad p s) ↔
      PagesApart CallRow.created (s.rows.rows.filter (p.selects db ad)) (pageSizeOf p.pageSize) := by
  have hnodup : ((s.rows.rows.filter (p.selects db ad)).map CallRow.summary).Nodup := by
    have hids := s.rows.distinct.sublist ((List.filter_sublist (p := p.selects db ad)).map CallRow.callID)
    refine List.Nodup.of_map CallSummary.callID ?_
    rw [List.map_map]
    exact hids
  refine paginates_iff hnodup hbound fun order page => ?_
  have hok := (@queryCallbacks_eq_ok { db with newestFirst := order } ad { p with page } none none s _).mpr
    ⟨rfl, nofun, hreadable, rfl⟩
  rw [callbacksPage, hok]
  rfl

end Pages

end Bos3000.Callback
