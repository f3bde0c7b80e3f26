import Bos3000.Auth.Handler
import Bos3000.Callback.Filters
import Bos3000.Web.Query

-- The lists of calls that the clients ask the callback service for.
namespace Bos3000.Web

open Callback (CallRow CallStore ListCallbacksParams ListCallbacksResponse)
open PercentEncoding

-- What a page of the call records is asked for with. The portal and the admin
-- console build the same request.
structure CDRParams where
  page : Int64
  limit : Int64
  startDate : Option String
  endDate : Option String
  status : Option String

def Value.ofOption : Option String → Value
  | some s => .text s
  | none => .undefined

def CDRParams.entries (p : CDRParams) : List (String × Value) :=
  [("page", .number p.page.toInt), ("page_size", .number p.limit.toInt), ("date_from", .ofOption p.startDate),
   ("date_to", .ofOption p.endDate), ("status", .ofOption p.status)]

def listCDRsUrl (p : CDRParams) : String := "/api/callbacks" ++ qs p.entries

def activeEntries : List (String × Value) :=
  [("page", .number 1), ("page_size", .number 100), ("status", .text "in_progress")]

def listActiveCallsUrl : String := "/api/callbacks" ++ qs activeEntries

abbrev Query := List (List UInt8 × List UInt8)

-- A parameter of an integer type, which is 0 where it is absent.
def IsNumber (n : Int64) (bytes : List UInt8) : Prop :=
  (bytes = [] → n = 0) ∧ ∀ m : Int64, bytes = utf8 (toString m.toInt).toList → n = m

-- The decoder of requests fills each field from the parameter that its tag names.
structure Decodes (decode : Query → Option ListCallbacksParams) : Prop where
  status {q : Query} {p : ListCallbacksParams} (h : decode q = some p) : utf8 p.status.toList = queryGet "status" q
  aNumber {q : Query} {p : ListCallbacksParams} (h : decode q = some p) :
    utf8 p.aNumber.toList = queryGet "a_number" q
  bNumber {q : Query} {p : ListCallbacksParams} (h : decode q = some p) :
    utf8 p.bNumber.toList = queryGet "b_number" q
  wastageType {q : Query} {p : ListCallbacksParams} (h : decode q = some p) :
    utf8 p.wastageType.toList = queryGet "wastage_type" q
  userID {q : Query} {p : ListCallbacksParams} (h : decode q = some p) : IsNumber p.userID (queryGet "user_id" q)
  startTime {q : Query} {p : ListCallbacksParams} (h : decode q = some p) :
    utf8 p.startTime.toList = queryGet "start_time" q
  endTime {q : Query} {p : ListCallbacksParams} (h : decode q = some p) :
    utf8 p.endTime.toList = queryGet "end_time" q
  page {q : Query} {p : ListCallbacksParams} (h : decode q = some p) : IsNumber p.page (queryGet "page" q)
  pageSize {q : Query} {p : ListCallbacksParams} (h : decode q = some p) :
    IsNumber p.pageSize (queryGet "page_size" q)

section Given

theorem utf8_eq_nil {s : String} : utf8 s.toList = [] ↔ s = "" := by
  have hempty : utf8 "".toList = [] := rfl
  rw [← hempty]
  exact utf8_inj

theorem given_ofOption (name : String) (s : Option String) (rest : List (String × Value)) :
    given name ((name, .ofOption s) :: rest) = if s.getD "" = "" then given name rest else utf8 (s.getD "").toList := by
  cases s with
  | none => simp [given, Value.ofOption, Value.present]
  | some s => by_cases hs : s = "" <;> simp [given, Value.ofOption, Value.present, Value.string, hs]

theorem given_other {name other : String} (hne : other ≠ name) (v : Value) (rest : List (String × Value)) :
    given name ((other, v) :: rest) = given name rest := by
  simp [given, hne]

theorem given_number (name : String) (n : Int) (rest : List (String × Value)) :
    given name ((name, .number n) :: rest) = utf8 (toString n).toList := by
  simp [given, Value.present, Value.string]

theorem given_nil (name : String) : given name [] = [] := rfl

theorem entries_named (p : CDRParams) : named p.entries = true := by
  have hnames : (["page", "page_size", "date_from", "date_to", "status"].all fun k => k.toList.all isPlain) = true := by
    decide +kernel
  simpa [named, CDRParams.entries] using hnames

-- The request of a page of call records has a page, a size and a status.
theorem entries_given (p : CDRParams) :
    given "page" p.entries = utf8 (toString p.page.toInt).toList ∧
      given "page_size" p.entries = utf8 (toString p.limit.toInt).toList ∧
      given "status" p.entries = utf8 (p.status.getD "").toList := by
  unfold CDRParams.entries
  refine ⟨given_number .., ?_, ?_⟩
  · rw [given_other (by decide), given_number]
  · rw [given_other (by decide), given_other (by decide), given_other (by decide), given_other (by decide),
      given_ofOption, given_nil]
    split
    · rename_i hempty
      rw [hempty]
      rfl
    · rfl

theorem entries_absent (p : CDRParams) {name : String}
    (hname : name ∉ ["page", "page_size", "date_from", "date_to", "status"]) : given name p.entries = [] := by
  simp only [List.mem_cons, List.not_mem_nil, or_false, not_or] at hname
  obtain ⟨hpage, hsize, hfrom, hto, hstatus⟩ := hname
  unfold CDRParams.entries
  rw [given_other (Ne.symm hpage), given_other (Ne.symm hsize), given_other (Ne.symm hfrom),
    given_other (Ne.symm hto), given_other (Ne.symm hstatus), given_nil]

end Given

section Lists

variable {decode : Query → Option ListCallbacksParams}

-- The request that the server gets of a page of call records: whatever its dates
-- are, they go under names that the server does not know.
theorem listCDRs_decoded (hdecode : Decodes decode) (p : CDRParams) {params : ListCallbacksParams}
    (h : decode (readQuery (sentQuery (listCDRsUrl p))) = some params) :
    params = ⟨p.status.getD "", "", "", "", 0, "", "", p.page, p.limit⟩ := by
  have hread (name : String) : queryGet name (readQuery (sentQuery (listCDRsUrl p))) = given name p.entries :=
    queryGet_qs (by decide +kernel) (entries_named p) name
  obtain ⟨hpage, hsize, hstatus⟩ := entries_given p
  have habsent {s : String} {name : String} (hname : name ∉ ["page", "page_size", "date_from", "date_to", "status"])
      (hs : utf8 s.toList = queryGet name (readQuery (sentQuery (listCDRsUrl p)))) : s = "" := by
    rw [hread, entries_absent p hname] at hs
    exact utf8_eq_nil.mp hs
  have hstatus' : params.status = p.status.getD "" := by
    have hs := hdecode.status h
    rw [hread, hstatus] at hs
    exact utf8_inj.mp hs
  have haNumber := habsent (by decide) (hdecode.aNumber h)
  have hbNumber := habsent (by decide) (hdecode.bNumber h)
  have hwastage := habsent (by decide) (hdecode.wastageType h)
  have hstart := habsent (by decide) (hdecode.startTime h)
  have hend := habsent (by decide) (hdecode.endTime h)
  have huser : params.userID = 0 := (hdecode.userID h).1 ((hread "user_id").trans (entries_absent p (by decide)))
  have hpage' : params.page = p.page := (hdecode.page h).2 p.page ((hread "page").trans hpage)
  have hsize' : params.pageSize = p.limit := (hdecode.pageSize h).2 p.limit ((hread "page_size").trans hsize)
  cases params
  simp only at hstatus' haNumber hbNumber hwastage hstart hend huser hpage' hsize'
  subst hstatus' haNumber hbNumber hwastage hstart hend huser hpage' hsize'
  rfl

-- No call is ever in the status that the active calls are asked for by.
theorem text_ne_inProgress (status : Callback.Status) : status.text ≠ "in_progress" := by
  cases status <;> decide

theorem selectWhere_inProgress {db : Listing CallRow} {fault : Option String} {params : ListCallbacksParams}
    (hstatus : params.status = "in_progress") {ad : AuthData} {rows found : List CallRow}
    (h : Callback.selectWhere db fault (params.conditions ad) rows = .ok found) : found = [] := by
  obtain ⟨_, _, rfl⟩ := Callback.selectWhere_eq_ok.mp h
  have hmem : Callback.Condition.status "in_progress" ∈ params.conditions ad := by
    simp [ListCallbacksParams.conditions, hstatus]
  refine List.filter_eq_nil_iff.mpr fun row _ hall => ?_
  have htext := List.all_eq_true.mp hall _ hmem
  simp only [Callback.Condition.holds, decide_eq_true_eq] at htext
  exact text_ne_inProgress row.call.status htext

theorem listCallbacks_inProgress {db : Listing CallRow} (horder : NewestFirst CallRow.created db.newestFirst)
    {params : ListCallbacksParams} (hstatus : params.status = "in_progress") {auth : Option AuthData}
    {countFault : Option String} {pageFault : Option PageFault} {s : CallStore} {response : ListCallbacksResponse}
    (h : Callback.listCallbacks db auth params countFault pageFault s = .ok response) :
    response.items = [] ∧ response.total = 0 := by
  unfold Callback.listCallbacks at h
  split at h
  · cases h
  · split at h
    · cases h
    · rename_i counted hcounted
      dsimp only at h
      split at h
      · cases h
      · rename_i listed hlisted
        cases h
        have hnone : listed = [] := by
          refine List.eq_nil_iff_forall_not_mem.mpr fun row hrow => ?_
          obtain ⟨found, hfound, hlisted⟩ := mem_of_readPage hlisted hrow
          rw [selectWhere_inProgress hstatus hfound] at hlisted
          cases (horder []).1.mem_iff.mp hlisted
        simp [selectWhere_inProgress hstatus hcounted, hnone]

theorem activeCalls_status (hdecode : Decodes decode) {params : ListCallbacksParams}
    (h : decode (readQuery (sentQuery listActiveCallsUrl)) = some params) : params.status = "in_progress" := by
  have hs := hdecode.status h
  rw [listActiveCallsUrl, queryGet_qs (by decide +kernel) (by decide +kernel)] at hs
  exact utf8_inj.mp hs

-- What the clients show of the calls: a page of call records is the page of the
-- status that was asked for, whatever the dates, and no call is ever active.
theorem lists_shown (hdecode : Decodes decode) {db : Listing CallRow}
    (horder : NewestFirst CallRow.created db.newestFirst) (auth : Option AuthData) (countFault : Option String)
    (pageFault : Option PageFault) (s : CallStore) :
    (∀ p params, decode (readQuery (sentQuery (listCDRsUrl p))) = some params →
      Callback.listCallbacks db auth params countFault pageFault s =
        Callback.listCallbacks db auth ⟨p.status.getD "", "", "", "", 0, "", "", p.page, p.limit⟩
          countFault pageFault s) ∧
    ∀ params response, decode (readQuery (sentQuery listActiveCallsUrl)) = some params →
      Callback.listCallbacks db auth params countFault pageFault s = .ok response →
        response.items = [] ∧ response.total = 0 := by
  refine ⟨fun p params h => ?_, fun params response h hresponse => ?_⟩
  · rw [listCDRs_decoded hdecode p h]
  · exact listCallbacks_inProgress horder (activeCalls_status hdecode h) hresponse

-- A decoder that reads the parameters of these requests.
def textOf (bytes : List UInt8) : Option String := String.fromUTF8? bytes.toByteArray

def numberOf (bytes : List UInt8) : Int64 :=
  match textOf bytes with
  | some text => Auth.parseUserID text
  | none => 0

def decodeParams (q : Query) : Option ListCallbacksParams :=
  (textOf (queryGet "status" q)).bind fun status =>
    (textOf (queryGet "a_number" q)).bind fun aNumber =>
      (textOf (queryGet "b_number" q)).bind fun bNumber =>
        (textOf (queryGet "wastage_type" q)).bind fun wastageType =>
          (textOf (queryGet "start_time" q)).bind fun startTime =>
            (textOf (queryGet "end_time" q)).map fun endTime =>
              ⟨status, aNumber, bNumber, wastageType, numberOf (queryGet "user_id" q), startTime, endTime,
                numberOf (queryGet "page" q), numberOf (queryGet "page_size" q)⟩

theorem utf8_textOf {bytes : List UInt8} {s : String} (h : textOf bytes = some s) : utf8 s.toList = bytes := by
  unfold textOf String.fromUTF8? at h
  split at h
  · cases h
    refine List.toByteArray_inj.mp ?_
    exact String.utf8Encode_toList
  · cases h

theorem textOf_utf8 (s : String) : textOf (utf8 s.toList) = some s := by
  have hbytes : (utf8 s.toList).toByteArray = s.toByteArray := String.utf8Encode_toList
  unfold textOf String.fromUTF8?
  rw [hbytes, dif_pos s.isValidUTF8]
  rfl

theorem isNumber_numberOf (bytes : List UInt8) : IsNumber (numberOf bytes) bytes := by
  constructor
  · rintro rfl
    have hempty : textOf [] = some "" := textOf_utf8 ""
    rw [numberOf, hempty]
    rfl
  · rintro m rfl
    rw [numberOf, textOf_utf8]
    exact Auth.parseUserID_toString m

theorem decodes_decodeParams : Decodes decodeParams := by
  have hall : ∀ {q : Query} {p : ListCallbacksParams}, decodeParams q = some p →
      textOf (queryGet "status" q) = some p.status ∧ textOf (queryGet "a_number" q) = some p.aNumber ∧
        textOf (queryGet "b_number" q) = some p.bNumber ∧ textOf (queryGet "wastage_type" q) = some p.wastageType ∧
        textOf (queryGet "start_time" q) = some p.startTime ∧ textOf (queryGet "end_time" q) = some p.endTime ∧
        p.userID = numberOf (queryGet "user_id" q) ∧ p.page = numberOf (queryGet "page" q) ∧
        p.pageSize = numberOf (queryGet "page_size" q) := by
    intro q p h
    obtain ⟨status, hstatus, h⟩ := Option.bind_eq_some_iff.mp h
    obtain ⟨aNumber, haNumber, h⟩ := Option.bind_eq_some_iff.mp h
    obtain ⟨bNumber, hbNumber, h⟩ := Option.bind_eq_some_iff.mp h
    obtain ⟨wastageType, hwastage, h⟩ := Option.bind_eq_some_iff.mp h
    obtain ⟨startTime, hstart, h⟩ := Option.bind_eq_some_iff.mp h
    obtain ⟨endTime, hend, rfl⟩ := Option.map_eq_some_iff.mp h
    exact ⟨hstatus, haNumber, hbNumber, hwastage, hstart, hend, rfl, rfl, rfl⟩
  constructor
  · exact fun h => utf8_textOf (hall h).1
  · exact fun h => utf8_textOf (hall h).2.1
  · exact fun h => utf8_textOf (hall h).2.2.1
  · exact fun h => utf8_textOf (hall h).2.2.2.1
  · intro q p h
    obtain ⟨_, _, _, _, _, _, huser, _⟩ := hall h
    rw [huser]
    exact isNumber_numberOf _
  · exact fun h => utf8_textOf (hall h).2.2.2.2.1
  · exact fun h => utf8_textOf (hall h).2.2.2.2.2.1
  · intro q p h
    obtain ⟨_, _, _, _, _, _, _, hpage, _⟩ := hall h
    rw [hpage]
    exact isNumber_numberOf _
  · intro q p h
    obtain ⟨_, _, _, _, _, _, _, _, hsize⟩ := hall h
    rw [hsize]
    exact isNumber_numberOf _

-- A call that is bridged, and what its owner asks for.
def bridgedCall : CallStore :=
  ⟨⟨[⟨⟨{ Callback.sampleCall with status := .bridged }, [], 0, 0⟩, none, none, none⟩],
    List.nodup_singleton _⟩,
    fun _ => none, by simp⟩

theorem lists_shown_bridged :
    (∃ params, decodeParams (readQuery (sentQuery listActiveCallsUrl)) = some params) ∧
    (∀ p params, decodeParams (readQuery (sentQuery (listCDRsUrl p))) = some params →
      Callback.listCallbacks Callback.sampleListing (some ⟨1, "client"⟩) params none none bridgedCall =
        Callback.listCallbacks Callback.sampleListing (some ⟨1, "client"⟩)
          ⟨p.status.getD "", "", "", "", 0, "", "", p.page, p.limit⟩ none none bridgedCall) ∧
    ∀ params response, decodeParams (readQuery (sentQuery listActiveCallsUrl)) = some params →
      Callback.listCallbacks Callback.sampleListing (some ⟨1, "client"⟩) params none none bridgedCall =
        .ok response →
        response.items = [] ∧ response.total = 0 := by
  refine ⟨?_, lists_shown decodes_decodeParams Callback.sampleListing_newestFirst (some ⟨1, "client"⟩) none none
    _⟩
  have hread (name : String) : queryGet name (readQuery (sentQuery listActiveCallsUrl)) = given name activeEntries :=
    queryGet_qs (by decide +kernel) (by decide +kernel) name
  have hempty : textOf [] = some "" := textOf_utf8 ""
  have hstatus : given "status" activeEntries = utf8 "in_progress".toList := rfl
  have habsent : given "a_number" activeEntries = [] ∧ given "b_number" activeEntries = [] ∧
      given "wastage_type" activeEntries = [] ∧ given "start_time" activeEntries = [] ∧
      given "end_time" activeEntries = [] := ⟨rfl, rfl, rfl, rfl, rfl⟩
  obtain ⟨haNumber, hbNumber, hwastage, hstart, hend⟩ := habsent
  refine ⟨⟨"in_progress", "", "", "", numberOf (given "user_id" activeEntries), "", "",
    numberOf (given "page" activeEntries), numberOf (given "page_size" activeEntries)⟩, ?_⟩
  simp only [decodeParams, hread, hstatus, haNumber, hbNumber, hwastage, hstart, hend, textOf_utf8, hempty,
    Option.bind_some, Option.map_some]

end Lists

end Bos3000.Web
