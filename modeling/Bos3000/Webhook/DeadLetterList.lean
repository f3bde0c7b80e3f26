import Bos3000.Webhook.DeadLetters
import Bos3000.Webhook.Deliveries

-- ListDLQ: the dead letters, a page at a time.
namespace Bos3000.Webhook

structure DLQEntry where
  id : Int64
  callID : String
  userID : UserID
  eventType : String
  webhookURL : String
  attemptCount : Int
  lastError : Option String
  dlqAt : Time
  createdAt : Time
  deriving DecidableEq, Repr

structure ListDLQParams where
  page : Int64
  pageSize : Int64
  deriving DecidableEq, Repr

structure ListDLQResponse where
  items : List DLQEntry
  total : Nat
  page : Int64
  pageSize : Int64
  deriving DecidableEq, Repr

def DeliveryRow.entry (row : DeliveryRow) (dlqAt : Time) : DLQEntry :=
  ⟨row.id, row.callID, row.userID, row.eventType, row.webhookURL, row.attemptCount, row.lastError, dlqAt,
    row.createdAt⟩

-- A time cannot be scanned from NULL.
def scanEntry (nullTime : String) (row : DeliveryRow) : Except String DLQEntry :=
  match row.dlqAt with
  | some t => .ok (row.entry t)
  | none => .error nullTime

-- WHERE status = 'dlq'
def inDLQ : List (Except String (DeliveryRow → Bool)) := [.ok fun row => decide (row.status = .dlq)]

-- `db` lists by dlq_at here.
def listDLQ (db : Listing DeliveryRow) (nullTime : String) (auth : Option AuthData) (p : ListDLQParams)
    (countFault : Option String) (pageFault : Option PageFault) (rows : Table DeliveryRow.rowID) :
    Except APIError ListDLQResponse :=
  match auth with
  | none => .error ⟨.PermissionDenied, "admin access required"⟩
  | some ad =>
      if ad.role ≠ "admin" then .error ⟨.PermissionDenied, "admin access required"⟩
      else
        let offset := (pageOf p.page - 1) * pageSizeOf p.pageSize
        match selectTests countFault inDLQ rows.rows with
        | .error e => .error ⟨.Unknown, e⟩
        | .ok counted =>
            match (db.readPage pageFault (pageSizeOf p.pageSize) offset (selectTests none inDLQ rows.rows)).bind
                (List.mapM (scanEntry nullTime)) with
            | .error e => .error ⟨.Unknown, e⟩
            | .ok items => .ok ⟨items, counted.length, pageOf p.page, pageSizeOf p.pageSize⟩

-- A dead letter says when it died, and of what.
def Delivery.Dated (row : Delivery) : Prop := row.status = .dlq → row.dlqAt.isSome ∧ row.lastError.isSome

def AllDated (s : Service) : Prop := ∀ row ∈ s.deliveries.rows, row.Dated

section Runs

variable {s t : Service} {x : Answer} {stage next : Stage}

theorem AllDated.update (h : AllDated s) {id : Int64} {assign : Delivery → Delivery}
    (hassign : ∀ row, (assign row).id = row.id) (hdated : ∀ row, row.Dated → (assign row).Dated) :
    AllDated { s with deliveries := s.deliveries.update id assign hassign } := by
  intro row hrow
  have hrow : row ∈ (s.deliveries.update id assign hassign).rows := hrow
  obtain ⟨old, hold, rfl⟩ := Table.mem_update.mp hrow
  split
  · exact hdated old (h old hold)
  · exact h old hold

theorem recordFailure_dated (interval : Duration) (lastError : String) (now : Time) (row : Delivery) :
    (row.recordFailure interval lastError now).Dated := by
  unfold Delivery.recordFailure
  split
  · exact fun hdlq => absurd hdlq nofun
  · exact fun _ => ⟨rfl, rfl⟩

theorem Moves.allDated (hmoves : Moves s x stage next t) (h : AllDated s) : AllDated t := by
  cases hmoves with
  | insert hinsert =>
      obtain ⟨hrows, _⟩ := Table.insert_eq_some hinsert
      intro row hrow
      simp only [hrows, List.mem_append, List.mem_singleton] at hrow
      obtain hold | rfl := hrow
      · exact h row hold
      · exact fun hdlq => absurd hdlq nofun
  | begin e => exact h.update beginAttempt_id fun row _ hdlq => absurd hdlq nofun
  | record e now => exact h.update (recordDelivered_id now) fun row _ hdlq => absurd hdlq nofun
  | schedule e lastError interval now =>
      exact h.update (recordFailure_id interval lastError now) fun row _ =>
        recordFailure_dated interval lastError now row
  | mark id pending now => exact h.update markPending_id fun row _ hdlq => absurd hdlq nofun
  | reset target now => exact h.update (resetForRetry_id now) fun row _ hdlq => absurd hdlq nofun
  | publish | receive | redeliver | post | accept | refuse | count | missing | poll | fetch | read | ignoreBegin
  | ignoreReset | skip | fail => exact h

theorem allDated_run {labels : List Label} {s : State} (hrun : Machine.run step initService labels = some s) :
    AllDated s.shared := by
  refine Machine.invariant (P := fun s : State => AllDated s.shared) ?_
    (fun _ hrow => absurd hrow List.not_mem_nil) hrun
  intro s l t h hstep
  cases l with
  | spawn request =>
      cases hstep
      exact h
  | move i x =>
      obtain ⟨stage, next, shared, _, hresume, rfl⟩ := Pool.step_move.mp hstep
      exact (resume_moves hresume).allDated h

end Runs

def deadAt (row : DeliveryRow) : Time := row.dlqAt.getD 0

def DeliveryRow.deadLetter (row : DeliveryRow) : DLQEntry := row.entry (deadAt row)

def deadLetters (rows : Table DeliveryRow.rowID) : List DeliveryRow :=
  rows.rows.filter fun row => decide (row.status = .dlq)

def dlqPage (db : Listing DeliveryRow) (nullTime : String) (p : ListDLQParams) (ad : AuthData)
    (rows : Table DeliveryRow.rowID) (order : List DeliveryRow → List DeliveryRow) (page : Int64) : List DLQEntry :=
  itemsOf ListDLQResponse.items
    (listDLQ { db with newestFirst := order } nullTime (some ad) { p with page } none none rows)

section Pages

variable {nullTime : String} {p : ListDLQParams} {ad : AuthData}
  {rows : Table DeliveryRow.rowID}

theorem mapM_scanEntry {found : List DeliveryRow} (h : ∀ row ∈ found, row.dlqAt.isSome) :
    found.mapM (scanEntry nullTime) = .ok (found.map DeliveryRow.deadLetter) := by
  induction found with
  | nil => rfl
  | cons row found ih =>
      obtain ⟨hrow, hfound⟩ := List.forall_mem_cons.mp h
      obtain ⟨t, ht⟩ := Option.isSome_iff_exists.mp hrow
      have hscan : scanEntry nullTime row = .ok row.deadLetter := by
        simp [scanEntry, ht, DeliveryRow.deadLetter, deadAt]
      rw [List.mapM_cons, hscan, ih hfound]
      rfl

theorem listDLQ_eq (db : Listing DeliveryRow) (horder : NewestFirst deadAt db.newestFirst) (hadmin : ad.role = "admin")
    (hdated : ∀ row ∈ rows.rows, row.toDelivery.Dated) :
    listDLQ db nullTime (some ad) p none none rows =
      .ok ⟨(limitOffset (pageSizeOf p.pageSize) ((pageOf p.page - 1) * pageSizeOf p.pageSize)
          (db.newestFirst (deadLetters rows))).map DeliveryRow.deadLetter,
        (deadLetters rows).length, pageOf p.page, pageSizeOf p.pageSize⟩ := by
  have hselect : selectTests none inDLQ rows.rows = .ok (deadLetters rows) := by
    simp [selectTests, inDLQ, deadLetters, Except.map, pure, Except.pure, bind, Except.bind]
  have hscanned : ∀ row ∈ limitOffset (pageSizeOf p.pageSize) ((pageOf p.page - 1) * pageSizeOf p.pageSize)
      (db.newestFirst (deadLetters rows)), row.dlqAt.isSome := by
    intro row hrow
    obtain ⟨hmem, hdlq⟩ := List.mem_filter.mp ((horder _).1.mem_iff.mp (mem_of_limitOffset hrow))
    exact (hdated row hmem (of_decide_eq_true hdlq)).1
  simp only [listDLQ, hadmin, ne_eq, not_true_eq_false, if_false, hselect, readPage_none, Except.bind,
    mapM_scanEntry hscanned]

-- In every state of the service, an admin's list of the dead letters never fails of its
-- own. It counts them all, each with the time and the error that it died of, and its
-- pages return each of them once exactly if no two pages share a time and no later page
-- wraps around.
theorem dead_letters_listed {labels : List Label} {s : State} (hrun : Machine.run step initService labels = some s)
    (hrows : rows.rows.map DeliveryRow.toDelivery = s.shared.deliveries.rows) (db : Listing DeliveryRow)
    (nullTime : String) (p : ListDLQParams) (hadmin : ad.role = "admin") (hbound : (deadLetters rows).length < 2 ^ 63) :
    (∀ order, NewestFirst deadAt order → ∀ page, ∃ items,
      listDLQ { db with newestFirst := order } nullTime (some ad) { p with page } none none rows =
        .ok ⟨items, s.shared.deliveries.rows.countP fun row => decide (row.status = .dlq), pageOf page,
          pageSizeOf p.pageSize⟩) ∧
    (∀ row ∈ deadLetters rows, row.dlqAt = some (deadAt row) ∧ row.lastError.isSome) ∧
    (Paginates deadAt (deadLetters rows) DeliveryRow.deadLetter (pageSizeOf p.pageSize)
        (dlqPage db nullTime p ad rows) ↔
      PagesApart deadAt (deadLetters rows) (pageSizeOf p.pageSize)) := by
  have hdated : ∀ row ∈ rows.rows, row.toDelivery.Dated := fun row hrow =>
    allDated_run hrun _ (hrows ▸ List.mem_map_of_mem hrow)
  have hcount : (deadLetters rows).length =
      s.shared.deliveries.rows.countP fun row => decide (row.status = .dlq) := by
    rw [← hrows, List.countP_map, deadLetters, ← List.countP_eq_length_filter]
    rfl
  refine ⟨fun order horder page => ?_, fun row hrow => ?_, ?_⟩
  · rw [listDLQ_eq { db with newestFirst := order } horder hadmin hdated, hcount]
    exact ⟨_, rfl⟩
  · obtain ⟨hmem, hdlq⟩ := List.mem_filter.mp hrow
    obtain ⟨hat, herror⟩ := hdated row hmem (of_decide_eq_true hdlq)
    obtain ⟨t, ht⟩ := Option.isSome_iff_exists.mp hat
    exact ⟨by rw [deadAt, ht]; rfl, herror⟩
  · let plain (order : List DeliveryRow → List DeliveryRow) (page : Int64) : List DLQEntry :=
      (limitOffset (pageSizeOf p.pageSize) ((pageOf page - 1) * pageSizeOf p.pageSize)
        (order (deadLetters rows))).map DeliveryRow.deadLetter
    have hplain : ∀ order, NewestFirst deadAt order → ∀ page,
        dlqPage db nullTime p ad rows order page = plain order page := by
      intro order horder page
      rw [dlqPage, listDLQ_eq { db with newestFirst := order } horder hadmin hdated]
      rfl
    have hnodup : ((deadLetters rows).map DeliveryRow.deadLetter).Nodup := by
      refine List.Nodup.of_map DLQEntry.id ?_
      rw [List.map_map]
      exact rows.distinct.sublist (List.filter_sublist.map _)
    have hiff : Paginates deadAt (deadLetters rows) DeliveryRow.deadLetter (pageSizeOf p.pageSize) plain ↔
        PagesApart deadAt (deadLetters rows) (pageSizeOf p.pageSize) := paginates_iff hnodup hbound fun _ _ => rfl
    rw [← hiff]
    exact ⟨Paginates.congr fun order horder page => (hplain order horder page).symm, Paginates.congr hplain⟩

-- A delivery that died of its sixth attempt.
def oneDead : List Label :=
  published ++ refused 1 0 ++ refusedAgain 2 ++ refusedAgain 3 ++ refusedAgain 4 ++ refusedAgain 5 ++ refusedAgain 6

def stored (t : DeliveryTable) : Table DeliveryRow.rowID where
  rows := t.rows.map fun row => ⟨row, 0⟩
  distinct := by
    rw [List.map_map]
    exact t.distinct

theorem dead_letters_listed_oneDead :
    ∃ s, Machine.run step initService oneDead = some s ∧ (deadLetters (stored s.shared.deliveries)).length = 1 ∧
      (∀ order, NewestFirst deadAt order → ∀ page, ∃ items,
        listDLQ ⟨fun _ => .error "", order, "", ""⟩ "" (some ⟨1, "admin"⟩) ⟨page, 20⟩ none none
            (stored s.shared.deliveries) =
          .ok ⟨items, s.shared.deliveries.rows.countP fun row => decide (row.status = .dlq), pageOf page,
            pageSizeOf 20⟩) ∧
      (∀ row ∈ deadLetters (stored s.shared.deliveries), row.dlqAt = some (deadAt row) ∧ row.lastError.isSome) ∧
      (Paginates deadAt (deadLetters (stored s.shared.deliveries)) DeliveryRow.deadLetter (pageSizeOf 20)
          (dlqPage ⟨fun _ => .error "", id, "", ""⟩ "" ⟨1, 20⟩ ⟨1, "admin"⟩
          (stored s.shared.deliveries)) ↔
        PagesApart deadAt (deadLetters (stored s.shared.deliveries)) (pageSizeOf 20)) := by
  have hcheck : (Machine.run step initService oneDead).any
      (fun s => (deadLetters (stored s.shared.deliveries)).length = 1) = true := by
    decide +kernel
  obtain ⟨s, hrun, hone⟩ := (Option.any_eq_true ..).mp hcheck
  have hlength := of_decide_eq_true hone
  have hrows : (stored s.shared.deliveries).rows.map DeliveryRow.toDelivery = s.shared.deliveries.rows := by
    simp [stored, Function.comp_def]
  have hadmin : (⟨1, "admin"⟩ : AuthData).role = "admin" := rfl
  exact ⟨s, hrun, hlength, dead_letters_listed hrun hrows ⟨fun _ => .error "", id, "", ""⟩ "" ⟨1, 20⟩ hadmin
    (by omega)⟩

end Pages

end Bos3000.Webhook
