import Bos3000.Billing.Transactions
import Bos3000.Callback.Filters
import Bos3000.Compliance.AuditLogs
import Bos3000.Webhook.Deliveries

-- The pages of the four list endpoints that order by creation time only.
namespace Bos3000.Service

open Billing (ListTransactionsParams TransactionEntry listTransactions_paginates transactionsPage)
open Callback (CallRow CallStore CallSummary ListCallbacksParams callbacksPage listCallbacks_paginates)
open Compliance (AuditLogEntry QueryAuditLogsParams auditLogsPage queryAuditLogs_paginates)
open Webhook (DeliveryRow ListDeliveriesParams deliveriesPage listDeliveries_paginates ofUser)

-- The pages of each list return every matching row once, and those beyond the last none,
-- exactly if no two pages share a time and no later page wraps around.
theorem lists_paginate (ad : AuthData) :
    (∀ (db : Listing CallRow) (p : ListCallbacksParams) (s : CallStore),
      (∀ c ∈ p.conditions ad, c.Readable db) → (s.rows.rows.filter (p.selects db ad)).length < 2 ^ 63 →
      (Paginates CallRow.created (s.rows.rows.filter (p.selects db ad)) CallRow.summary (pageSizeOf p.pageSize)
          (callbacksPage db ad p s) ↔
        PagesApart CallRow.created (s.rows.rows.filter (p.selects db ad)) (pageSizeOf p.pageSize))) ∧
    (∀ (db : Listing TransactionEntry) (userID : UserID) (p : ListTransactionsParams)
      (rows : Table TransactionEntry.id) (matching : List TransactionEntry),
      ad.role = "admin" ∨ ad.userID = userID → selectTests none (p.tests db userID) rows.rows = .ok matching →
      matching.length < 2 ^ 63 →
      (Paginates TransactionEntry.createdAt matching id (pageSizeOf p.pageSize)
          (transactionsPage db userID p ad rows) ↔
        PagesApart TransactionEntry.createdAt matching (pageSizeOf p.pageSize))) ∧
    (∀ (db : Listing AuditLogEntry) (p : QueryAuditLogsParams) (rows : Table AuditLogEntry.id)
      (matching : List AuditLogEntry), ad.role = "admin" → selectTests none (p.tests db) rows.rows = .ok matching →
      matching.length < 2 ^ 63 →
      (Paginates AuditLogEntry.createdAt matching id (pageSizeOf p.pageSize) (auditLogsPage db p ad rows) ↔
        PagesApart AuditLogEntry.createdAt matching (pageSizeOf p.pageSize))) ∧
    ∀ (db : Listing DeliveryRow) (p : ListDeliveriesParams) (rows : Table DeliveryRow.rowID)
      (matching : List DeliveryRow), selectTests none (ofUser ad.userID) rows.rows = .ok matching →
      matching.length < 2 ^ 63 →
      (Paginates DeliveryRow.createdAt matching DeliveryRow.summary (pageSizeOf p.pageSize)
          (deliveriesPage db p ad rows) ↔
        PagesApart DeliveryRow.createdAt matching (pageSizeOf p.pageSize)) :=
  ⟨fun db p s hreadable hbound => listCallbacks_paginates db ad p s hreadable hbound,
    fun db userID p _ _ hallowed hmatching hbound => listTransactions_paginates db userID p hallowed hmatching hbound,
    fun db p _ _ hadmin hmatching hbound => queryAuditLogs_paginates db p hadmin hmatching hbound,
    fun db p _ _ hmatching hbound => listDeliveries_paginates db p ad hmatching hbound⟩

section Samples

-- The database reads no times here.
def listing (ρ : Type) : Listing ρ where
  timestamptz := fun _ => .error "ERROR: invalid input syntax for type timestamp with time zone (SQLSTATE 22007)"
  newestFirst := id
  invalidText := "ERROR: invalid byte sequence for encoding \"UTF8\": 0x00 (SQLSTATE 22021)"
  negativeOffset := "ERROR: OFFSET must not be negative (SQLSTATE 2201X)"

def callRow (callID : String) (createdAt : Time) : CallRow where
  call := .new callID 1 "13800000001" "13800000002" none none "gw-a" "gw-b" 60 120 450
  customData := []
  createdAt := createdAt
  updatedAt := createdAt
  recordingKey := none
  recordingAKey := none
  recordingBKey := none

def twoCalls : CallStore where
  rows := ⟨[callRow "call-1" 0, callRow "call-2" 1], by decide⟩
  active := fun _ => none
  owned := by simp

def transaction (id : Int64) (createdAt : Time) : TransactionEntry :=
  ⟨id, 1, "pre_deduct", 450, 9550, some "call-1", none, createdAt⟩

def transactions (first second : Time) : Table TransactionEntry.id :=
  ⟨[transaction 1 first, transaction 2 second], by simp [transaction]⟩

def login (id : Int64) (createdAt : Time) : AuditLogEntry :=
  ⟨id, 1, "admin", "login", "user", "1", none, none, "10.0.0.1", createdAt⟩

def twoLogins : Table AuditLogEntry.id := ⟨[login 1 0, login 2 1], by decide⟩

def delivery (id : Int64) (createdAt : Time) : DeliveryRow where
  id := id
  callID := "call-1"
  userID := 1
  eventType := "callback.finished"
  status := .pending
  webhookURL := "https://example.com/hook"
  payload := "{}"
  attemptCount := 0
  nextRetryAt := none
  lastError := none
  deliveredAt := none
  dlqAt := none
  dlqRetryCount := 0
  createdAt := createdAt

def twoDeliveries : Table DeliveryRow.rowID := ⟨[delivery 1 0, delivery 2 1], by decide⟩

-- Two rows of different times in each table, on pages of one row.
theorem lists_paginate_two :
    Paginates CallRow.created twoCalls.rows.rows CallRow.summary 1
      (callbacksPage (listing CallRow) ⟨1, "client"⟩ ⟨"", "", "", "", 0, "", "", 1, 1⟩ twoCalls) ∧
    Paginates TransactionEntry.createdAt (transactions 0 1).rows id 1
      (transactionsPage (listing TransactionEntry) 1 ⟨1, 1, "", "", ""⟩ ⟨1, "client"⟩ (transactions 0 1)) ∧
    Paginates AuditLogEntry.createdAt twoLogins.rows id 1
      (auditLogsPage (listing AuditLogEntry) ⟨0, "login", "", "", "", 1, 1⟩ ⟨1, "admin"⟩ twoLogins) ∧
    Paginates DeliveryRow.createdAt twoDeliveries.rows DeliveryRow.summary 1
      (deliveriesPage (listing DeliveryRow) ⟨1, 1⟩ ⟨1, "client"⟩ twoDeliveries) := by
  refine ⟨?_, ?_, ?_, ?_⟩
  · exact ((lists_paginate ⟨1, "client"⟩).1 (listing CallRow) ⟨"", "", "", "", 0, "", "", 1, 1⟩ twoCalls
      (by simp [ListCallbacksParams.conditions, Callback.Condition.Readable]) (by decide +kernel)).mpr
        ⟨by decide +kernel, fun _ => unwrapped_one⟩
  · exact ((lists_paginate ⟨1, "client"⟩).2.1 (listing TransactionEntry) 1 ⟨1, 1, "", "", ""⟩
      (transactions 0 1)
      (transactions 0 1).rows (.inr rfl) rfl (by decide)).mpr ⟨by decide +kernel, fun _ => unwrapped_one⟩
  · exact ((lists_paginate ⟨1, "admin"⟩).2.2.1 (listing AuditLogEntry) ⟨0, "login", "", "", "", 1, 1⟩ twoLogins
      twoLogins.rows rfl rfl (by decide)).mpr ⟨by decide +kernel, fun _ => unwrapped_one⟩
  · exact ((lists_paginate ⟨1, "client"⟩).2.2.2 (listing DeliveryRow) ⟨1, 1⟩ twoDeliveries
      twoDeliveries.rows rfl (by decide)).mpr ⟨by decide +kernel, fun _ => unwrapped_one⟩

-- Two transactions of one time, on pages of one row: one of them may stand on both pages.
theorem transactions_repeated :
    ¬ Paginates TransactionEntry.createdAt (transactions 0 0).rows id 1
      (transactionsPage (listing TransactionEntry) 1 ⟨1, 1, "", "", ""⟩ ⟨1, "client"⟩ (transactions 0 0)) := by
  intro hpaginates
  have hapart := (@listTransactions_paginates (listing TransactionEntry) 1 ⟨1, 1, "", "", ""⟩ ⟨1, "client"⟩
    (.inr rfl)
    (transactions 0 0) (transactions 0 0).rows rfl (by decide)).mp hpaginates
  exact absurd hapart.undivided (by decide +kernel)

end Samples

end Bos3000.Service
