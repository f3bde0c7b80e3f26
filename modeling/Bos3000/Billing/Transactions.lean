import Bos3000.Listing
import Bos3000.Lib.Table

-- ListTransactions: the rows of one account, a page at a time.
namespace Bos3000.Billing

-- A row of transactions, whole.
structure TransactionEntry where
  id : Int64
  userID : UserID
  type : String
  amount : Money
  balanceAfter : Money
  referenceID : Option String
  description : Option String
  createdAt : Time
  deriving DecidableEq, Repr

structure ListTransactionsParams where
  page : Int64
  pageSize : Int64
  type : String
  dateFrom : String
  dateTo : String
  deriving DecidableEq, Repr

structure ListTransactionsResponse where
  transactions : List TransactionEntry
  page : Int64
  pageSize : Int64
  total : Nat
  deriving DecidableEq, Repr

-- Build dynamic query with filters
def ListTransactionsParams.tests (p : ListTransactionsParams) (db : Listing TransactionEntry) (userID : UserID) :
    List (Except String (TransactionEntry → Bool)) :=
  [.ok fun t => decide (t.userID = userID)] ++
  (if p.type ≠ "" then [(db.readText p.type).map fun type t => decide (t.type = type)] else []) ++
  (if p.dateFrom ≠ "" then [(db.timestamptz p.dateFrom).map fun time t => decide (time ≤ t.createdAt)] else []) ++
  (if p.dateTo ≠ "" then [(db.timestamptz p.dateTo).map fun time t => decide (t.createdAt ≤ time)] else [])

def listTransactions (db : Listing TransactionEntry) (auth : Option AuthData) (userID : UserID)
    (p : ListTransactionsParams) (countFault : Option String) (pageFault : Option PageFault)
    (rows : Table TransactionEntry.id) : Except APIError ListTransactionsResponse :=
  match auth with
  | none => .error ⟨.Unauthenticated, "not authenticated"⟩
  | some data =>
      if data.role ≠ "admin" ∧ data.userID ≠ userID then .error ⟨.PermissionDenied, "access denied"⟩
      else
        let offset := (pageOf p.page - 1) * pageSizeOf p.pageSize
        -- Count total
        match selectTests countFault (p.tests db userID) rows.rows with
        | .error e => .error ⟨.Unknown, "count transactions: " ++ e⟩
        | .ok counted =>
            -- Fetch page
            match db.readPage pageFault (pageSizeOf p.pageSize) offset
                (selectTests none (p.tests db userID) rows.rows) with
            | .error e => .error ⟨.Unknown, "query transactions: " ++ e⟩
            | .ok found => .ok ⟨found, pageOf p.page, pageSizeOf p.pageSize, counted.length⟩

section Pages

variable (db : Listing TransactionEntry) (userID : UserID) (p : ListTransactionsParams)

-- A page of the list, in the order that its query chooses.
def transactionsPage (data : AuthData) (rows : Table TransactionEntry.id)
    (order : List TransactionEntry → List TransactionEntry) (page : Int64) : List TransactionEntry :=
  itemsOf ListTransactionsResponse.transactions
    (listTransactions { db with newestFirst := order } (some data) userID { p with page } none none rows)

theorem listTransactions_paginates {data : AuthData} (hallowed : data.role = "admin" ∨ data.userID = userID)
    {rows : Table TransactionEntry.id} {matching : List TransactionEntry}
    (hmatching : selectTests none (p.tests db userID) rows.rows = .ok matching) (hbound : matching.length < 2 ^ 63) :
    Paginates TransactionEntry.createdAt matching id (pageSizeOf p.pageSize)
        (transactionsPage db userID p data rows) ↔
      PagesApart TransactionEntry.createdAt matching (pageSizeOf p.pageSize) := by
  refine paginates_iff (nodup_items rows.distinct hmatching fun _ => rfl) hbound fun order page => ?_
  have hdenied : ¬ (data.role ≠ "admin" ∧ data.userID ≠ userID) := by
    rintro ⟨hrole, hother⟩
    exact hallowed.elim hrole hother
  have htests : ({ p with page } : ListTransactionsParams).tests { db with newestFirst := order } userID =
      p.tests db userID := rfl
  simp only [transactionsPage, listTransactions, if_neg hdenied, htests, hmatching, readPage_none, itemsOf, List.map_id]

end Pages

end Bos3000.Billing
