import Bos3000.Listing
import Bos3000.Webhook.Operations

-- ListDeliveries: a user's webhook deliveries, a page at a time.
namespace Bos3000.Webhook

-- A row of webhook_deliveries with the column that no statement writes again.
structure DeliveryRow extends Delivery where
  createdAt : Time
  deriving DecidableEq

def DeliveryRow.rowID (row : DeliveryRow) : Int64 := row.id

structure DeliverySummary where
  id : Int64
  callID : String
  eventType : String
  status : Status
  attemptCount : Int
  lastError : Option String
  deliveredAt : Option Time
  createdAt : Time
  deriving DecidableEq, Repr

def DeliveryRow.summary (row : DeliveryRow) : DeliverySummary :=
  ⟨row.id, row.callID, row.eventType, row.status, row.attemptCount, row.lastError, row.deliveredAt, row.createdAt⟩

structure ListDeliveriesParams where
  page : Int64
  pageSize : Int64
  deriving DecidableEq, Repr

structure ListDeliveriesResponse where
  deliveries : List DeliverySummary
  total : Nat
  deriving DecidableEq, Repr

-- WHERE user_id = $1
def ofUser (userID : UserID) : List (Except String (DeliveryRow → Bool)) :=
  [.ok fun row => decide (row.userID = userID)]

def listDeliveries (db : Listing DeliveryRow) (auth : Option AuthData) (p : ListDeliveriesParams)
    (countFault : Option String) (pageFault : Option PageFault) (rows : Table DeliveryRow.rowID) :
    Except APIError ListDeliveriesResponse :=
  match auth with
  | none => .error ⟨.Unauthenticated, "not authenticated"⟩
  | some ad =>
      let offset := (pageOf p.page - 1) * pageSizeOf p.pageSize
      match selectTests countFault (ofUser ad.userID) rows.rows with
      | .error e => .error ⟨.Unknown, e⟩
      | .ok counted =>
          match db.readPage pageFault (pageSizeOf p.pageSize) offset
              (selectTests none (ofUser ad.userID) rows.rows) with
          | .error e => .error ⟨.Unknown, e⟩
          | .ok found => .ok ⟨found.map DeliveryRow.summary, counted.length⟩

section Pages

variable (db : Listing DeliveryRow) (p : ListDeliveriesParams) (ad : AuthData)

def deliveriesPage (rows : Table DeliveryRow.rowID) (order : List DeliveryRow → List DeliveryRow) (page : Int64) :
    List DeliverySummary :=
  itemsOf ListDeliveriesResponse.deliveries
    (listDeliveries { db with newestFirst := order } (some ad) { p with page } none none rows)

theorem listDeliveries_paginates {rows : Table DeliveryRow.rowID} {matching : List DeliveryRow}
    (hmatching : selectTests none (ofUser ad.userID) rows.rows = .ok matching) (hbound : matching.length < 2 ^ 63) :
    Paginates DeliveryRow.createdAt matching DeliveryRow.summary (pageSizeOf p.pageSize)
        (deliveriesPage db p ad rows) ↔
      PagesApart DeliveryRow.createdAt matching (pageSizeOf p.pageSize) := by
  have hshown : ∀ row : DeliveryRow, row.summary.id = row.rowID := fun _ => rfl
  refine paginates_iff (nodup_items rows.distinct hmatching hshown) hbound fun order page => ?_
  simp only [deliveriesPage, listDeliveries, hmatching, readPage_none, itemsOf]

end Pages

end Bos3000.Webhook
