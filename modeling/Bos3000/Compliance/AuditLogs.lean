import Bos3000.Lib.Table
import Bos3000.Listing

-- QueryAuditLogs: the audit log, filtered, a page at a time.
namespace Bos3000.Compliance

-- A row of audit_logs.
structure AuditLogEntry where
  id : Int64
  operatorID : UserID
  operatorName : String
  action : String
  resourceType : String
  resourceID : String
  beforeValue : Option String
  afterValue : Option String
  ipAddress : String
  createdAt : Time
  deriving DecidableEq, Repr

structure QueryAuditLogsParams where
  operatorID : UserID
  action : String
  resourceType : String
  dateFrom : String
  dateTo : String
  page : Int64
  pageSize : Int64
  deriving DecidableEq, Repr

structure QueryAuditLogsResponse where
  logs : List AuditLogEntry
  total : Nat
  page : Int64
  pageSize : Int64
  totalPages : Int64
  deriving DecidableEq, Repr

def QueryAuditLogsParams.tests (p : QueryAuditLogsParams) (db : Listing AuditLogEntry) :
    List (Except String (AuditLogEntry → Bool)) :=
  (if p.operatorID ≠ 0 then [.ok fun e => decide (e.operatorID = p.operatorID)] else []) ++
  (if p.action ≠ "" then [(db.readText p.action).map fun action e => decide (e.action = action)] else []) ++
  (if p.resourceType ≠ "" then
    [(db.readText p.resourceType).map fun resourceType e => decide (e.resourceType = resourceType)] else []) ++
  (if p.dateFrom ≠ "" then [(db.timestamptz p.dateFrom).map fun time e => decide (time ≤ e.createdAt)] else []) ++
  (if p.dateTo ≠ "" then [(db.timestamptz p.dateTo).map fun time e => decide (e.createdAt ≤ time)] else [])

def queryAuditLogs (db : Listing AuditLogEntry) (auth : Option AuthData) (p : QueryAuditLogsParams)
    (countFault : Option String) (pageFault : Option PageFault) (rows : Table AuditLogEntry.id) :
    Except APIError QueryAuditLogsResponse :=
  if auth.all fun data => data.role ≠ "admin" then .error ⟨.PermissionDenied, "admin access required"⟩
  else
    -- Count total
    match selectTests countFault (p.tests db) rows.rows with
    | .error _ => .error ⟨.Internal, "failed to count audit logs"⟩
    | .ok counted =>
        -- Fetch page
        let offset := (pageOf p.page - 1) * pageSizeOf p.pageSize
        match db.readPage pageFault (pageSizeOf p.pageSize) offset (selectTests none (p.tests db) rows.rows) with
        | .error _ => .error ⟨.Internal, "failed to query audit logs"⟩
        | .ok found =>
            let total := counted.length
            let totalPages :=
              if 0 < total then (Int64.ofNat total + pageSizeOf p.pageSize - 1) / pageSizeOf p.pageSize else 0
            .ok ⟨found, total, pageOf p.page, pageSizeOf p.pageSize, totalPages⟩

section Pages

variable (db : Listing AuditLogEntry) (p : QueryAuditLogsParams)

def auditLogsPage (data : AuthData) (rows : Table AuditLogEntry.id) (order : List AuditLogEntry → List AuditLogEntry)
    (page : Int64) : List AuditLogEntry :=
  itemsOf QueryAuditLogsResponse.logs
    (queryAuditLogs { db with newestFirst := order } (some data) { p with page } none none rows)

theorem queryAuditLogs_paginates {data : AuthData} (hadmin : data.role = "admin") {rows : Table AuditLogEntry.id}
    {matching : List AuditLogEntry} (hmatching : selectTests none (p.tests db) rows.rows = .ok matching)
    (hbound : matching.length < 2 ^ 63) :
    Paginates AuditLogEntry.createdAt matching id (pageSizeOf p.pageSize) (auditLogsPage db p data rows) ↔
      PagesApart AuditLogEntry.createdAt matching (pageSizeOf p.pageSize) := by
  refine paginates_iff (nodup_items rows.distinct hmatching fun _ => rfl) hbound fun order page => ?_
  have hallowed : ¬ (some data).all (fun data => decide (data.role ≠ "admin")) = true := by simp [hadmin]
  have htests : ({ p with page } : QueryAuditLogsParams).tests { db with newestFirst := order } = p.tests db := rfl
  simp only [auditLogsPage, queryAuditLogs, if_neg hallowed, htests, hmatching, readPage_none, itemsOf, List.map_id]

end Pages

end Bos3000.Compliance
