import XiraNet.Lib.Table
import XiraNet.Registry.Models

/-!
# Service storage

The `services` and `request_logs` tables of `registry/storage.rs`, with the foreign key from
the second to the first. JSON, UUID and timestamp columns hold the value they encode.
-/

namespace XiraNet

/-- The columns of `services`. -/
structure ServiceRow where
  id : Uuid
  name : String
  pathPrefix : String
  upstream : String
  healthEndpoint : String
  upstreams : List String
  loadBalance : Option String
  version : Option String
  validationSchema : Option String
  ipWhitelist : List String
  ipBlacklist : List String
  transform : Option TransformConfig
  registeredAt : DateTime
  requestCount : ℕ
  deriving DecidableEq, Repr

/-- The columns of `request_logs`. -/
structure RequestLogRow where
  serviceId : Option Uuid
  method : String
  path : String
  status : ℕ
  durationMs : ℕ
  peerIp : String
  timestamp : DateTime
  deriving DecidableEq, Repr

/-- The row that `save_service` writes. -/
def ServiceEntry.toRow (entry : ServiceEntry) : ServiceRow where
  id := entry.id
  name := entry.name
  pathPrefix := entry.pathPrefix
  upstream := entry.upstream
  healthEndpoint := entry.healthEndpoint
  upstreams := entry.upstreams
  loadBalance := entry.loadBalance
  version := entry.version
  validationSchema := entry.validationSchema
  ipWhitelist := entry.ipWhitelist
  ipBlacklist := entry.ipBlacklist
  transform := entry.transform
  registeredAt := entry.registeredAt
  requestCount := entry.requestCount

/-- The entry that `load_all_services` reads: health is unknown after a start. -/
def ServiceRow.toEntry (row : ServiceRow) : ServiceEntry where
  id := row.id
  name := row.name
  pathPrefix := row.pathPrefix
  upstream := row.upstream
  healthEndpoint := row.healthEndpoint
  status := .unknown
  registeredAt := row.registeredAt
  lastHealthCheck := none
  requestCount := row.requestCount
  upstreams := row.upstreams
  loadBalance := row.loadBalance
  version := row.version
  validationSchema := row.validationSchema
  ipWhitelist := row.ipWhitelist
  ipBlacklist := row.ipBlacklist
  transform := row.transform

/-- Two rows that may not coexist: the primary key and `prefix` are unique. -/
def ServiceRow.conflict (r r' : ServiceRow) : Bool :=
  r.id = r'.id || r.pathPrefix = r'.pathPrefix

/-- The database. -/
structure SqliteStorage where
  services : Table ServiceRow
  requestLogs : Table RequestLogRow
  deriving DecidableEq, Repr

namespace SqliteStorage

/-- The database right after its tables have been created. -/
def empty : SqliteStorage := ⟨[], []⟩

/-- Whether a request log row references the service `id`. -/
def referenced (db : SqliteStorage) (id : Uuid) : Bool :=
  db.requestLogs.any fun log => log.serviceId = some id

/-- `save_service`; `none` is an error, which leaves the database as it is. -/
def saveService (db : SqliteStorage) (entry : ServiceEntry) : Option SqliteStorage :=
  (db.services.insertOrReplaceRestrict (fun r => db.referenced r.id) ServiceRow.conflict
    entry.toRow).map fun services => { db with services }

/-- `load_all_services`. -/
def loadAllServices (db : SqliteStorage) : List ServiceEntry := db.services.map ServiceRow.toEntry

/-- `remove_service`; `none` is an error, which leaves the database as it is. -/
def removeService (db : SqliteStorage) (id : Uuid) : Option SqliteStorage :=
  (db.services.deleteRestrict (fun r => db.referenced r.id) fun r => r.id = id).map
    fun services => { db with services }

/-- `update_request_count`. -/
def updateRequestCount (db : SqliteStorage) (id : Uuid) (count : ℕ) : Option SqliteStorage :=
  some { db with
    services := db.services.map fun row =>
      if row.id = id then { row with requestCount := count } else row }

/-- `log_request`; a row for a service that is not in the table violates the foreign key. -/
def logRequest (db : SqliteStorage) (log : RequestLogRow) : Option SqliteStorage :=
  if ∀ id ∈ log.serviceId, ∃ r ∈ db.services, r.id = id then
    some { db with requestLogs := db.requestLogs ++ [log] }
  else none

/-- The unique constraints of `services`. -/
structure Unique (db : SqliteStorage) : Prop where
  ids : (db.services.map (·.id)).Nodup
  prefixes : (db.services.map (·.pathPrefix)).Nodup

/-- Removing a service nothing references goes through. -/
theorem removeService_of_unreferenced {db : SqliteStorage} {id : Uuid}
    (h : db.referenced id = false) :
    db.removeService id = some { db with services := db.services.delete fun r => r.id = id } := by
  unfold removeService
  rw [Table.deleteRestrict_of_unreferenced]
  · rfl
  · intro r _ hid
    rwa [of_decide_eq_true hid]

/-- Saving a service whose id and prefix are new goes through and replaces nothing. -/
theorem saveService_of_new {db : SqliteStorage} {entry : ServiceEntry}
    (h : ∀ r ∈ db.services, r.id ≠ entry.id ∧ r.pathPrefix ≠ entry.pathPrefix) :
    db.saveService entry = some { db with services := db.services ++ [entry.toRow] } := by
  have hconflict : ∀ r ∈ db.services, entry.toRow.conflict r = false := by
    intro r hr
    obtain ⟨hid, hpath⟩ := h r hr
    simp [ServiceRow.conflict, ServiceEntry.toRow, hid.symm, hpath.symm]
  unfold saveService
  rw [Table.insertOrReplaceRestrict_of_unreferenced fun r hr hc => by
    simp [hconflict r hr] at hc]
  -- No row is in the way, so the statement only adds one.
  have hdelete : db.services.delete entry.toRow.conflict = db.services :=
    List.filter_eq_self.mpr fun r hr => by simp [hconflict r hr]
  simp [Table.insertOrReplace, hdelete]

end SqliteStorage

end XiraNet
