import FactoryServer.GuardedRuns
import FactoryServer.RowSessions

/-!
# The projection outbox and its producers

Saves, removals, drains of the two request tables and rebuilds of one tournament,
as sessions of one database. Every statement is a step of its own, so that the steps
of different calls interleave in any order. A durable save is one transaction; the
statements of any other save commit one by one.
-/

namespace FactoryServer.ProjectionOutbox

open RowSessions

/-- `REQUEST_TABLES`. -/
inductive RequestTable where
  /-- `projection_snapshot_requests`. -/
  | snapshot
  /-- `projection_document_requests`. -/
  | documents
  deriving DecidableEq

/-- Who builds deltas from the stored record. -/
inductive Producer where
  /-- `drainSnapshotRequests` and `drainParticipantDocumentRequests`. -/
  | drain (table : RequestTable)
  /-- `rebuildTournament`. -/
  | rebuild

/-- The columns of a request beside `requested_at`. -/
structure RequestNote where
  /-- `source`. -/
  source : String
  /-- `attempts`. -/
  attempts : ℕ

/-- What the producers build from a record. -/
structure Builders (D I : Type) where
  /-- The deltas of a record, its source and the span's id; none when the build throws. -/
  build : Producer → String → String → D → Option (List I)
  /-- The delete-delta of `deleteSingleTournament`. -/
  removal : I

/-- `MAX_FENCE_ATTEMPTS`. -/
def MAX_FENCE_ATTEMPTS : ℕ := 3

/-- A row of a request table. -/
abbrev Request : Type := Mark RequestNote

/-- `projection_queue`. -/
abbrev QueueRow (D I : Type) : Type := LogRow Producer D I

/-- The database. -/
abbrev Tables (D I : Type) : Type := Database RequestTable Producer D I RequestNote

/-- What a save still has to tell the outbox. -/
inductive OutboxTask (I : Type) where
  /-- `outbox.enqueue(deltas)`. -/
  | enqueue (deltas : List I)
  /-- `outbox.requestSnapshots` and `outbox.requestParticipantDocuments`. -/
  | request (table : RequestTable) (source : String)

/-- What `executionQueue` tells the outbox after the save. -/
def executionQueue {I : Type} (deltas : List I) (stale : Bool) : List (OutboxTask I) :=
  .enqueue deltas :: if stale then [.request .documents "mutation"] else []

/-- What `enqueueSnapshots` tells the outbox after a wholesale save. -/
def enqueueSnapshots {I : Type} (deferred : Bool) (deltas : List I) (source : String) :
    List (OutboxTask I) :=
  .request .documents source ::
    if deferred then [.request .snapshot source] else [.enqueue deltas]

/-- The work of a producer. -/
inductive Job where
  /-- Serve a request. -/
  | drain (table : RequestTable) (request : Request)
  /-- One of the attempts of a rebuild. -/
  | rebuild (attempt : ℕ)

/-- Who does it. -/
def Job.producer : Job → Producer
  | .drain table _ => .drain table
  | .rebuild _ => .rebuild

/-- `request.source`. -/
def Job.source : Job → String
  | .drain _ request => request.note.source
  | .rebuild _ => "rebuild"

/-- Where a call stands. -/
inductive Stage (D I : Type) where
  /-- Not begun, or over. -/
  | ready
  /-- Before the save of a record. -/
  | saving (durable : Bool) (record : D) (tasks : List (OutboxTask I))
  /-- After it. -/
  | saved (durable : Bool) (version : Version D) (tasks : List (OutboxTask I))
  /-- In `insertChunks` of a save; the savepoint is the log before it. -/
  | enqueuing (durable : Bool) (version : Version D) (savepoint : List (QueueRow D I))
    (todo : List I) (tasks : List (OutboxTask I))
  /-- Before the deletion of the tournament. -/
  | removing
  /-- After it. -/
  | removed
  /-- Before `readForProjection`. -/
  | reading (job : Job)
  /-- Building from the record that was read. -/
  | building (job : Job) (version : Version D)
  /-- Before `fencedInsert`; without a record, `updatedAt` is empty. -/
  | fencing (job : Job) (source : Option (Version D)) (deltas : List I)
  /-- In `insertChunks`, under the share lock. -/
  | inserting (job : Job) (version : Version D) (todo : List I)
  /-- In `complete`, before the request is deleted; `fence` is the row that the fence found. -/
  | dropping (table : RequestTable) (request : Request) (fence : Option (Version D))
  /-- In `complete`, before the commit. -/
  | closing (table : RequestTable) (fence : Option (Version D)) (dropped : Option Request)
  /-- Before `recordFailure`. -/
  | failing (table : RequestTable)

/-- History: a request that the commit of `complete` takes away. -/
structure Deletion (D : Type) where
  /-- The table. -/
  table : RequestTable
  /-- The request. -/
  request : Request
  /-- The row that the fence found. -/
  fence : Option (Version D)
  /-- The row at the commit. -/
  row : Option (Version D)

/-- The system. -/
structure State (D I : Type) where
  /-- The database. -/
  db : Tables D I
  /-- The calls, each on a session of its own. -/
  stages : ℕ → Stage D I
  /-- History: the requests that `complete` has deleted. -/
  deletions : List (Deletion D)

/-- Empty tables and no call. -/
def State.start {D I : Type} : State D I := ⟨Database.initial, fun _ => .ready, []⟩

/-- A call. -/
inductive Call (D I : Type) where
  /-- A mutation. -/
  | mutate (durable : Bool) (record : D) (deltas : List I) (stale : Bool)
  /-- A wholesale save. -/
  | replace (durable : Bool) (record : D) (deferred : Bool) (deltas : List I) (source : String)
  /-- `deleteSingleTournament`. -/
  | remove
  /-- A drain of a request table. -/
  | drain (table : RequestTable) (maxAttempts : ℕ)
  /-- `rebuildTournament`. -/
  | rebuild

section Steps

variable {D I : Type}

/-- A call has done a statement. -/
def State.goto (s : State D I) (p : ℕ) (db : Tables D I) (stage : Stage D I) : State D I :=
  { s with db := db, stages := Function.update s.stages p stage }

/-- Where a call begins. A drain serves the pending request, unless its attempts are used up. -/
def Call.begins (db : Tables D I) : Call D I → Stage D I
  | .mutate durable record deltas stale => .saving durable record (executionQueue deltas stale)
  | .replace durable record deferred deltas source =>
    .saving durable record (enqueueSnapshots deferred deltas source)
  | .remove => .removing
  | .drain table maxAttempts =>
    match db.marks table with
    | none => .ready
    | some request =>
      if request.note.attempts < maxAttempts then .reading (.drain table request) else .ready
  | .rebuild => .reading (.rebuild 1)

/-- After a statement that threw: a drain records the failure. -/
def Job.failed : Job → Stage D I
  | .drain table _ => .failing table
  | .rebuild _ => .ready

/-- After `'changed'`: a drain leaves the request, a rebuild tries again. -/
def Job.changed : Job → Stage D I
  | .drain _ _ => .ready
  | .rebuild attempt => if attempt < MAX_FENCE_ATTEMPTS then .reading (.rebuild (attempt + 1))
    else .ready

/-- After `'missing'`: a drain deletes the request. -/
def Job.missing : Job → Stage D I
  | .drain table request => .dropping table request none
  | .rebuild _ => .ready

/-- The next statement of a call, unless it waits for a lock; `now` is `NOW()` and
`id` a new `randomUUID()`. -/
def State.next (x : Builders D I) (s : State D I) (p now : ℕ) (id : String) :
    Option (State D I) :=
  match s.stages p with
  | .ready => none
  | .saving durable record tasks =>
    (s.db.write p record now).map fun db => s.goto p (if durable then db else db.commit p)
      (.saved durable ⟨s.db.versions.length, now, record⟩ tasks)
  | .saved durable version (.enqueue deltas :: tasks) =>
    some (s.goto p s.db (.enqueuing durable version (s.db.sessions p).log deltas tasks))
  | .saved durable version (.request table source :: tasks) =>
    (s.db.setMark p table ⟨if durable then version.stamp else now, ⟨source, 0⟩,
      version.number⟩).map fun db =>
        s.goto p (if durable then db else db.commit p) (.saved durable version tasks)
  | .saved _ _ [] => some (s.goto p (s.db.commit p) .ready)
  | .enqueuing durable version savepoint (delta :: todo) tasks =>
    some (s.goto p (s.db.append p delta (.write version.number))
      (.enqueuing durable version savepoint todo tasks))
  | .enqueuing durable version _ [] tasks =>
    some (s.goto p (if durable then s.db else s.db.commit p) (.saved durable version tasks))
  | .removing => s.db.remove.map fun db => s.goto p db .removed
  | .removed => some (s.goto p ((s.db.append p x.removal .other).commit p) .ready)
  | .reading job =>
    match s.db.row with
    | some version => some (s.goto p s.db (.building job version))
    | none =>
      match job with
      | .drain table request => some (s.goto p s.db (.fencing (.drain table request) none []))
      | .rebuild _ => some (s.goto p s.db .ready)
  | .building job version =>
    match x.build job.producer job.source id version.data with
    | some deltas => some (s.goto p s.db (.fencing job (some version) deltas))
    | none => some (s.goto p s.db job.failed)
  | .fencing job source deltas =>
    match s.db.share p with
    | none => none
    | some (none, db) => some (s.goto p db job.missing)
    | some (some version, db) =>
      if source.map Version.stamp = some version.stamp then
        some (s.goto p db (.inserting job version deltas))
      else some (s.goto p (db.commit p) job.changed)
  | .inserting job version (delta :: todo) =>
    some (s.goto p (s.db.append p delta (.build job.producer version)) (.inserting job version todo))
  | .inserting (.drain table request) version [] =>
    some (s.goto p s.db (.dropping table request (some version)))
  | .inserting (.rebuild _) _ [] => some (s.goto p (s.db.commit p) .ready)
  | .dropping table request fence =>
    match s.db.deleteMark p table request.stamp with
    | none => none
    | some (dropped, db) => some (s.goto p db (.closing table fence dropped))
  | .closing table fence dropped =>
    let deleted := if dropped.isSome then (s.db.marks table).toList else []
    some { s.goto p (s.db.commit p) .ready with
      deletions := s.deletions ++ deleted.map fun request => ⟨table, request, fence, s.db.row⟩ }
  | .failing table =>
    (s.db.updateNote table fun note => { note with attempts := note.attempts + 1 }).map fun db =>
      s.goto p db .ready

/-- The next statement of a call throws. What a save tells the outbox may fail; the
failure is logged and the save goes on. -/
def State.throws (s : State D I) (p : ℕ) : State D I :=
  match s.stages p with
  | .saved durable version (_ :: tasks) => s.goto p s.db (.saved durable version tasks)
  | .enqueuing durable version savepoint _ tasks =>
    s.goto p (if durable then s.db.restore p savepoint else s.db.rollback p)
      (.saved durable version tasks)
  | .reading job | .building job _ | .fencing job _ _ | .inserting job _ _ =>
    s.goto p (s.db.rollback p) job.failed
  | .dropping table _ _ | .closing table _ _ => s.goto p (s.db.rollback p) (.failing table)
  | _ => s.goto p (s.db.rollback p) .ready

/-- What happens next. -/
inductive OutboxAction (D I : Type) where
  /-- A call begins. -/
  | begin (p : ℕ) (call : Call D I)
  /-- A call goes on. -/
  | next (p now : ℕ) (id : String)
  /-- A statement of a call throws. -/
  | throws (p : ℕ)
  /-- The process of a call dies, and with it the connection. -/
  | crash (p : ℕ)
  /-- A delta of another tournament is inserted. -/
  | other

/-- One step; a call that waits or is over stays as it is. -/
def step (x : Builders D I) (s : State D I) : OutboxAction D I → State D I
  | .begin p call =>
    match s.stages p with
    | .ready => s.goto p s.db (call.begins s.db)
    | _ => s
  | .next p now id => (s.next x p now id).getD s
  | .throws p => s.throws p
  | .crash p => s.goto p (s.db.rollback p) .ready
  | .other => { s with db := s.db.skip }

end Steps

end FactoryServer.ProjectionOutbox
