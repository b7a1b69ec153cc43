import FactoryServer.InsertionMaps
import FactoryServer.ProjectionOutbox

/-!
# Deferred projection requests

One pending request for a tournament in each of two tables. A drain reads the oldest
requests up to a limit, leaves out those that have failed too often, and serves the
others one by one. The limit counts the rows that are left out as well.
-/

namespace FactoryServer.DeferredRequests

open InsertionMaps ProjectionOutbox

/-- A row of a request table. -/
structure RequestRow where
  /-- Primary key. -/
  tournamentId : String
  /-- `requested_at`. -/
  requestedAt : ℕ
  source : Option String
  attempts : ℕ
  lastError : Option String
  deriving DecidableEq, Repr

/-- The two request tables. -/
abbrev RequestTables := RequestTable → List RequestRow

/-- A table with its primary key. -/
def Keyed (rows : List RequestRow) : Prop := (rows.map RequestRow.tournamentId).Nodup

instance (rows : List RequestRow) : Decidable (Keyed rows) :=
  inferInstanceAs (Decidable (List.Nodup _))

/-! ## The storage -/

/-- `request`: one row, inserted or asked for again. -/
def requestOne (source : String) (now : ℕ) (rows : List RequestRow) (id : String) :
    List RequestRow :=
  if id ∈ rows.map RequestRow.tournamentId then
    rows.map fun row => if row.tournamentId = id then ⟨id, now, some source, 0, none⟩ else row
  else rows ++ [⟨id, now, some source, 0, none⟩]

/-- The arguments of `request` and the time of its transaction. -/
structure Arrival where
  tournamentIds : List String
  source : String
  now : ℕ

/-- `request(table, tournamentIds, source)`. -/
def request (rows : List RequestRow) (arrival : Arrival) : List RequestRow :=
  ((setOf arrival.tournamentIds).filter fun id => id ≠ "").foldl
    (requestOne arrival.source arrival.now) rows

/-- An order in which `ORDER BY requested_at ASC` lists the rows of a table: rows of the
same time come as the database likes. -/
structure Listing where
  list : List RequestRow → List RequestRow
  /-- Every row is listed once. -/
  perm : ∀ rows, (list rows).Perm rows
  /-- The oldest row comes first. -/
  oldest : ∀ rows, (list rows).Pairwise fun a b => a.requestedAt ≤ b.requestedAt

/-- `pending(table, limit)`. -/
def pending (listing : Listing) (limit : ℕ) (rows : List RequestRow) : List RequestRow :=
  (listing.list rows).take limit

/-- The row of `DELETE … WHERE tournament_id = $1 AND requested_at = $2`. -/
def SameRequest (a b : RequestRow) : Prop :=
  a.tournamentId = b.tournamentId ∧ a.requestedAt = b.requestedAt

instance (a b : RequestRow) : Decidable (SameRequest a b) := inferInstanceAs (Decidable (_ ∧ _))

/-- The request that was served is deleted, unless it was asked for again meanwhile. -/
def complete (rows : List RequestRow) (served : RequestRow) : List RequestRow :=
  rows.filter fun row => ¬ SameRequest row served

/-- `recordFailure(table, tournamentId, error)`. -/
def recordFailure (rows : List RequestRow) (id error : String) : List RequestRow :=
  rows.map fun row =>
    if row.tournamentId = id then
      { row with
        attempts := row.attempts + 1
        lastError := some (String.ofList (error.toList.take 2000)) }
    else row

/-! ## The drain -/

/-- How the build and the fence of a request end. -/
inductive ServeOutcome where
  /-- The span is committed. -/
  | enqueued
  /-- A save landed between the read and the fence. -/
  | changed
  /-- The tournament is gone. -/
  | missing
  /-- The build or the transaction throws. -/
  | failed (error : String)
  deriving DecidableEq, Repr

/-- `DrainResult`. -/
structure DrainResult where
  examined : ℕ
  enqueued : ℕ
  changed : ℕ
  missing : ℕ
  failed : ℕ
  deriving DecidableEq, Repr

/-- What a drain meets. -/
structure Surroundings where
  /-- How the database lists rows of the same time. -/
  listing : Listing
  /-- What saves request before the drain. -/
  before : List Arrival
  /-- What saves request while a request is served. -/
  meanwhile : RequestRow → List Arrival
  /-- How each request ends. -/
  outcome : RequestRow → ServeOutcome

/-- A request may still be tried. -/
def Fresh (maxAttempts : ℕ) (row : RequestRow) : Prop := row.attempts < maxAttempts

instance (maxAttempts : ℕ) (row : RequestRow) : Decidable (Fresh maxAttempts row) :=
  inferInstanceAs (Decidable (_ < _))

/-- The requests a drain examines. -/
def examinedRequests (around : Surroundings) (limit maxAttempts : ℕ) (rows : List RequestRow) :
    List RequestRow :=
  (pending around.listing limit rows).filter fun row => Fresh maxAttempts row

/-- One turn of the drain's loop. -/
def serveNext (around : Surroundings) (progress : DrainResult × List RequestRow)
    (row : RequestRow) : DrainResult × List RequestRow :=
  let result := { progress.1 with examined := progress.1.examined + 1 }
  let rows := (around.meanwhile row).foldl request progress.2
  match around.outcome row with
  | .enqueued => ({ result with enqueued := result.enqueued + 1 }, complete rows row)
  | .changed => ({ result with changed := result.changed + 1 }, rows)
  | .missing => ({ result with missing := result.missing + 1 }, complete rows row)
  | .failed error =>
    ({ result with failed := result.failed + 1 }, recordFailure rows row.tournamentId error)

/-- A drain of one table, after the requests that came before it. -/
def drainRows (limit maxAttempts : ℕ) (rows : List RequestRow) (around : Surroundings) :
    DrainResult × List RequestRow :=
  let found := around.before.foldl request rows
  (examinedRequests around limit maxAttempts found).foldl (serveNext around)
    (⟨0, 0, 0, 0, 0⟩, found)

/-- A drain of one of the tables. -/
def drain (table : RequestTable) (limit maxAttempts : ℕ) (tables : RequestTables)
    (around : Surroundings) : DrainResult × RequestTables :=
  let drained := drainRows limit maxAttempts (tables table) around
  (drained.1, Function.update tables table drained.2)

/-- `drainSnapshotRequests(outbox, { limit, maxAttempts })`. -/
def drainSnapshotRequests : ℕ → ℕ → RequestTables → Surroundings → DrainResult × RequestTables :=
  drain .snapshot

/-- `drainParticipantDocumentRequests(outbox, { limit, maxAttempts })`. -/
def drainParticipantDocumentRequests :
    ℕ → ℕ → RequestTables → Surroundings → DrainResult × RequestTables :=
  drain .documents

/-- The tables after several drains. -/
def drains (table : RequestTable) (limit maxAttempts : ℕ) (tables : RequestTables)
    (arounds : List Surroundings) : RequestTables :=
  arounds.foldl (fun tables around => (drain table limit maxAttempts tables around).2) tables

/-! ## What is claimed -/

/-- Every build succeeds, and the span is committed where the tournament is still there. -/
def Succeeds (around : Surroundings) : Prop :=
  ∀ row, around.outcome row = .enqueued ∨ around.outcome row = .missing

/-- No save asks for a request again, and what is requested comes after it. -/
def LeavesAlone (row : RequestRow) (around : Surroundings) : Prop :=
  (∀ arrival ∈ around.before,
      row.tournamentId ∉ arrival.tournamentIds ∧ row.requestedAt < arrival.now) ∧
    ∀ other, ∀ arrival ∈ around.meanwhile other,
      row.tournamentId ∉ arrival.tournamentIds ∧ row.requestedAt < arrival.now

/-- A drain examines as many fresh requests as the limit lets it. -/
def ExaminesEnough (table : RequestTable) (limit maxAttempts : ℕ) (tables : RequestTables) :
    Prop :=
  ∀ around : Surroundings, around.before = [] →
    (drain table limit maxAttempts tables around).1.examined =
      min limit ((tables table).countP fun row => Fresh maxAttempts row)

/-- After some number of drains in which the builds succeed the request is served. -/
def EventuallyServed (table : RequestTable) (limit maxAttempts : ℕ) (tables : RequestTables)
    (row : RequestRow) : Prop :=
  ∃ n, ∀ arounds : List Surroundings, arounds.length = n →
    (∀ around ∈ arounds, Succeeds around ∧ LeavesAlone row around) →
    row ∉ drains table limit maxAttempts tables arounds table

/-- No request is starved. -/
structure Unstarved (table : RequestTable) (limit maxAttempts : ℕ) (tables : RequestTables) :
    Prop where
  examines : ExaminesEnough table limit maxAttempts tables
  serves : ∀ row ∈ tables table, Fresh maxAttempts row →
    EventuallyServed table limit maxAttempts tables row

/-- The exhausted requests that are not newer than a request. -/
def exhaustedAhead (maxAttempts : ℕ) (rows : List RequestRow) (row : RequestRow) : ℕ :=
  rows.countP fun other => ¬ Fresh maxAttempts other ∧ other.requestedAt ≤ row.requestedAt

/-- No exhausted request takes a place that a fresh one needs: where one is among the
oldest rows up to the limit, no fresh one is beyond them, and before each fresh request
there are fewer exhausted ones than the limit. -/
structure Unobstructed (limit maxAttempts : ℕ) (rows : List RequestRow) : Prop where
  places : ∀ listing : Listing,
    (∀ row ∈ (listing.list rows).take limit, Fresh maxAttempts row) ∨
      ∀ row ∈ (listing.list rows).drop limit, ¬ Fresh maxAttempts row
  ahead : ∀ row ∈ rows, Fresh maxAttempts row → exhaustedAhead maxAttempts rows row < limit

end FactoryServer.DeferredRequests
