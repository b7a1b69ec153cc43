import FactoryServer.StorageTables
import FactoryServer.CommandReceipts

/-!
# The tournament storage

The facade that saves tournament records and the storage classes it calls. A
save writes the calendar row, replaces the participation rows and then
upserts the record behind the owner-epoch fence; several records are saved one
after the other. Every statement goes through the connection of the durable
command when there is one: `borrowed` says whether there is.
-/

namespace FactoryServer.TournamentStorage

open JsonValue AsyncProgram TournamentAccess CommandTransaction StorageTables

/-- An asynchronous function over the storage. -/
abbrev Store (α : Type) : Type := Server Statement Effect Statement.Answer α

/-- Code outside the repository that the storage calls, and the driver. -/
structure External where
  /-- Parameters of SQL statements. -/
  pg : PgBinding
  /-- `queryGovernor.getTournamentCalendarEntry`. -/
  getTournamentCalendarEntry : TournamentRecord → Except Thrown (Option Json)
  /-- `publishState?.tournament?.status?.published === true`; a query that throws
  publishes nothing. -/
  isPublished : TournamentRecord → Bool
  /-- `participantGovernor.getParticipation`, as rows. -/
  getParticipation : TournamentRecord → Except Thrown (List ParticipationRow)
  /-- SHA-256 of the rows in canonical order. -/
  fingerprintRows : List ParticipationRow → String
  /-- `JSON.stringify(record).length`. -/
  serializedLength : TournamentRecord → Nat
  /-- `toISOString()` of a timestamp. -/
  toIso : Nat → String

/-- `client.query` of a data statement. -/
def queryOn (client : Connection) (statement : Statement) : Store statement.Answer :=
  query client (.data statement)

/-- `(commandClient(this.pool) ?? this.pool).query` of a data statement. -/
def queryClient (borrowed : Bool) (statement : Statement) : Store statement.Answer :=
  commandClient borrowed statement

variable (x : External) (borrowed : Bool)

/-! ## Transactions of a storage class -/

/-- `inSavepoint(client, name, work)` on the command's connection. -/
def inSavepoint (name : String) (work : Store Unit) : Store Unit :=
  (query .command (.savepoint name)).bind fun _ =>
  (work.bind fun _ => query .command (.releaseSavepoint name)).tryCatch fun error =>
    (query .command (.rollbackTo name)).bind fun _ => .fail error

/-- `inTransaction(work)` on a connection of its own. -/
def inTransaction (work : Store Unit) : Store Unit :=
  (perform (.connect .own)).bind fun _ =>
  Prog.tryFinally
    (((query .own .begin).bind fun _ => work.bind fun _ => query .own .commit).tryCatch fun error =>
      ((query .own .rollback).tryCatch fun _ => .ret ()).bind fun _ => .fail error)
    (perform (.release .own))

/-! ## `PostgresTournamentStorage` -/

/-- A save that answers an error. -/
inductive SaveFailure where
  /-- `{ error }` before the upsert. -/
  | refused (error : String)
  /-- `{ error: FENCED_BY_NEWER_OWNER, fenced: true, tournamentId }`. -/
  | fenced (tournamentId : Json)

/-- What a save comes to, when it does not throw: the bytes and `serverUpdatedAt`
of a success. -/
abbrev SaveResult : Type := Except SaveFailure (Nat × String)

/-- The record's `tournamentId`, when it is truthy. -/
def recordKey (record : TournamentRecord) : Option Json :=
  if truthy record.tournamentId then record.tournamentId else none

/-- The primary key a record is written under. -/
def rowId (record : TournamentRecord) : Option String := (recordKey record).map x.pg.text

/-- `saveTournamentRecord`: the fenced upsert. -/
def PostgresTournamentStorage.saveTournamentRecord (record : TournamentRecord) (ownerEpoch : Nat) :
    Store SaveResult :=
  match recordKey record with
  | none => .ret (.error (.refused "Invalid tournamentRecord"))
  | some key =>
    (queryClient borrowed (.upsertTournament (x.pg.text key) record ownerEpoch)).bind fun row =>
    match row with
    | none => .ret (.error (.fenced key))
    | some updatedAt => .ret (.ok (x.serializedLength record, x.toIso updatedAt))

/-- A parameter that is no array of texts. -/
def malformedArray : Thrown := .error "malformed array literal"

/-- `fetchTournamentRecords`: `none` is `MISSING_TOURNAMENT_RECORD`. -/
def fetchTournamentRecords (tournamentIds tournamentId : Option Json) :
    Store (Option (List (String × TournamentRow))) :=
  let ids := if truthy (tournamentIds.bind Json.length?) then tournamentIds.getD .null
    else .arr (tournamentId.toList.filter fun id => truthy (some id))
  if !truthy ids.length? then .ret none else
  match x.pg.textArray ids with
  | none => .fail malformedArray
  | some ids =>
    (queryClient borrowed (.selectTournaments ids)).bind fun rows : List (String × TournamentRow) =>
      .ret (if rows.isEmpty then none else some rows)

/-- `removeTournamentRecords`: the number of rows removed. -/
def removeTournamentRecords (tournamentIds tournamentId : Option Json) : Store Nat :=
  let ids := if nullish tournamentIds then .arr (tournamentId.toList.filter fun id => truthy (some id))
    else tournamentIds.getD .null
  match x.pg.textArray ids with
  | none => .fail malformedArray
  | some ids => queryClient borrowed (.deleteTournaments ids)

/-- `fetchTournamentUpdatedAt`: `none` is `MISSING_TOURNAMENT_RECORD`. -/
def fetchTournamentUpdatedAt (tournamentId : Option Json) : Store (Option UpdatedAtView) :=
  match tournamentId with
  | none => .ret none
  | some id =>
    if truthy (some id) then queryClient borrowed (.selectUpdatedAt (x.pg.text id)) else .ret none

/-- `fetchMatchUpDraws`. -/
def fetchMatchUpDraws (tournamentId : Option Json) (matchUpIds : List Json) :
    Store (List (String × String × Option String)) :=
  match tournamentId with
  | none => .ret []
  | some id =>
    if !truthy (some id) || matchUpIds.isEmpty then .ret [] else
    match x.pg.textArray (.arr matchUpIds) with
    | none => .fail malformedArray
    | some ids => queryClient borrowed (.selectMatchUpDraws (x.pg.text id) ids)

/-! ## `PostgresParticipationStorage` -/

/-- One row per primary key, the last one winning in the place of the first. -/
def uniqueByKey (rows : List ParticipationRow) : List ParticipationRow :=
  rows.foldl (fun unique row =>
    if unique.any (fun u => u.rowKey == row.rowKey) then
      unique.map fun u => if u.rowKey == row.rowKey then row else u
    else unique ++ [row]) []

/-- The statements that replace the rows, between opening and closing. -/
def writeRows (client : Connection) (tournamentId : String) (unique : List ParticipationRow)
    (close : Store Unit) : Store Unit :=
  (queryOn client (.claimFingerprint tournamentId (x.fingerprintRows unique))).bind
    fun claimed : Bool =>
  if !claimed then close else
  (queryOn client (.deleteParticipation tournamentId)).bind fun _ =>
  (if unique.isEmpty then .ret ()
    else queryOn client (.insertParticipation tournamentId unique)).bind fun _ => close

/-- `replaceTournamentRows`: in a savepoint of the command, or in a
transaction of its own. -/
def replaceTournamentRows (tournamentId : String) (rows : List ParticipationRow) : Store Unit :=
  let unique := uniqueByKey rows
  if borrowed then
    ((query .command (.savepoint "participation_write")).bind fun _ =>
      writeRows x .command tournamentId unique
        (query .command (.releaseSavepoint "participation_write"))).tryCatch fun error =>
    ((query .command (.rollbackTo "participation_write")).tryCatch fun _ => .ret ()).bind
      fun _ => .fail error
  else
    (perform (.connect .own)).bind fun _ =>
    Prog.tryFinally
      (((query .own .begin).bind fun _ =>
        writeRows x .own tournamentId unique (query .own .commit)).tryCatch fun error =>
      ((query .own .rollback).tryCatch fun _ => .ret ()).bind fun _ => .fail error)
      (perform (.release .own))

/-! ## `PostgresProjectionOutboxStorage` -/

/-- Rows of one `INSERT`. -/
def MAX_DELTAS_PER_STATEMENT : Nat := 5000

/-- The slices of a span. -/
def chunks (deltas : List Json) : List (List Json) :=
  (List.range ((deltas.length + MAX_DELTAS_PER_STATEMENT - 1) / MAX_DELTAS_PER_STATEMENT)).map
    fun i => (deltas.drop (i * MAX_DELTAS_PER_STATEMENT)).take MAX_DELTAS_PER_STATEMENT

/-- `insertChunks`. -/
def insertChunks (client : Connection) (deltas : List Json) : Store Unit :=
  Prog.forEach (chunks deltas) fun chunk => queryOn client (.insertDeltas chunk)

/-- `enqueue`. -/
def enqueue (deltas : List Json) : Store Unit :=
  if deltas.isEmpty then .ret ()
  else if borrowed then inSavepoint "projection_enqueue" (insertChunks .command deltas)
  else inTransaction (insertChunks .own deltas)

/-- `request`: one pending request per tournament. -/
def request (table : RequestTable) (tournamentIds : List Json) (source : String) : Store Unit :=
  let ids := tournamentIds.filter fun id => truthy (some id)
  if ids.isEmpty then .ret () else
  let insert (client : Connection) : Store Unit :=
    match x.pg.textArray (.arr ids) with
    | none => .fail malformedArray
    | some ids => queryOn client (.requestRows table ids.dedup source)
  if borrowed then inSavepoint (table.name ++ "_request") (insert .command) else insert .pool

/-! ## `TournamentStorageService` -/

/-- `isTestTournamentId`: only a string has `startsWith`. -/
def isTestTournamentId : Json → Except Thrown Bool
  | .str key => .ok (key == "test" || startsWith key "test-")
  | _ => .error (.error "key.startsWith is not a function")

/-- Extension that keeps a tournament out of its provider's calendar. -/
def CALENDAR_LISTED : String := "calendarListed"

/-- Only the value `false` opts out. -/
def isCalendarListed (record : TournamentRecord) : Bool :=
  match record.extensions.find? fun e => e.name == CALENDAR_LISTED with
  | some ⟨_, .bool false⟩ => false
  | _ => true

/-- `stampCreatedBy`, when the saving user is known. -/
def stampCreatedBy (userId : Option String) (record : TournamentRecord) : TournamentRecord :=
  match nonEmpty userId with
  | none => record
  | some userId =>
    if (record.extensions.find? fun e => e.name == CREATED_BY_USER_ID).isSome then record
    else { record with extensions := record.extensions ++ [⟨CREATED_BY_USER_ID, .str userId⟩] }

/-- `getCalendarEntry`: the factory's entry with the creator and the publish flag. -/
def getCalendarEntry (record : TournamentRecord) : Except Thrown Json :=
  (x.getTournamentCalendarEntry record).map fun entry =>
    spread entry (((getCreatedByUserId record).map (("createdByUserId", ·))).toList ++
      [("published", .bool (x.isPublished record))])

/-- `addToOrUpdateCalendar`. -/
def addToOrUpdateCalendar (providerId : String) (record : TournamentRecord) : Store Unit :=
  (queryClient borrowed (.selectProvider providerId)).bind fun provider =>
  match provider with
  | none => .ret ()
  | some provider =>
    match getCalendarEntry x record with
    | .error e => .fail e
    | .ok entry =>
      match entry.field? "tournamentId" with
      | none => .ret ()
      | some id =>
        if truthy (some id) then
          queryClient borrowed (.upsertCalendar
            ⟨x.pg.text id, providerId, provider.organisationAbbreviation, entry⟩)
        else .ret ()

/-- `updateParticipationIndex`: a failure is logged and ignored. -/
def updateParticipationIndex (record : TournamentRecord) : Store Unit :=
  Prog.tryCatch
    (match x.getParticipation record with
    | .error e => .fail e
    | .ok rows => replaceTournamentRows x borrowed ((rowId x record).getD "") rows)
    fun _ => .ret ()

/-- `providerId || isTestTournamentId(key)`. -/
def hasProviderOrTestId (key : Json) (record : TournamentRecord) : Except Thrown Bool :=
  match getTournamentProviderId record with
  | some _ => .ok true
  | none => isTestTournamentId key

/-- The writes of `saveTournamentRecord`, for a record that passed its checks. -/
def writeRecord (ownerEpoch : Nat) (userId : Option String) (record : TournamentRecord) :
    Store SaveResult :=
  let record := stampCreatedBy userId record
  let calendar : Store Unit :=
    match getTournamentProviderId record with
    | some providerId =>
      if isCalendarListed record then addToOrUpdateCalendar x borrowed providerId record
      else .ret ()
    | none => .ret ()
  calendar.bind fun _ =>
  (updateParticipationIndex x borrowed record).bind fun _ =>
  PostgresTournamentStorage.saveTournamentRecord x borrowed record ownerEpoch

/-- `saveTournamentRecord` of the facade. -/
def saveTournamentRecord (ownerEpoch : Nat) (userId : Option String) (record : TournamentRecord) :
    Store SaveResult :=
  match recordKey record with
  | none => .ret (.error (.refused "Invalid tournamentRecord"))
  | some key =>
    match hasProviderOrTestId key record with
    | .error e => .fail e
    | .ok false => .ret (.error (.refused "Missing providerId"))
    | .ok true => writeRecord x borrowed ownerEpoch userId record

/-- A map of records, in the order of `Object.keys`. -/
abbrev RecordMap : Type := List (String × TournamentRecord)

/-- What the loop over the records comes to: the first failure, or bytes and
times of writing by key. -/
abbrev SaveResults : Type :=
  Except SaveFailure (List (String × Nat) × List (String × String))

/-- The loop of `saveTournamentRecords`, with what it has collected so far. -/
def saveLoop (ownerEpoch : Nat) (userId : Option String) :
    RecordMap → List (String × Nat) → List (String × String) → Store SaveResults
  | [], bytes, updated => .ret (.ok (bytes, updated))
  | (tournamentId, record) :: rest, bytes, updated =>
    (saveTournamentRecord x borrowed ownerEpoch userId record).bind fun result =>
    match result with
    | .error failure => .ret (.error failure)
    | .ok (size, serverUpdatedAt) =>
      saveLoop ownerEpoch userId rest (bytes ++ [(tournamentId, size)])
        (updated ++ [(tournamentId, serverUpdatedAt)])

/-- `saveTournamentRecords`. -/
def saveTournamentRecords (ownerEpoch : Nat) (userId : Option String) (records : RecordMap) :
    Store SaveResults :=
  saveLoop x borrowed ownerEpoch userId records [] []

end FactoryServer.TournamentStorage
