import FactoryServer.DurableSave
import FactoryServer.GuardedRuns
import FactoryServer.MutationGate

/-!
# Saves and mutations side by side

Any number of wholesale saves and queue mutations on one database. Every await of
a call is a step of its own, so that other calls run in between: the gate reads
before the locks are taken, the check of a conditional save and the writes run
under them. Writes of a durable call become visible when it commits. A call holds
all its locks or none, since it touches no data while it still waits for one.
-/

namespace FactoryServer.ConcurrentWrites

open JsonValue TournamentAccess CommandTransaction CommandReceipts StorageTables TournamentStorage
  ExecutionQueue MutationGate CallbackOutcomes DurableSave

/-- What the two services use besides the tables. -/
structure Host where
  /-- The driver. -/
  external : External
  /-- Services of the process. -/
  services : Services
  /-- The competition engine. -/
  engine : Engine
  /-- `ENABLE_TOURNAMENT_ACCESS_SCOPING`. -/
  scoping : Bool
  /-- What a `jsonb` column gives back for a stored value. -/
  storedJson : Json → Json
  /-- `validateL2(record).valid`. -/
  validateL2 : TournamentRecord → Bool
  /-- `gateDrawIntegrity` does not throw. -/
  drawIntegrity : TournamentRecord → Bool
  /-- `queryGovernor.getPolicyDefinitions` finds a participant policy. -/
  hasParticipantPolicy : TournamentRecord → Bool
  /-- `computeEffectiveConfig(caps, settings)?.participantPrivacyPolicy`, unless it is empty. -/
  participantPrivacyPolicy : Option Provider → Option Json
  /-- `policyGovernor.attachPolicies` of a participant policy. -/
  attachPolicies : Json → TournamentRecord → TournamentRecord
  /-- A policy leaves the id alone. -/
  attachPolicies_tournamentId : ∀ policy record,
    (attachPolicies policy record).tournamentId = record.tournamentId
  /-- A policy leaves the creator alone. -/
  attachPolicies_creator : ∀ policy record,
    getCreatedByUserId (attachPolicies policy record) = getCreatedByUserId record

/-! ## Requests -/

/-- A wholesale save as the service receives it. -/
structure SaveRequest where
  /-- The payload. -/
  params : Json
  /-- `request.user`. -/
  user : Option RequestUser
  /-- The hydrated context. -/
  userContext : Option UserContext
  /-- `getTournamentRecords(params)`. -/
  records : RecordMap
  /-- The keys of an object are distinct. -/
  keys_nodup : (records.map Prod.fst).Nodup

/-- `userContext?.userId ?? user?.userId`. -/
def SaveRequest.userId (request : SaveRequest) : Option String :=
  (request.userContext.map UserContext.userId).orElse fun _ => request.user.bind RequestUser.userId

/-- The record is sent under its own id. -/
def Named (entry : String × TournamentRecord) : Prop :=
  entry.2.tournamentId = some (.str entry.1)

/-- A mutation that `executionQueue` has admitted. -/
structure QueueRequest where
  /-- The payload. -/
  payload : Json
  /-- The resolved ids. -/
  tournamentIds : Json
  /-- The methods of the payload. -/
  methods : List Json

/-- A key of the lock map. Strings and other primitives are compared by value,
arrays and objects by identity; a durable command locks its own key as well. -/
inductive LockKey (ι : Type) where
  | tournament (id : String)
  | primitive (text : String)
  | object (call : ι) (position : ℕ)
  | command (actor commandId : String)
  deriving DecidableEq

/-- The key a call locks for an id of its list. -/
def lockKey {ι : Type} (c : ι) (position : ℕ) : Json → LockKey ι
  | .str id => .tournament id
  | .arr _ => .object c position
  | .obj _ => .object c position
  | value => .primitive value.propertyKey

/-- What a call does under its locks. -/
inductive Work where
  /-- A save that has passed its gate, with the roles the gate read and the records it stamped. -/
  | save (request : SaveRequest) (assignedRoles : List (String × String)) (records : RecordMap)
  /-- A mutation. -/
  | queue (request : QueueRequest)

/-- The payload that carries the identity of a durable command. -/
def Work.payload : Work → Json
  | .save request _ _ => request.params
  | .queue request => request.payload

/-- The locks of `withTournamentLock`. -/
def Work.lockKeys {ι : Type} (c : ι) : Work → List (LockKey ι)
  | .save _ _ records => records.map fun r => .tournament r.1
  | .queue request => (request.tournamentIds.iterate?.getD []).mapIdx (lockKey c)

/-- The user whose id is stamped on first saves. -/
def Work.userId : Work → Option String
  | .save request _ _ => request.userId
  | .queue _ => none

/-- The payload carries a command id. -/
def Work.isDurable (work : Work) : Bool := (work.payload.field? "commandId").isSome

/-! ## The state -/

/-- One upsert of a `tournaments` row. -/
structure Write (ι : Type) where
  /-- The call. -/
  call : ι
  /-- The key of its record map. -/
  key : String
  /-- The primary key of the row. -/
  id : String
  /-- The row written. -/
  row : TournamentRow

/-- What the call answers once its records are saved. -/
inductive Reply where
  | saved
  | mutated (result : Json) (methods : List Json) (previous : List (String × String))

/-- Where a call is: which await it has reached, and what it has collected. -/
inductive Stage (ι : Type) where
  | idle
  /-- `gateWholesaleSave`: the records stamped so far, and those to come. -/
  | gating (request : SaveRequest) (ctx : UserContext) (assignedRoles : List (String × String))
      (gated todo : RecordMap)
  /-- The loop over `attachProviderPrivacyOnCreate`. -/
  | attaching (request : SaveRequest) (assignedRoles : List (String × String))
      (attached todo : RecordMap)
  /-- Waiting for the locks. -/
  | locking (work : Work)
  /-- The transaction of a durable command looks for its receipt. -/
  | receipt (work : Work) (identity : CommandIdentity)
  /-- `unexpectedServerUpdatedAt`: the keys still to be compared. -/
  | checking (request : SaveRequest) (assignedRoles : List (String × String))
      (records : RecordMap) (todo : List String)
  /-- `resolveMatchUpReferencesFromIndex`. -/
  | resolving (request : QueueRequest)
  /-- `fetchTournamentRecords`. -/
  | fetching (request : QueueRequest) (methods : List Json)
  /-- The loop over the records to save. -/
  | writing (work : Work) (reply : Reply) (written : List (Write ι)) (todo : RecordMap)
  /-- What the locked work returned or threw. -/
  | ended (outcome : Except Thrown (Option Json))

/-- The database, the locks of the process and the calls. -/
structure State (ι : Type) where
  /-- The committed tables. -/
  tables : Tables
  /-- `tournament_assignments`: the roles of a user by tournament. -/
  assignedRoles : String → List (String × String)
  /-- Who holds a lock. -/
  holder : LockKey ι → Option ι
  /-- The calls. -/
  calls : ι → Stage ι
  /-- History: the upserts that were committed, in order. -/
  log : List (Write ι)
  /-- History: the durable commands that were committed, with their answers. -/
  accepted : List (CommandIdentity × Json)

section Calls

variable {ι : Type} [DecidableEq ι] (h : Host)

/-- A call goes on. -/
def State.setCall (s : State ι) (c : ι) (stage : Stage ι) : State ι :=
  { s with calls := Function.update s.calls c stage }

/-- The call gives its locks back. -/
def State.release (s : State ι) (c : ι) : State ι :=
  { s with holder := fun key => if s.holder key = some c then none else s.holder key }

/-- An exception leaves the locked work: a transaction is rolled back. -/
def State.abort (s : State ι) (c : ι) (error : Thrown) : State ι :=
  (s.release c).setCall c (.ended (.error error))

/-- The rows after some upserts. -/
def putRows (rows : String → Option TournamentRow) (writes : List (Write ι)) :
    String → Option TournamentRow :=
  writes.foldl (fun rows w => Function.update rows w.id (some w.row)) rows

/-- Upserts become visible. -/
def State.commit (s : State ι) (writes : List (Write ι)) : State ι :=
  { s with
    tables := { s.tables with tournaments := putRows s.tables.tournaments writes }
    log := s.log ++ writes }

/-- The row a call sees: its own transaction's, else the committed one. -/
def rowSeen (t : Tables) (work : Work) (written : List (Write ι)) (id : String) :
    Option TournamentRow :=
  if work.isDurable then putRows t.tournaments written id else t.tournaments id

/-- A durable command commits its writes with a receipt, and returns. -/
def State.commitCommand (s : State ι) (c : ι) (identity : CommandIdentity)
    (written : List (Write ι)) (result : Option Json) : State ι :=
  let answer := withReceipt result identity.commandId
  let receipts := Function.update (s.tables.commandReceipts identity.actor)
    identity.commandId (some ⟨identity.fingerprint, h.storedJson answer⟩)
  let s := (s.commit written).release c
  { s with
    tables := { s.tables with
      commandReceipts := Function.update s.tables.commandReceipts identity.actor receipts }
    accepted := s.accepted ++ [(identity, answer)] }
    |>.setCall c (.ended (.ok (some answer)))

/-- The locked work returns: a durable command commits a success and rolls anything
else back. -/
def State.conclude (s : State ι) (c : ι) (work : Work) (written : List (Write ι))
    (result : Option Json) : State ι :=
  if work.isDurable then
    match identityOf work.payload with
    | none => s.abort c invalidIdentity
    | some identity =>
      if succeeded result then s.commitCommand h c identity written result
      else if truthy (chain result "retryable") then s.abort c notCommitted
      else (s.release c).setCall c (.ended (.ok result))
  else (s.release c).setCall c (.ended (.ok result))

/-! ## Before the locks -/

/-- `fetchTournamentUpdatedAt` on a key of the payload. -/
def viewOf (t : Tables) (tid : String) : Option UpdatedAtView :=
  if tid = "" then none else (exec (.selectUpdatedAt tid) t).2

/-- The body of `gateWholesaleSave`: the record with the creator the server decides,
or nothing when the caller may not modify what is stored. -/
def gateRecord (ctx : UserContext) (assignedRoles : List (String × String)) (tid : String)
    (record : TournamentRecord) : Option UpdatedAtView → Option TournamentRecord
  | none => some (setCreatedByUserId record (some (.str ctx.userId)))
  | some view =>
    let stored := { viewRecord view with tournamentId := some (.str tid) }
    if canMutateTournament h.scoping stored (some ctx) assignedRoles [] then
      some (setCreatedByUserId record (getCreatedByUserId stored))
    else none

/-- `attachProviderPrivacyOnCreate` on the tables it reads. -/
def attachProviderPrivacyOnCreate (t : Tables) (record : TournamentRecord) : TournamentRecord :=
  match getTournamentProviderId record, recordKey record with
  | some providerId, some id =>
    if h.hasParticipantPolicy record then record else
    match (exec (.selectUpdatedAt (h.external.pg.text id)) t).2 with
    | some _ => record
    | none =>
      match h.participantPrivacyPolicy (exec (.selectProvider providerId) t).2 with
      | none => record
      | some policy => h.attachPolicies policy record
  | _, _ => record

/-- The exception of a record that fails a validation. -/
def invalidRecord : Thrown := .http 400 "Tournament record failed validation"

/-- A save arrives: the checks of the service, and the roles its gate asks for first. -/
def arriveSave (s : State ι) (request : SaveRequest) : Stage ι :=
  if !checkUser request.user request.userContext then
    .ended (.ok (some (errorAnswer "Invalid user"))) else
  if !checkProvider (request.records.map Prod.snd) request.user request.userContext true then
    .ended (.ok (some (errorAnswer "User not allowed"))) else
  match request.userContext with
  | none => .attaching request [] [] request.records
  | some ctx => .gating request ctx (s.assignedRoles ctx.userId) [] request.records

/-- A mutation arrives. -/
def arriveQueue (payload : Json) : Stage ι :=
  match admission h.external h.services h.engine payload, methodList (payload.field? "methods") with
  | .locked tournamentIds _, some methods => .locking (.queue ⟨payload, tournamentIds, methods⟩)
  | .answered answer, _ => .ended (.ok (some answer))
  | .thrown error, _ => .ended (.error error)
  | _, _ => .ended (.error typeError)

/-! ## Under the locks -/

/-- The first stage of the work, once there is no receipt to answer from. -/
def opened : Work → Stage ι
  | .save request assignedRoles records =>
    match expectedFields (request.params.field? "expectedServerUpdatedAt") with
    | none => .checking request assignedRoles records []
    | some _ => .checking request assignedRoles records (records.map Prod.fst)
  | .queue request => .resolving request

/-- The call takes these locks. -/
def State.take (s : State ι) (c : ι) (keys : List (LockKey ι)) : State ι :=
  { s with holder := fun key => if key ∈ keys then some c else s.holder key }

/-- Locks are there to be taken; a repeated id waits for itself. -/
def Available (s : State ι) (keys : List (LockKey ι)) : Prop :=
  keys.Nodup ∧ ∀ key ∈ keys, s.holder key = none

instance (s : State ι) (keys : List (LockKey ι)) : Decidable (Available s keys) :=
  inferInstanceAs (Decidable (_ ∧ _))

/-- What the callback of `withTournamentLock` begins with. -/
def begin (s : State ι) (c : ι) (work : Work) : State ι :=
  if !work.isDurable then s.setCall c (opened work)
  else if !h.services.commandReceipts then
    s.abort c (.error "Durable command storage unavailable")
  else
    match identityOf work.payload with
    | none => s.abort c invalidIdentity
    | some identity => s.setCall c (.receipt work identity)

/-- All locks are granted at once. -/
def acquire (s : State ι) (c : ι) (work : Work) : State ι :=
  if Available s (work.lockKeys c) then begin h (s.take c (work.lockKeys c)) c work else s

/-- The advisory lock and the receipt of a durable command. -/
def readReceipt (s : State ι) (c : ι) (work : Work) (identity : CommandIdentity) : State ι :=
  let key : LockKey ι := .command identity.actor identity.commandId
  if s.holder key = none then
    match s.tables.commandReceipts identity.actor identity.commandId with
    | none => (s.take c [key]).setCall c (opened work)
    | some receipt =>
      if receipt.fingerprint ≠ identity.fingerprint then s.abort c differentIntent
      else (s.release c).setCall c (.ended (.ok (some (deduplicated receipt.result))))
  else s

/-- One key of `unexpectedServerUpdatedAt`. -/
def checkKey (s : State ι) (c : ι) (request : SaveRequest) (assignedRoles : List (String × String))
    (records : RecordMap) : List String → State ι
  | [] => s.setCall c (.writing (.save request assignedRoles records) .saved [] records)
  | tid :: todo =>
    let fields := expectedFields (request.params.field? "expectedServerUpdatedAt")
    match (fields.getD []).lookup tid with
    | none => s.setCall c (.checking request assignedRoles records todo)
    | some expected =>
      let current := (viewOf s.tables tid).map fun view => h.external.toIso view.serverUpdatedAt
      if sameTime current expected then s.setCall c (.checking request assignedRoles records todo)
      else s.conclude h c (.save request assignedRoles records) []
        (some (conflictAnswer tid expected ((current.map .str).getD .null)))

/-- The engine on fetched rows. -/
def runEngine (s : State ι) (c : ι) (request : QueueRequest) (rows : List (String × TournamentRow))
    (methods : List Json) : State ι :=
  match (h.engine.executionQueue (loadedRecords rows) methods
    (request.payload.field? "rollbackOnError")).outcome with
  | .error error => s.abort c error
  | .ok outcome =>
    let previous := rows.map fun (id, row) => (id, h.external.toIso row.updatedAt)
    if truthy (outcome.result.field? "success") then
      s.setCall c
        (.writing (.queue request) (.mutated outcome.result methods previous) [] outcome.records)
    else s.conclude h c (.queue request) []
      (some (mutationAnswer request.payload outcome.result methods none previous))

/-- The rows of a fetch, checked and handed to the engine. -/
def loadAndRun (s : State ι) (c : ι) (request : QueueRequest) (methods : List Json)
    (rows : List (String × TournamentRow)) : State ι :=
  if rows.isEmpty then s.conclude h c (.queue request) [] (some missingTournamentRecord) else
  match resolveMatchUpReferences h.engine (loadedRecords rows) methods with
  | .error error => s.abort c error
  | .ok methods =>
    if recordsAreValid rows then runEngine h s c request rows methods
    else s.conclude h c (.queue request) [] (some invalidRecords)

/-- `fetchTournamentRecords` and what follows it. -/
def fetchAndRun (s : State ι) (c : ι) (request : QueueRequest) (methods : List Json) : State ι :=
  match h.external.pg.textArray request.tournamentIds with
  | none => s.abort c malformedArray
  | some texts => loadAndRun h s c request methods (exec (.selectTournaments texts) s.tables).2

/-- The key of a record that the facade accepts; its refusal or exception otherwise. -/
def admitRecord (record : TournamentRecord) : Except Thrown (Except SaveFailure Json) :=
  match recordKey record with
  | none => .ok (.error (.refused "Invalid tournamentRecord"))
  | some key => (hasProviderOrTestId key record).map fun allowed =>
    if allowed then .ok key else .error (.refused "Missing providerId")

/-- The answer of a save that fails. -/
def failureAnswer (work : Work) (failure : SaveFailure) : Json :=
  match work with
  | .save _ _ _ => saveAnswer (.error failure)
  | .queue request => saveFailureAnswer failure request.tournamentIds

/-- The answer once every record is saved. -/
def replyAnswer (work : Work) (reply : Reply) (written : List (Write ι)) : Json :=
  let times := written.map fun w => (w.key, h.external.toIso w.row.updatedAt)
  match reply with
  | .saved => saveAnswer (.ok
      (written.map fun w => (w.key, h.external.serializedLength w.row.record), times))
  | .mutated result methods previous =>
    mutationAnswer work.payload result methods (some times) previous

/-- The write of the next record: what it upserts, unless the record is refused or
the row belongs to a newer owner. -/
def nextWrite (s : State ι) (c : ι) (work : Work) (written : List (Write ι)) (key : String)
    (record : TournamentRecord) : Except Thrown (Except SaveFailure (Write ι)) :=
  (admitRecord record).map fun admitted =>
    match admitted with
    | .error failure => .error failure
    | .ok value =>
      let id := h.external.pg.text value
      if (rowSeen s.tables work written id).all fun row => row.ownerEpoch ≤ 0 then
        .ok ⟨c, key, id, ⟨stampCreatedBy work.userId record, 0, s.tables.now⟩⟩
      else .error (.fenced value)

/-- An upsert is executed: outside a transaction it is committed at once. -/
def State.put (s : State ι) (work : Work) (w : Write ι) : State ι :=
  let s := { s with tables := { s.tables with now := s.tables.now + 1 } }
  if work.isDurable then s else s.commit [w]

/-- One record of the loop, or its end. -/
def saveNext (s : State ι) (c : ι) (work : Work) (reply : Reply) (written : List (Write ι)) :
    RecordMap → State ι
  | [] => s.conclude h c work written (some (replyAnswer h work reply written))
  | (key, record) :: todo =>
    match nextWrite h s c work written key record with
    | .error error => s.abort c error
    | .ok (.error failure) => s.conclude h c work [] (some (failureAnswer work failure))
    | .ok (.ok w) => (s.put work w).setCall c (.writing work reply (written ++ [w]) todo)

/-! ## Steps -/

/-- The pending await of a call is answered. -/
def advance (s : State ι) (c : ι) : State ι :=
  match s.calls c with
  | .idle => s
  | .gating request _ assignedRoles gated [] =>
    s.setCall c (.attaching request assignedRoles [] gated)
  | .gating request ctx assignedRoles gated ((tid, record) :: todo) =>
    match gateRecord h ctx assignedRoles tid record (viewOf s.tables tid) with
    | none => s.setCall c (.ended (.ok (some
        (errorAnswer ("User not allowed to modify tournament " ++ tid)))))
    | some record =>
      s.setCall c (.gating request ctx assignedRoles (gated ++ [(tid, record)]) todo)
  | .attaching request assignedRoles attached [] =>
    s.setCall c (if attached.all (fun r => h.validateL2 r.2) &&
        attached.all (fun r => h.drawIntegrity r.2) then
      .locking (.save request assignedRoles attached) else .ended (.error invalidRecord))
  | .attaching request assignedRoles attached ((tid, record) :: todo) =>
    s.setCall c (.attaching request assignedRoles
      (attached ++ [(tid, attachProviderPrivacyOnCreate h s.tables record)]) todo)
  | .locking work => acquire h s c work
  | .receipt work identity => readReceipt s c work identity
  | .checking request assignedRoles records todo => checkKey h s c request assignedRoles records todo
  | .resolving request =>
    match indexedMethods h.external s.tables request.tournamentIds request.methods with
    | none => s.abort c malformedArray
    | some methods => s.setCall c (.fetching request methods)
  | .fetching request methods => fetchAndRun h s c request methods
  | .writing work reply written todo => saveNext h s c work reply written todo
  | .ended _ => s

/-- The pending await is rejected before the server executes it. Only the privacy
attach goes on, with the record as it is. -/
def reject (s : State ι) (c : ι) : State ι :=
  match s.calls c with
  | .idle => s
  | .ended _ => s
  | .attaching request assignedRoles attached (entry :: todo) =>
    s.setCall c (.attaching request assignedRoles (attached ++ [entry]) todo)
  | _ => s.abort c (.error "database error")

/-- What happens next. -/
inductive WriteAction (ι : Type) where
  /-- `POST /factory/save`. -/
  | save (c : ι) (request : SaveRequest)
  /-- `executionQueue`. -/
  | queue (c : ι) (payload : Json)
  /-- The pending await of a call is answered. -/
  | advance (c : ι)
  /-- It is rejected, and was not executed. -/
  | reject (c : ι)
  /-- It is rejected after it was executed. -/
  | lose (c : ι)
  /-- Anything else that writes the database, whether it takes locks or not. -/
  | outside (tables : Tables) (assignedRoles : String → List (String × String))

/-- One step. An action of a call that is in another stage does nothing. -/
def step (s : State ι) : WriteAction ι → State ι
  | .save c request =>
    match s.calls c with
    | .idle => s.setCall c (arriveSave s request)
    | _ => s
  | .queue c payload =>
    match s.calls c with
    | .idle => s.setCall c (arriveQueue h payload)
    | _ => s
  | .advance c => advance h s c
  | .reject c => reject s c
  | .lose c =>
    match s.calls c with
    | .idle => s
    | .ended _ => s
    | .attaching _ _ _ (_ :: _) => reject s c
    | _ => (advance h s c).abort c (.error "database error")
  | .outside tables assignedRoles => { s with tables := tables, assignedRoles := assignedRoles }

/-- The call an action belongs to. -/
def WriteAction.call? : WriteAction ι → Option ι
  | .save c _ => some c
  | .queue c _ => some c
  | .advance c => some c
  | .reject c => some c
  | .lose c => some c
  | .outside _ _ => none

/-- No call, and these tables. -/
def State.start (tables : Tables) (assignedRoles : String → List (String × String)) : State ι where
  tables := tables
  assignedRoles := assignedRoles
  holder _ := none
  calls _ := .idle
  log := []
  accepted := []

/-! ## Samples -/

/-- A host whose validations accept everything. -/
def plainHost : Host where
  external := plainExternal
  services := plainServices
  engine := noEngine
  scoping := true
  storedJson := id
  validateL2 _ := true
  drawIntegrity _ := true
  hasParticipantPolicy _ := true
  participantPrivacyPolicy _ := none
  attachPolicies _ record := record
  attachPolicies_tournamentId _ _ := rfl
  attachPolicies_creator _ _ := rfl

/-- A director of the provider `p`. -/
def director (userId : String) : UserContext where
  userId := userId
  email := ""
  isSuperAdmin := false
  globalRoles := []
  providerRoles := [("p", "DIRECTOR")]
  providerIds := ["p"]
  provisionerProviderIds := []
  actingProviderId := none
  providerSelectionPending := false

/-- A director saves a tournament of the provider `p`. -/
def saveOf (userId id : String) (params : Json) : SaveRequest where
  params := params
  user := none
  userContext := some (director userId)
  records := [(id, plainRecord id (some "p"))]
  keys_nodup := by simp

/-- The database holds the tournament, and its creator is known. -/
def createdBy (userId id : String) : Tables :=
  { emptyTables with
    tournaments := Function.update (fun _ => none) id
      (some ⟨stampCreatedBy (some userId) (plainRecord id (some "p")), 0, 0⟩) }

/-! ## What a step changes -/

@[simp] theorem setCall_tables (s : State ι) (c : ι) (stage : Stage ι) :
    (s.setCall c stage).tables = s.tables := rfl

@[simp] theorem setCall_calls (s : State ι) (c : ι) (stage : Stage ι) :
    (s.setCall c stage).calls = Function.update s.calls c stage := rfl

@[simp] theorem setCall_holder (s : State ι) (c : ι) (stage : Stage ι) :
    (s.setCall c stage).holder = s.holder := rfl

@[simp] theorem setCall_log (s : State ι) (c : ι) (stage : Stage ι) :
    (s.setCall c stage).log = s.log := rfl

@[simp] theorem release_calls (s : State ι) (c : ι) : (s.release c).calls = s.calls := rfl

@[simp] theorem release_log (s : State ι) (c : ι) : (s.release c).log = s.log := rfl

@[simp] theorem abort_calls (s : State ι) (c : ι) (error : Thrown) :
    (s.abort c error).calls = Function.update s.calls c (.ended (.error error)) := rfl

@[simp] theorem abort_log (s : State ι) (c : ι) (error : Thrown) :
    (s.abort c error).log = s.log := rfl

variable {h}

@[simp] theorem commitCommand_calls (s : State ι) (c : ι) (identity : CommandIdentity)
    (written : List (Write ι)) (result : Option Json) :
    (s.commitCommand h c identity written result).calls =
      Function.update s.calls c (.ended (.ok (some (withReceipt result identity.commandId)))) := rfl

/-- How locked work ends: without a commit, or as a durable command that succeeded. -/
theorem conclude_cases (s : State ι) (c : ι) (work : Work) (written : List (Write ι))
    (result : Option Json) :
    (∃ outcome, s.conclude h c work written result = (s.release c).setCall c (.ended outcome) ∧
      (outcome = .ok result ∨ ∃ error, outcome = .error error) ∧
      (work.isDurable = true → outcome = .ok result → succeeded result = false)) ∨
    ∃ identity, work.isDurable = true ∧ identityOf work.payload = some identity ∧
      succeeded result = true ∧
      s.conclude h c work written result = s.commitCommand h c identity written result := by
  unfold State.conclude
  cases hd : work.isDurable with
  | false => exact Or.inl ⟨_, rfl, Or.inl rfl, fun hf => by cases hf⟩
  | true =>
    cases hi : identityOf work.payload with
    | none => exact Or.inl ⟨_, rfl, Or.inr ⟨_, rfl⟩, fun _ he => by cases he⟩
    | some identity =>
      dsimp only
      by_cases hok : succeeded result = true
      · refine Or.inr ⟨identity, rfl, rfl, hok, ?_⟩
        rw [if_pos rfl, if_pos hok]
      · rw [if_pos rfl, if_neg hok]
        by_cases hr : truthy (chain result "retryable") = true
        · rw [if_pos hr]
          exact Or.inl ⟨_, rfl, Or.inr ⟨_, rfl⟩, fun _ he => by cases he⟩
        · rw [if_neg hr]
          exact Or.inl ⟨_, rfl, Or.inl rfl, fun _ _ => Bool.eq_false_iff.mpr hok⟩

/-- Locked work that returns or throws is over. -/
theorem conclude_calls (s : State ι) (c : ι) (work : Work) (written : List (Write ι))
    (result : Option Json) :
    ∃ outcome, (s.conclude h c work written result).calls =
      Function.update s.calls c (.ended outcome) := by
  rcases conclude_cases s c work written result with ⟨outcome, heq, -⟩ | ⟨_, -, -, -, heq⟩
  · exact ⟨outcome, by rw [heq]; rfl⟩
  · exact ⟨_, by rw [heq]; rfl⟩

omit [DecidableEq ι] in
/-- A row is the last upsert of it, or nobody has written it. -/
theorem putRows_cases (rows : String → Option TournamentRow) (writes : List (Write ι))
    (id : String) : ((∀ w ∈ writes, w.id ≠ id) ∧ putRows rows writes id = rows id) ∨
      ∃ w ∈ writes, w.id = id ∧ putRows rows writes id = some w.row := by
  unfold putRows
  induction writes generalizing rows with
  | nil => exact Or.inl ⟨fun w hw => absurd hw List.not_mem_nil, rfl⟩
  | cons w rest ih =>
    rw [List.foldl_cons]
    rcases ih (Function.update rows w.id (some w.row)) with ⟨hnone, heq⟩ | ⟨v, hv, hid, heq⟩
    · rw [heq]
      by_cases hw : w.id = id
      · exact Or.inr ⟨w, List.mem_cons_self, hw, by rw [hw, Function.update_self]⟩
      · refine Or.inl ⟨fun v hv => ?_, Function.update_of_ne (Ne.symm hw) _ _⟩
        rcases List.mem_cons.mp hv with rfl | hin
        · exact hw
        · exact hnone v hin
    · exact Or.inr ⟨v, List.mem_cons_of_mem _ hv, hid, heq⟩

omit [DecidableEq ι] in
/-- Rows that are not written stay. -/
theorem putRows_of_ne {rows : String → Option TournamentRow} {writes : List (Write ι)} {id : String}
    (hne : ∀ w ∈ writes, w.id ≠ id) : putRows rows writes id = rows id := by
  rcases putRows_cases rows writes id with ⟨-, heq⟩ | ⟨w, hw, hid, -⟩
  · exact heq
  · exact absurd hid (hne w hw)

omit [DecidableEq ι] in
/-- A call sees the committed row where its own transaction has written none. -/
theorem rowSeen_of_ne {t : Tables} {work : Work} {written : List (Write ι)} {id : String}
    (hne : ∀ w ∈ written, w.id ≠ id) : rowSeen t work written id = t.tournaments id := by
  unfold rowSeen
  rw [putRows_of_ne hne]
  cases work.isDurable <;> rfl

omit [DecidableEq ι] in
/-- An upsert leaves the other rows alone. -/
theorem put_tournaments_of_ne {s : State ι} {work : Work} {w : Write ι} {id : String}
    (hne : w.id ≠ id) : (s.put work w).tables.tournaments id = s.tables.tournaments id := by
  unfold State.put
  cases work.isDurable with
  | true => rfl
  | false => exact Function.update_of_ne (Ne.symm hne) _ _

omit [DecidableEq ι] in
@[simp] theorem put_calls (s : State ι) (work : Work) (w : Write ι) :
    (s.put work w).calls = s.calls := by
  unfold State.put
  cases work.isDurable <;> rfl

omit [DecidableEq ι] in
@[simp] theorem put_holder (s : State ι) (work : Work) (w : Write ι) :
    (s.put work w).holder = s.holder := by
  unfold State.put
  cases work.isDurable <;> rfl

omit [DecidableEq ι] in
/-- An upsert is the call's, under its key, and written now. -/
theorem nextWrite_spec {s : State ι} {c : ι} {work : Work} {written : List (Write ι)} {key : String}
    {record : TournamentRecord} {w : Write ι}
    (hw : nextWrite h s c work written key record = .ok (.ok w)) :
    w.call = c ∧ w.key = key ∧ w.row.updatedAt = s.tables.now := by
  unfold nextWrite at hw
  cases hadmitted : admitRecord record with
  | error error => rw [hadmitted] at hw; cases hw
  | ok admitted =>
    rw [hadmitted] at hw
    cases admitted with
    | error failure => cases hw
    | ok value =>
      simp only [Except.map] at hw
      split_ifs at hw
      · cases hw
        exact ⟨rfl, rfl, rfl⟩
      · cases hw

omit [DecidableEq ι] in
/-- A record that carries its key as its id is written under it. -/
theorem nextWrite_named {s : State ι} {c : ι} {work : Work} {written : List (Write ι)}
    {key : String} {record : TournamentRecord} {w : Write ι}
    (hnamed : Named (key, record))
    (hw : nextWrite h s c work written key record = .ok (.ok w)) :
    key ≠ "" ∧ w = ⟨c, key, key, ⟨stampCreatedBy work.userId record, 0, s.tables.now⟩⟩ := by
  unfold nextWrite admitRecord at hw
  cases hkey : recordKey record with
  | none => rw [hkey] at hw; cases hw
  | some value =>
    have hvalue : value = .str key ∧ key ≠ "" := by
      unfold recordKey at hkey
      rw [show record.tournamentId = some (.str key) from hnamed] at hkey
      split_ifs at hkey with ht
      exact ⟨(Option.some.inj hkey).symm, by simpa [truthy] using ht⟩
    rw [hkey] at hw
    dsimp only at hw
    cases hallowed : hasProviderOrTestId value record with
    | error error => rw [hallowed] at hw; cases hw
    | ok allowed =>
      rw [hallowed] at hw
      cases allowed with
      | false => cases hw
      | true =>
        simp only [Except.map, if_true] at hw
        split_ifs at hw
        · cases hw
          refine ⟨hvalue.2, ?_⟩
          rw [hvalue.1, h.external.pg.text_str key]
        · cases hw

/-- Attaching a policy changes neither the id nor the creator of a record. -/
theorem attach_keeps (t : Tables) (record : TournamentRecord) :
    (attachProviderPrivacyOnCreate h t record).tournamentId = record.tournamentId ∧
      getCreatedByUserId (attachProviderPrivacyOnCreate h t record) =
        getCreatedByUserId record := by
  unfold attachProviderPrivacyOnCreate
  cases getTournamentProviderId record with
  | none => exact ⟨rfl, rfl⟩
  | some providerId =>
    cases recordKey record with
    | none => exact ⟨rfl, rfl⟩
    | some id =>
      dsimp only
      by_cases hpolicy : h.hasParticipantPolicy record = true
      · rw [if_pos hpolicy]
        exact ⟨rfl, rfl⟩
      · rw [if_neg hpolicy]
        cases (exec (.selectUpdatedAt (h.external.pg.text id)) t).2 with
        | some view => exact ⟨rfl, rfl⟩
        | none =>
          dsimp only
          cases h.participantPrivacyPolicy (exec (.selectProvider providerId) t).2 with
          | none => exact ⟨rfl, rfl⟩
          | some policy =>
            exact ⟨h.attachPolicies_tournamentId policy record,
              h.attachPolicies_creator policy record⟩

/-- Locked work begins, or is given up. -/
theorem acquire_cases (s : State ι) (c : ι) (work : Work) :
    acquire h s c work = s ∨
    Available s (work.lockKeys c) ∧
      ((∃ error, acquire h s c work = (s.take c (work.lockKeys c)).abort c error) ∨
        work.isDurable = false ∧
          acquire h s c work = (s.take c (work.lockKeys c)).setCall c (opened work) ∨
        ∃ identity, identityOf work.payload = some identity ∧
          acquire h s c work = (s.take c (work.lockKeys c)).setCall c (.receipt work identity)) := by
  unfold acquire
  by_cases ha : Available s (work.lockKeys c)
  · rw [if_pos ha]
    refine Or.inr ⟨ha, ?_⟩
    unfold begin
    cases work.isDurable with
    | false => exact Or.inr (Or.inl ⟨rfl, rfl⟩)
    | true =>
      cases h.services.commandReceipts with
      | false => exact Or.inl ⟨_, rfl⟩
      | true =>
        cases hi : identityOf work.payload with
        | none => exact Or.inl ⟨_, rfl⟩
        | some identity => exact Or.inr (Or.inr ⟨identity, rfl, rfl⟩)
  · rw [if_neg ha]
    exact Or.inl rfl

/-- The receipt is absent, or it answers the command. -/
theorem readReceipt_cases (s : State ι) (c : ι) (work : Work) (identity : CommandIdentity) :
    readReceipt s c work identity = s ∨
    (s.holder (.command identity.actor identity.commandId) = none ∧
      s.tables.commandReceipts identity.actor identity.commandId = none ∧
      readReceipt s c work identity =
        (s.take c [.command identity.actor identity.commandId]).setCall c (opened work)) ∨
    (∃ error, readReceipt s c work identity = s.abort c error) ∨
    ∃ receipt, s.tables.commandReceipts identity.actor identity.commandId = some receipt ∧
      readReceipt s c work identity =
        (s.release c).setCall c (.ended (.ok (some (deduplicated receipt.result)))) := by
  unfold readReceipt
  dsimp only
  by_cases hfree : s.holder (.command identity.actor identity.commandId) = none
  · rw [if_pos hfree]
    cases hr : s.tables.commandReceipts identity.actor identity.commandId with
    | none => exact Or.inr (Or.inl ⟨hfree, rfl, rfl⟩)
    | some receipt =>
      dsimp only
      by_cases hf : receipt.fingerprint ≠ identity.fingerprint
      · rw [if_pos hf]
        exact Or.inr (Or.inr (Or.inl ⟨_, rfl⟩))
      · rw [if_neg hf]
        exact Or.inr (Or.inr (Or.inr ⟨receipt, rfl, rfl⟩))
  · rw [if_neg hfree]
    exact Or.inl rfl

/-- A key is as expected or not named, or the save is refused; after the last one the
records are written. -/
theorem checkKey_cases (s : State ι) (c : ι) (request : SaveRequest)
    (roles : List (String × String)) (records : RecordMap) (todo : List String) :
    (todo = [] ∧ checkKey h s c request roles records todo =
      s.setCall c (.writing (.save request roles records) .saved [] records)) ∨
    ∃ tid rest, todo = tid :: rest ∧
      ((checkKey h s c request roles records todo =
          s.setCall c (.checking request roles records rest) ∧
        ∀ fields expected, expectedFields (request.params.field? "expectedServerUpdatedAt") =
          some fields → fields.lookup tid = some expected →
          sameTime ((viewOf s.tables tid).map fun view =>
            h.external.toIso view.serverUpdatedAt) expected = true) ∨
      ∃ expected current, checkKey h s c request roles records todo =
        s.conclude h c (.save request roles records) []
          (some (conflictAnswer tid expected current))) := by
  cases todo with
  | nil => exact Or.inl ⟨rfl, rfl⟩
  | cons tid rest =>
    refine Or.inr ⟨tid, rest, rfl, ?_⟩
    unfold checkKey
    dsimp only
    cases hl : ((expectedFields (request.params.field? "expectedServerUpdatedAt")).getD []).lookup
      tid with
    | none =>
      refine Or.inl ⟨rfl, fun fields expected hf he => ?_⟩
      rw [hf] at hl
      exact absurd (hl.symm.trans he) (by simp)
    | some expected =>
      dsimp only
      by_cases hsame : sameTime ((viewOf s.tables tid).map fun view =>
          h.external.toIso view.serverUpdatedAt) expected = true
      · rw [if_pos hsame]
        refine Or.inl ⟨rfl, fun fields expected' hf he => ?_⟩
        rw [hf] at hl
        have heq : expected = expected' := Option.some.inj (hl.symm.trans he)
        rw [← heq]
        exact hsame
      · rw [if_neg hsame]
        exact Or.inr ⟨_, _, rfl⟩

/-- The engine has run with success, or the mutation is over. -/
theorem fetchAndRun_cases (s : State ι) (c : ι) (request : QueueRequest) (methods : List Json) :
    (∃ error, fetchAndRun h s c request methods = s.abort c error) ∨
    (∃ result, fetchAndRun h s c request methods =
      s.conclude h c (.queue request) [] result) ∨
    ∃ texts resolved outcome,
      h.external.pg.textArray request.tournamentIds = some texts ∧
      let rows := (exec (.selectTournaments texts) s.tables).2
      recordsAreValid rows = true ∧
      (h.engine.executionQueue (loadedRecords rows) resolved
        (request.payload.field? "rollbackOnError")).outcome = .ok outcome ∧
      fetchAndRun h s c request methods = s.setCall c (.writing (.queue request)
        (.mutated outcome.result resolved
          (rows.map fun (id, row) => (id, h.external.toIso row.updatedAt))) [] outcome.records) := by
  unfold fetchAndRun
  cases htexts : h.external.pg.textArray request.tournamentIds with
  | none => exact Or.inl ⟨_, rfl⟩
  | some texts =>
    dsimp only
    generalize hrows : (exec (.selectTournaments texts) s.tables).2 = rows
    unfold loadAndRun
    by_cases hempty : rows.isEmpty = true
    · rw [if_pos hempty]
      exact Or.inr (Or.inl ⟨_, rfl⟩)
    · rw [if_neg hempty]
      cases resolveMatchUpReferences h.engine (loadedRecords rows) methods with
      | error error => exact Or.inl ⟨_, rfl⟩
      | ok resolved =>
        dsimp only
        by_cases hvalid : recordsAreValid rows = true
        · rw [if_pos hvalid]
          unfold runEngine
          cases hrun : (h.engine.executionQueue (loadedRecords rows) resolved
              (request.payload.field? "rollbackOnError")).outcome with
          | error error => exact Or.inl ⟨_, rfl⟩
          | ok outcome =>
            dsimp only
            by_cases hok : truthy (outcome.result.field? "success") = true
            · rw [if_pos hok]
              refine Or.inr (Or.inr ⟨texts, resolved, outcome, rfl, ?_⟩)
              rw [hrows]
              exact ⟨hvalid, hrun, rfl⟩
            · rw [if_neg hok]
              exact Or.inr (Or.inl ⟨_, rfl⟩)
        · rw [if_neg hvalid]
          exact Or.inr (Or.inl ⟨_, rfl⟩)

/-- A record is written, or the call is over. -/
theorem saveNext_cases (s : State ι) (c : ι) (work : Work) (reply : Reply)
    (written : List (Write ι)) (todo : RecordMap) :
    (todo = [] ∧ saveNext h s c work reply written todo =
      s.conclude h c work written (some (replyAnswer h work reply written))) ∨
    ∃ key record rest, todo = (key, record) :: rest ∧
      ((∃ error, saveNext h s c work reply written todo = s.abort c error) ∨
      (∃ result, saveNext h s c work reply written todo = s.conclude h c work [] result) ∨
      ∃ w, nextWrite h s c work written key record = .ok (.ok w) ∧
        saveNext h s c work reply written todo =
          (s.put work w).setCall c (.writing work reply (written ++ [w]) rest)) := by
  cases todo with
  | nil => exact Or.inl ⟨rfl, rfl⟩
  | cons entry rest =>
    refine Or.inr ⟨entry.1, entry.2, rest, rfl, ?_⟩
    simp only [saveNext]
    cases hw : nextWrite h s c work written entry.1 entry.2 with
    | error error => exact Or.inl ⟨_, rfl⟩
    | ok admitted =>
      cases admitted with
      | error failure => exact Or.inr (Or.inl ⟨_, rfl⟩)
      | ok w => exact Or.inr (Or.inr ⟨w, rfl, rfl⟩)

/-- A call that is answered goes on by itself. -/
theorem advance_calls (s : State ι) (c : ι) :
    ∃ stage, (advance h s c).calls = Function.update s.calls c stage := by
  have hsame : ∃ stage, s.calls = Function.update s.calls c stage :=
    ⟨s.calls c, (Function.update_eq_self c s.calls).symm⟩
  have hconclude : ∀ work written result, ∃ stage,
      (s.conclude h c work written result).calls = Function.update s.calls c stage := by
    intro work written result
    obtain ⟨outcome, houtcome⟩ := conclude_calls s c work written result
    exact ⟨_, houtcome⟩
  unfold advance
  cases hs : s.calls c with
  | idle => exact hsame
  | ended outcome => exact hsame
  | gating request ctx roles gated todo =>
    cases todo with
    | nil => exact ⟨_, rfl⟩
    | cons entry todo =>
      dsimp only
      cases gateRecord h ctx roles entry.1 entry.2 (viewOf s.tables entry.1) with
      | none => exact ⟨_, rfl⟩
      | some record => exact ⟨_, rfl⟩
  | attaching request roles attached todo => cases todo <;> exact ⟨_, rfl⟩
  | locking work =>
    dsimp only
    rcases acquire_cases (h := h) s c work with
      heq | ⟨-, ⟨_, heq⟩ | ⟨-, heq⟩ | ⟨_, -, heq⟩⟩ <;> rw [heq]
    · exact hsame
    all_goals exact ⟨_, rfl⟩
  | receipt work identity =>
    dsimp only
    rcases readReceipt_cases s c work identity with
      heq | ⟨-, -, heq⟩ | ⟨_, heq⟩ | ⟨_, -, heq⟩ <;> rw [heq]
    · exact hsame
    all_goals exact ⟨_, rfl⟩
  | checking request roles records todo =>
    dsimp only
    rcases checkKey_cases (h := h) s c request roles records todo with
      ⟨-, heq⟩ | ⟨_, _, -, ⟨heq, -⟩ | ⟨_, _, heq⟩⟩ <;> rw [heq]
    · exact ⟨_, rfl⟩
    · exact ⟨_, rfl⟩
    · exact hconclude _ _ _
  | resolving request =>
    dsimp only
    cases indexedMethods h.external s.tables request.tournamentIds request.methods <;>
      exact ⟨_, rfl⟩
  | fetching request methods =>
    dsimp only
    rcases fetchAndRun_cases (h := h) s c request methods with
      ⟨_, heq⟩ | ⟨_, heq⟩ | ⟨_, _, _, -, -, -, heq⟩ <;> rw [heq]
    · exact ⟨_, rfl⟩
    · exact hconclude _ _ _
    · exact ⟨_, rfl⟩
  | writing work reply written todo =>
    dsimp only
    rcases saveNext_cases (h := h) s c work reply written todo with
      ⟨-, heq⟩ | ⟨_, _, _, -, ⟨_, heq⟩ | ⟨_, heq⟩ | ⟨_, -, heq⟩⟩ <;> rw [heq]
    · exact hconclude _ _ _
    · exact ⟨_, rfl⟩
    · exact hconclude _ _ _
    · exact ⟨_, by rw [setCall_calls, put_calls]⟩

/-- An action leaves the calls of others where they are. -/
theorem step_calls_other {s : State ι} {a : WriteAction ι} {d : ι} (hd : a.call? ≠ some d) :
    (step h s a).calls d = s.calls d := by
  have hupdate : ∀ (c : ι) (stage : Stage ι), some c ≠ some d →
      Function.update s.calls c stage d = s.calls d := fun c stage hc =>
    Function.update_of_ne (fun he => hc (by rw [he])) _ _
  have hreject : ∀ c : ι, some c ≠ some d → (reject s c).calls d = s.calls d := by
    intro c hc
    unfold reject
    cases s.calls c with
    | idle => rfl
    | ended outcome => rfl
    | attaching request roles attached todo => cases todo <;> exact hupdate c _ hc
    | _ => exact hupdate c _ hc
  have hlost : ∀ c : ι, some c ≠ some d →
      ((advance h s c).abort c (.error "database error")).calls d = s.calls d := by
    intro c hc
    obtain ⟨stage, hstage⟩ := advance_calls (h := h) s c
    rw [abort_calls, hstage, Function.update_idem]
    exact hupdate c _ hc
  cases a with
  | save c request =>
    simp only [step]
    cases s.calls c with
    | idle => exact hupdate c _ hd
    | _ => rfl
  | queue c payload =>
    simp only [step]
    cases s.calls c with
    | idle => exact hupdate c _ hd
    | _ => rfl
  | advance c =>
    obtain ⟨stage, hstage⟩ := advance_calls (h := h) s c
    simp only [step]
    rw [hstage]
    exact hupdate c stage hd
  | reject c => exact hreject c hd
  | lose c =>
    simp only [step]
    cases s.calls c with
    | idle => rfl
    | ended outcome => rfl
    | attaching request roles attached todo =>
      cases todo with
      | nil => exact hlost c hd
      | cons entry todo => exact hreject c hd
    | _ => exact hlost c hd
  | outside tables roles => rfl

end Calls

end FactoryServer.ConcurrentWrites
