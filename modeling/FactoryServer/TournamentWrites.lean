import FactoryServer.AssignmentControl
import FactoryServer.MutationGate

/-!
# The routes that write tournaments

Every route that mutates, replaces, deletes or generates over a tournament,
mints a scoring token for it, or changes its assignments. A handler is given as
the tournaments it goes on to act on once its own checks have passed; what the
storage and the engine then do is the subject of other modules.
-/

namespace FactoryServer.TournamentWrites

open JsonValue TournamentAccess RequestIdentity AssignmentControl ScopedGrants CommandTransaction
  CommandReceipts StorageTables TournamentStorage ExecutionQueue MutationGate

/-- What the write routes read. -/
structure WriteState extends GateState where
  /-- Services of the process. -/
  services : Services
  /-- The competition engine. -/
  engine : Engine
  /-- Users, memberships and provisioner associations. -/
  identity : IdentityStore
  /-- `tournament_provisioner`. -/
  stamp : String → Option String
  /-- The text parses as a UUID. -/
  isUuid : String → Bool
  /-- Some users row has this `user_id`. -/
  isUserId : String → Bool
  /-- `tournament_assignments`. -/
  assignments : AssignmentTable
  /-- `commandFingerprint(body)`. -/
  commandFingerprint : Json → String
  /-- `saveFingerprint(body)`. -/
  saveFingerprint : Json → String
  /-- `mocksGovernor.generateTournamentRecord(profile)`; `none` is a refusal. -/
  generateTournamentRecord : Json → Option TournamentRecord
  /-- `validateL2(record).valid`. -/
  validateL2 : TournamentRecord → Bool
  /-- `gateDrawIntegrity` does not throw. -/
  drawIntegrity : TournamentRecord → Bool
  /-- `new Date().toISOString().slice(0, 10)`. -/
  today : String
  /-- `a < b` on strings. -/
  before : String → String → Bool
  /-- The provider's effective configuration has a participant privacy policy. -/
  hasPrivacyPolicy : Provider → Bool

/-- The stored record of a tournament. -/
def WriteState.stored (s : WriteState) (tournamentId : String) : Option TournamentRecord :=
  (s.tables.tournaments tournamentId).map TournamentRow.record

variable (s : WriteState)

/-! ## The queue -/

/-- `resolveMatchUpReferencesFromIndex` on these tables. -/
def indexedMethods (tournamentIds : Json) (methods : List Json) : Option (List Json) :=
  let ids := tournamentIds.iterate?.getD []
  let pending := methods.filter isUnresolvedScore
  if ids.length ≠ 1 || pending.isEmpty then some methods else
  match ids.head? with
  | none => some (withDraws methods [])
  | some id =>
    if !truthy (some id) then some (withDraws methods []) else
    (s.external.pg.textArray (.arr (pending.map scoredMatchUpId))).map fun matchUpIds =>
      withDraws methods (exec (.selectMatchUpDraws (s.external.pg.text id) matchUpIds) s.tables).2

/-- `fetchTournamentRecords` on these tables. -/
def fetchedRows (tournamentIds : Json) : List (String × TournamentRow) :=
  match s.external.pg.textArray tournamentIds with
  | none => []
  | some ids => (exec (.selectTournaments ids) s.tables).2

/-- The rows the locked work runs the engine on. -/
def engineRows (tournamentIds : Json) (methods : List Json) : List (String × TournamentRow) :=
  match indexedMethods s tournamentIds methods with
  | none => []
  | some methods =>
    let rows := fetchedRows s tournamentIds
    match resolveMatchUpReferences s.engine (loadedRecords rows) methods with
    | .error _ => []
    | .ok _ => if recordsAreValid rows then rows else []

/-- A command without an id is applied; a durable one when it has no receipt yet. -/
def isApplied (payload : Json) : Bool :=
  match payload.field? "commandId" with
  | none => true
  | some _ => s.services.commandReceipts &&
    (identityOf payload).any fun identity =>
      (s.tables.commandReceipts identity.actor identity.commandId).isNone

/-- The tournaments `executionQueue` runs the engine on for a payload. -/
def queueTargets (payload : Json) : List String :=
  match ExecutionQueue.admission s.external s.services s.engine payload with
  | .locked tournamentIds _ =>
    if isApplied s payload then
      (engineRows s tournamentIds ((methodList (payload.field? "methods")).getD [])).map Prod.fst
    else []
  | _ => []

/-! ## `POST /factory` and `POST /factory/score` -/

/-- `req.user?.userId ?? req.user?.sub ?? req.user?.email`. -/
def commandActor (user : Option RequestUser) : Option String :=
  (user.bind RequestUser.userId).orElse fun _ =>
    (user.bind RequestUser.sub).orElse fun _ => user.bind RequestUser.email

/-- A string property that may be missing. -/
def optional (value : Option String) : Json := (value.map Json.str).getD .null

/-- The payload of the queue: the body with what the server decides. Operator
attestations inside `params` are rewritten too, which no check here reads. -/
def queuePayload (user : Option RequestUser) (body : Json) : Json :=
  spread (some body)
    (((user.bind RequestUser.email).toList.map fun email => ("userEmail", .str email)) ++
      [("commandActor", optional (commandActor user)),
        ("commandFingerprint", .str (s.commandFingerprint body)),
        ("userId", optional ((user.bind RequestUser.userId).orElse fun _ =>
          user.bind RequestUser.sub))])

/-- `eqd?.commandId !== undefined && eqd.commandUser !== req.user?.email`. -/
def foreignCommand (user : Option RequestUser) (body : Json) : Bool :=
  (body.field? "commandId").isSome &&
    (body.field? "commandUser").map Json.str? != (user.bind RequestUser.email).map some

/-- The controller passes the body on to the queue: the command is the caller's,
and the gate is clear. -/
def admitsQueue (state : RequestState) (body : Json) : Bool :=
  !foreignCommand state.user body &&
    match methodList (body.field? "methods") with
    | none => false
    | some methods =>
      match gate s.toGateState state.userContext (gateTournamentIds body)
        (requestedMethods methods) methods with
      | .ok none => true
      | _ => false

/-- `setMatchUpStatus`: the payload of the queue for a score. -/
def scorePayload (body : Json) : Json :=
  let flat := if truthy (body.field? "params") && !truthy (body.field? "matchUpId") then
      (body.field? "params").getD .null else body
  let params := flat.entries.filter fun f => f.1 != "tournamentId"
  .obj (((flat.field? "tournamentId").toList.map fun id => ("tournamentId", id)) ++
    [("methods", .arr [.obj [("method", .str "setMatchUpStatus"), ("params", .obj params)]])])

/-! ## Saving, removing and generating -/

/-- `isDeleteAuthorized`. -/
def isDeleteAuthorized (state : RequestState) (record : TournamentRecord) : Bool :=
  match state.userContext with
  | some ctx => canDeleteTournament record (some ctx) []
  | none => hasRole state.user SUPER_ADMIN

/-- `checkDeletableByEndDate` finds no error. -/
def isDeletableByEndDate (record : TournamentRecord) : Bool :=
  record.isMock || (nonEmpty record.endDate).any fun endDate => s.before endDate s.today

/-- The loop of `removeTournamentRecords`: ids without a row are passed over, and
the first refusal ends it. -/
def removedIds (state : RequestState) : List Json → List String
  | [] => []
  | id :: rest =>
    match s.stored (s.external.pg.text id) with
    | none => removedIds state rest
    | some record =>
      if isDeleteAuthorized state record && isDeletableByEndDate s record then
        (s.external.pg.textArray (.arr [id])).getD [] ++ removedIds state rest
      else []

/-- A request to one of the routes. -/
inductive WriteRequest where
  /-- `POST /factory`. -/
  | executionQueue (body : Json)
  /-- `POST /factory/score`. -/
  | score (body : Json)
  /-- `POST /factory/save`, with the records of the body. -/
  | save (body : Json) (records : RecordMap)
  /-- `POST /factory/remove`. -/
  | remove (body : Json)
  /-- `POST /factory/generate`. -/
  | generate (profile : Json)
  /-- `POST /auth/tracker-token`, with the trimmed id. -/
  | trackerToken (tournamentId : String)
  /-- `POST /auth/provider-scoring-token`, with the trimmed ids. -/
  | providerScoringToken (tournamentId personId : String)
  /-- `POST /admin/tournaments/:id/registrations/…/accept`: there are registrations to commit. -/
  | acceptRegistrations (tournamentId : String) (pending : Bool)
  /-- `POST /admin/tournaments/:id/availability/pull`: there are person requests to apply. -/
  | pullAvailability (tournamentId : String) (pending : Bool)
  /-- `POST /factory/apply-privacy-policy`. -/
  | applyPrivacyPolicy (providerId : String) (includeInProgress : Bool)
  /-- The four assignment routes. -/
  | assignment (route : AssignmentRoute) (body : AssignmentBody)

/-- What a route declares to the guards. -/
def WriteRequest.declared (moved : Bool) : WriteRequest → Route
  | .executionQueue _ | .remove _ => ⟨false, none, some ["client", SUPER_ADMIN], fun _ => true⟩
  | .score _ => ⟨false, some ["admin", "score"], some ["score", SUPER_ADMIN], fun _ => true⟩
  | .save _ _ | .applyPrivacyPolicy _ _ =>
    ⟨false, none, some ["client", "admin", SUPER_ADMIN], fun _ => true⟩
  | .generate _ => ⟨false, none, some [SUPER_ADMIN, "generate"], fun _ => true⟩
  | .trackerToken _ | .providerScoringToken _ _ =>
    ⟨false, none, some ["score", SUPER_ADMIN], fun _ => true⟩
  | .acceptRegistrations _ _ | .pullAvailability _ _ =>
    ⟨false, none, some ["client", SUPER_ADMIN], fun _ => true⟩
  | .assignment route _ => route.declared moved

end FactoryServer.TournamentWrites
