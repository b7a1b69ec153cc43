import FactoryServer.MutationGate
import FactoryServer.RecordShards

/-!
# Access decisions on a projected record

The gates do not read a whole tournament. The statement of `fetchTournamentUpdatedAt` projects
the provider's id as a text and the extensions as they are, and three callers build a small
record of them. Here the decisions are made on a record of any shape, whole or small: they read
its provider, its creator and its id. What reads the extensions fails where these are no array.
-/

namespace FactoryServer.ProjectedViews

open JsonValue JsonbValues RecordShards TournamentAccess CommandTransaction ScopedGrants
  ExecutionQueue MutationGate

/-- How values become texts. -/
structure Texts where
  /-- PostgreSQL's text of a JSON value that is no string. -/
  render : Jsonb → String
  /-- It is never empty. -/
  render_ne : ∀ value, render value ≠ ""
  /-- `String(n)` of a number. -/
  numberText : Rat → String
  /-- The driver's text of a statement parameter that is no string. -/
  bind : Jsonb → String

/-! ## Properties of a record -/

mutual

/-- The property key that a value denotes. -/
def keyText (numberText : Rat → String) : Jsonb → String
  | .null => "null"
  | .bool b => toString b
  | .num q => numberText q
  | .str s => s
  | .arr items => joinKeys numberText items
  | .obj _ => "[object Object]"

/-- `items.join(",")`, where `null` is left empty. -/
def joinKeys (numberText : Rat → String) : List Jsonb → String
  | [] => ""
  | [.null] => ""
  | [item] => keyText numberText item
  | .null :: rest => "," ++ joinKeys numberText rest
  | item :: rest => keyText numberText item ++ "," ++ joinKeys numberText rest

end

/-- Truthiness of a parsed value. -/
def isTruthy : Jsonb → Bool
  | .null => false
  | .bool b => b
  | .num q => q ≠ 0
  | .str s => s ≠ ""
  | .arr _ => true
  | .obj _ => true

/-- `tournament?.parentOrganisation?.organisationId`. -/
def getTournamentProviderId (tournament : Jsonb) : Option Jsonb :=
  (tournament.get "parentOrganisation").bind (Jsonb.get · "organisationId")

/-- The provider's id, unless it is falsy. -/
def providerOf (tournament : Jsonb) : Option Jsonb :=
  (getTournamentProviderId tournament).filter isTruthy

/-- `tournament?.extensions ?? []`. -/
def extensionsOf (tournament : Jsonb) : Jsonb :=
  match tournament.get "extensions" with
  | none => .arr []
  | some .null => .arr []
  | some extensions => extensions

/-- `getCreatedByUserId`: only an array has `find`. -/
def getCreatedByUserId (tournament : Jsonb) : Except Thrown (Option Jsonb) :=
  match extensionsOf tournament with
  | .arr items => .ok ((items.find? fun e =>
      e.get "name" = some (.str CREATED_BY_USER_ID)).bind (Jsonb.get · "value"))
  | _ => .error typeError

/-- `isProvisionerCreated`. -/
def isProvisionerCreated (createdBy : Option Jsonb) : Bool :=
  match createdBy with
  | some (.str s) => startsWith s PROVISIONER_ACTOR_PREFIX
  | _ => false

/-- `createdBy && createdBy === userContext.userId`. -/
def isCreator (createdBy : Option Jsonb) (userId : String) : Bool :=
  match createdBy with
  | some (.str s) => s != "" && s == userId
  | _ => false

/-- The record's id where it can be a key: the assignments have texts for keys. -/
def tournamentIdOf (tournament : Jsonb) : Option String :=
  match tournament.get "tournamentId" with
  | some (.str id) => nonEmpty (some id)
  | _ => none

/-- `ids.includes(value)`. -/
def includes (ids : List String) : Jsonb → Bool
  | .str s => ids.contains s
  | _ => false

/-! ## Decisions -/

variable (texts : Texts)

/-- `userContext.providerRoles[providerId]`, absent when empty. -/
def roleAt (ctx : UserContext) (providerId : Jsonb) : Option String :=
  ctx.roleAt (keyText texts.numberText providerId)

/-- `canViewTournament`. -/
def canViewTournament (scoping : Bool) (tournament : Jsonb) (userContext : Option UserContext)
    (assignedTournamentIds : List String) : Except Thrown Bool :=
  if !scoping then .ok true else
  match userContext with
  | none => .ok false
  | some ctx =>
    if ctx.isSuperAdmin then .ok true else
    match providerOf tournament with
    | none => .ok true
    | some providerId =>
      if includes ctx.provisionerProviderIds providerId then .ok true else
      match roleAt texts ctx providerId with
      | none => .ok false
      | some role =>
        if role == PROVIDER_ADMIN then .ok true else
        (getCreatedByUserId tournament).map fun createdBy =>
          isCreator createdBy ctx.userId ||
            (tournamentIdOf tournament).any assignedTournamentIds.contains ||
            isProvisionerCreated createdBy

/-- What an assignment role allows. -/
def assignmentAllows (role : Option String) (requestedMethods : List String) : Bool :=
  match classifyAssignmentRole role with
  | .none => false
  | .scorer => !requestedMethods.isEmpty && requestedMethods.all SCORER_ALLOWED_METHODS.contains
  | .full => true

/-- `canMutateTournament`. -/
def canMutateTournament (scoping : Bool) (tournament : Jsonb) (userContext : Option UserContext)
    (assignedRoles : List (String × String)) (requestedMethods : List String) :
    Except Thrown Bool :=
  (canViewTournament texts scoping tournament userContext (assignedRoles.map Prod.fst)).bind
    fun visible =>
      if !visible then .ok false else if !scoping then .ok true else
      match userContext with
      | none => .ok true
      | some ctx =>
        if ctx.isSuperAdmin then .ok true else
        match providerOf tournament with
        | none => .ok true
        | some providerId =>
          if includes ctx.provisionerProviderIds providerId then .ok true else
          if roleAt texts ctx providerId == some PROVIDER_ADMIN then .ok true else
          (getCreatedByUserId tournament).map fun createdBy =>
            isCreator createdBy ctx.userId || assignmentAllows
              ((tournamentIdOf tournament).bind fun id => assignedRoles.lookup id) requestedMethods

/-- `actingProviderAllows`. -/
def actingProviderAllows (userContext : Option UserContext) (providerId : Jsonb) : Bool :=
  match userContext with
  | none => true
  | some ctx =>
    if ctx.isSuperAdmin then true else
    if ctx.providerSelectionPending then false else
    match nonEmpty ctx.actingProviderId with
    | none => true
    | some acting => providerId = .str acting

/-- The check of one record by `checkProvider`. -/
def checkProviderOf (user : Option RequestUser) (userContext : Option UserContext) (write : Bool)
    (tournament : Jsonb) : Bool :=
  match providerOf tournament with
  | none => !write
  | some providerId =>
    includes (requestProviderIds user userContext) providerId &&
      actingProviderAllows userContext providerId

/-- `checkProvider`. -/
def checkProvider (tournaments : List Jsonb) (user : Option RequestUser)
    (userContext : Option UserContext) (write : Bool) : Bool :=
  userContext.any UserContext.isSuperAdmin || hasRole user SUPER_ADMIN ||
    tournaments.all (checkProviderOf user userContext write)

/-- The gate's test of `actingProviderAllows`, which super-admins are spared. -/
def withinSession (ctx : UserContext) (tournament : Jsonb) : Bool :=
  ctx.isSuperAdmin || (providerOf tournament).any (actingProviderAllows (some ctx))

/-! ## Reading a tournament -/

/-- `tournament_document`. -/
def tournamentDocument (data : Jsonb) : Jsonb := data

/-- `tournament_shell`. -/
def tournamentShell (data : Jsonb) : Jsonb := data

/-- The projection that `fetchTournamentUpdatedAt` returns. -/
structure UpdatedAt where
  /-- `tournament_id`. -/
  tournamentId : String
  /-- `shell->>'updatedAt'`. -/
  updatedAt : Option String
  /-- `shell->'parentOrganisation'->>'organisationId'`. -/
  providerId : Option String
  /-- `shell->'extensions'`, or an empty array. -/
  extensions : Jsonb

/-- `fetchTournamentUpdatedAt` of the storage, on a shell. -/
def fetchTournamentUpdatedAt (tournamentId : String) (shell : Jsonb) : UpdatedAt where
  tournamentId := tournamentId
  updatedAt := shell.getText texts.render "updatedAt"
  providerId :=
    (shell.get "parentOrganisation").bind fun o => o.getText texts.render "organisationId"
  extensions := extensionsOf shell

/-- The record that is built of a projection. -/
def minimalFields (tournamentId : String) (view : UpdatedAt) : List (String × Jsonb) :=
  ("tournamentId", .str tournamentId) :: ("extensions", view.extensions) ::
    (nonEmpty view.providerId).toList.map fun providerId =>
      ("parentOrganisation", .obj [("organisationId", .str providerId)])

/-- `authorizationView`. -/
def authorizationView (view : UpdatedAt) : Jsonb := .obj (minimalFields view.tournamentId view)

/-- `storedRecord` of `gateWholesaleSave`. -/
def storedRecord (tid : String) (view : UpdatedAt) : Jsonb := .obj (minimalFields tid view)

/-- `minimalRecord` of the staleness probe. -/
def minimalRecord (tournamentId : String) (view : UpdatedAt) : Jsonb :=
  .obj (minimalFields tournamentId view ++
    [("updatedAt", (view.updatedAt.map Jsonb.str).getD .null)])

/-- The way a gate reads a stored tournament. -/
abbrev Reading := String → Option Jsonb

/-- `fetchTournamentRecords`, under one id. -/
def wholeRecord (db : Database) : Reading := fun id =>
  (db.data id).map fun d => tournamentDocument d.value

/-- A record built of the projection, with the given builder. -/
def projectedRecord (db : Database) (build : String → UpdatedAt → Jsonb) : Reading := fun id =>
  (db.data id).map fun d => build id (fetchTournamentUpdatedAt texts id (tournamentShell d.value))

/-! ## Gates -/

/-- The text of a statement parameter. -/
def parameterText : Jsonb → String
  | .str s => s
  | other => texts.bind other

section Gate

variable (s : GateState)

/-- `checkProviderPermissionGate`. -/
def checkProviderPermissionGate (tournament : Jsonb) (requested : List Json) : Option Json :=
  match providerOf tournament with
  | none => none
  | some providerId =>
    let provider := s.tables.providers (parameterText texts providerId)
    let caps := (provider.map StorageTables.Provider.providerConfigCaps).getD (.obj [])
    let settings := (provider.map StorageTables.Provider.providerConfigSettings).getD (.obj [])
    requested.find? fun name => !s.isMutationAllowed caps settings name

/-- The checks behind `canMutateTournament`. -/
def checkScopes (ctx : UserContext) (requested methods : List Json) (tournament : Jsonb)
    (events : List TournamentTree.Event) : Option String :=
  let tournamentId := (tournamentIdOf tournament).getD ""
  match checkGrantScope s.package s.iso ctx tournamentId (s.grants ctx.userId tournamentId) s.now
      events methods with
  | some denial => some (scopeReason denial)
  | none =>
    if ctx.isSuperAdmin || requested.isEmpty then none else
    (checkProviderPermissionGate texts s tournament requested).map fun name =>
      "Action not permitted: " ++ name.propertyKey

/-- The four checks on one tournament; `none` lets it pass. -/
def checkTournament (ctx : UserContext) (requested methods : List Json) (tournament : Jsonb)
    (events : List TournamentTree.Event) : Except Thrown (Option String) :=
  if !withinSession ctx tournament then .ok (some NOT_AUTHORIZED_TO_MODIFY) else
  (canMutateTournament texts s.scoping tournament (some ctx) (s.assignedRoles ctx.userId)
    (methodNames requested)).map fun allowed =>
      if !allowed then some NOT_AUTHORIZED_TO_MODIFY
      else checkScopes texts s ctx requested methods tournament events

/-- The loop of `gate`: a tournament that cannot be read is skipped. -/
def firstDenial (read : Reading) (ctx : UserContext) (requested methods : List Json) :
    List Json → Except Thrown (Option String)
  | [] => .ok none
  | tid :: rest =>
    match (if truthy (some tid) then read (s.external.pg.text tid) else none) with
    | none => firstDenial read ctx requested methods rest
    | some tournament =>
      (checkTournament texts s ctx requested methods tournament (loadedEvents s tid)).bind
        fun denial => match denial with
          | some reason => .ok (some reason)
          | none => firstDenial read ctx requested methods rest

/-- `gate`. -/
def gate (read : Reading) (userContext : Option UserContext) (tournamentIds requested methods :
    List Json) : Except Thrown (Option String) :=
  match userContext with
  | none => .ok none
  | some ctx => firstDenial texts s read ctx requested methods tournamentIds

end Gate

/-- How `gateWholesaleSave` ends. -/
inductive WholesaleGate where
  /-- The first tournament that may not be modified. -/
  | refused (tid : String)
  /-- The creators that the records are given. -/
  | stamped (creators : List (String × Option Jsonb))

/-- `gateWholesaleSave`: a tournament that is not stored is a creation. -/
def gateWholesaleSave (read : Reading) (scoping : Bool) (ctx : UserContext)
    (assignedRoles : List (String × String)) :
    List String → List (String × Option Jsonb) → Except Thrown WholesaleGate
  | [], stamped => .ok (.stamped stamped)
  | tid :: rest, stamped =>
    match (if tid = "" then none else read tid) with
    | none => gateWholesaleSave read scoping ctx assignedRoles rest
        (stamped ++ [(tid, some (.str ctx.userId))])
    | some stored =>
      (canMutateTournament texts scoping stored (some ctx) assignedRoles []).bind fun allowed =>
        if !allowed then .ok (.refused tid) else
        (getCreatedByUserId stored).bind fun createdBy =>
          gateWholesaleSave read scoping ctx assignedRoles rest (stamped ++ [(tid, createdBy)])

/-- How the staleness probe ends. -/
inductive Probe where
  /-- `Invalid user`. -/
  | invalidUser
  /-- `Missing tournamentId`. -/
  | missingId
  /-- `MISSING_TOURNAMENT_RECORD`. -/
  | missingRecord
  /-- `User not allowed`. -/
  | refused
  /-- The times are returned. -/
  | success
  deriving DecidableEq

/-- `fetchTournamentUpdatedAt` of the service. -/
def stalenessProbe (read : Reading) (scoping : Bool) (user : Option RequestUser)
    (userContext : Option UserContext) (assignedIds : List String) (tournamentId : Option String) :
    Except Thrown Probe :=
  if !checkUser user userContext then .ok .invalidUser else
  match nonEmpty tournamentId with
  | none => .ok .missingId
  | some id =>
    match read id with
    | none => .ok .missingRecord
    | some tournament =>
      if !checkProvider [tournament] user userContext false then .ok .refused else
      match userContext with
      | none => .ok .success
      | some ctx =>
        (canViewTournament texts scoping tournament (some ctx) assignedIds).map fun visible =>
          if visible then .success else .refused

/-- `canReadUnpublishedTournament`. -/
def canReadUnpublishedTournament (read : Reading) (scoping : Bool) (user : Option RequestUser)
    (userContext : Option UserContext) (assignedIds : List String) (tournamentId : String) :
    Except Thrown Bool :=
  if tournamentId = "" || (user.isNone && userContext.isNone) then .ok false else
  (stalenessProbe texts read scoping user userContext assignedIds (some tournamentId)).map
    (· = .success)

end FactoryServer.ProjectedViews
