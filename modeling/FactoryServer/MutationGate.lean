import FactoryServer.ScopedGrants
import FactoryServer.ExecutionQueue

/-!
# The mutation gate

`MutationAuthorizationService.gate` decides on a mutation request before the
queue sees it. It iterates the ids the controller resolved from the body, reads
what it needs of each stored tournament, and runs four checks on it: the
session's provider, the per-tournament access, the scoped grants and the
permissions of the owning provider.
-/

namespace FactoryServer.MutationGate

open JsonValue TournamentAccess TournamentTree ScopedGrants CommandTransaction StorageTables
  TournamentStorage ExecutionQueue

/-- What the gate reads: tables, packages, the clock and the environment. -/
structure GateState where
  /-- `ENABLE_TOURNAMENT_ACCESS_SCOPING`. -/
  scoping : Bool
  /-- The driver. -/
  external : External
  /-- The tournaments and the providers. -/
  tables : Tables
  /-- `getAssignedRoles(userId)`: role by tournament. -/
  assignedRoles : String → List (String × String)
  /-- `findForSubject(userId, tournamentId)`; `none` when the table cannot be read. -/
  grants : String → String → Option (List Grant)
  /-- The grant predicates. -/
  package : GrantPredicates
  /-- `toISOString`. -/
  iso : Int → String
  /-- `Date.now()`. -/
  now : Int
  /-- The events of a stored record, as `enrichTargetFromRecord` walks them. -/
  eventsOf : TournamentRecord → List Event
  /-- `isMutationAllowed(method, computeEffectiveConfig(caps, settings).permissions ?? {})`. -/
  isMutationAllowed : Json → Json → Json → Bool

/-- The text the gate and the delete route answer with on a missing right. -/
def NOT_AUTHORIZED_TO_MODIFY : String := "Not authorized to modify this tournament"

/-- What the four checks read of a tournament: id, owning provider and extensions. -/
def viewRecord (view : UpdatedAtView) : TournamentRecord :=
  { tournamentId := some (.str view.tournamentId)
    organisationId := nonEmpty view.providerId
    extensions := view.extensions
    tournamentName := none
    startDate := none
    endDate := none
    isMock := false
    content := .null }

/-- `m?.method` of every method, the falsy ones left out. -/
def requestedMethods (methods : List Json) : List Json :=
  (methods.filterMap (Json.field? "method")).filter fun name => truthy (some name)

/-- A method name as the scorer's allow-list compares it. -/
def methodNames (requested : List Json) : List String :=
  requested.map fun name => name.str?.getD ""

variable (s : GateState)

/-- `fetchTournamentUpdatedAt` on an id of the request. -/
def storedView (tid : Json) : Option UpdatedAtView :=
  if truthy (some tid) then (exec (.selectUpdatedAt (s.external.pg.text tid)) s.tables).2 else none

/-- `loadRecord`: the events of the record the fetch returns under the id itself. -/
def loadedEvents (tid : Json) : List Event :=
  match s.tables.tournaments (s.external.pg.text tid) with
  | none => []
  | some row => if tid.propertyKey = s.external.pg.text tid then s.eventsOf row.record else []

/-- The first method the owning provider's permissions block. -/
def checkProviderPermissionGate (tournament : TournamentRecord) (requested : List Json) :
    Option Json :=
  match getTournamentProviderId tournament with
  | none => none
  | some providerId =>
    let provider := s.tables.providers providerId
    let caps := (provider.map Provider.providerConfigCaps).getD (.obj [])
    let settings := (provider.map Provider.providerConfigSettings).getD (.obj [])
    requested.find? fun name => !s.isMutationAllowed caps settings name

/-- The session may write to the provider of the tournament; super-admins are not asked. -/
def withinSession (ctx : UserContext) (tournament : TournamentRecord) : Bool :=
  ctx.isSuperAdmin ||
    (getTournamentProviderId tournament).any fun providerId => actingProviderAllows (some ctx) providerId

/-- The answer for a method outside the scoped grants. -/
def scopeReason (denial : Denial) : String :=
  denial.reason.getD ("Not authorized for this " ++ denial.dimension)

/-- The four checks on one stored tournament; `none` lets it pass. -/
def checkTournament (ctx : UserContext) (requested methods : List Json)
    (tournament : TournamentRecord) (events : List Event) : Option String :=
  if !withinSession ctx tournament then some NOT_AUTHORIZED_TO_MODIFY else
  if !canMutateTournament s.scoping tournament (some ctx) (s.assignedRoles ctx.userId)
      (methodNames requested) then some NOT_AUTHORIZED_TO_MODIFY else
  let tournamentId := (tournamentIdOf tournament).getD ""
  match checkGrantScope s.package s.iso ctx tournamentId (s.grants ctx.userId tournamentId) s.now
      events methods with
  | some denial => some (scopeReason denial)
  | none =>
    if ctx.isSuperAdmin || requested.isEmpty then none else
    (checkProviderPermissionGate s tournament requested).map fun name =>
      "Action not permitted: " ++ name.propertyKey

/-- The body of the loop over ids: a tournament that is not stored is skipped. -/
def gateTournament (ctx : UserContext) (requested methods : List Json) (tid : Json) :
    Option String :=
  (storedView s tid).bind fun view =>
    checkTournament s ctx requested methods (viewRecord view) (loadedEvents s tid)

/-- `gate`: a denial, or `none` when all is clear. -/
def gate (userContext : Option UserContext) (tournamentIds : Json)
    (requested methods : List Json) : Except Thrown (Option String) :=
  match userContext with
  | none => .ok none
  | some ctx =>
    if !truthy tournamentIds.length? then .ok none else
    match tournamentIds.iterate? with
    | none => .error typeError
    | some ids => .ok (ids.findSome? (gateTournament s ctx requested methods))

/-- `eqd?.tournamentIds ?? (eqd?.tournamentId ? [eqd.tournamentId] : [])`. -/
def gateTournamentIds (body : Json) : Json :=
  let tournamentId := body.field? "tournamentId"
  (coalesce (body.field? "tournamentIds")
    (some (.arr (if truthy tournamentId then tournamentId.toList else [])))).getD (.arr [])

/-- The ids the loop of the gate visits. -/
def gatedIds (body : Json) : List Json :=
  if truthy (gateTournamentIds body).length? then (gateTournamentIds body).iterate?.getD [] else []

variable {s}

/-- Whether the loop of the gate can visit the ids it is given. -/
def iterable (body : Json) : Bool :=
  !truthy (gateTournamentIds body).length? || (gateTournamentIds body).iterate?.isSome

/-- What a clear gate says: nobody was checked, or every visited tournament passed. -/
theorem gate_clear_iff {userContext : Option UserContext} {body : Json}
    {requested methods : List Json} :
    gate s userContext (gateTournamentIds body) requested methods = .ok none ↔
      ∀ ctx, userContext = some ctx → iterable body = true ∧
        ∀ tid ∈ gatedIds body, gateTournament s ctx requested methods tid = none := by
  cases userContext with
  | none => simp [gate]
  | some ctx =>
    simp only [gate, iterable, gatedIds, Option.some.injEq, forall_eq']
    cases truthy (gateTournamentIds body).length? with
    | false => simp
    | true =>
      cases (gateTournamentIds body).iterate? with
      | none => simp
      | some ids => simp [List.findSome?_eq_none_iff]

end FactoryServer.MutationGate
