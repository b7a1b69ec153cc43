import FactoryServer.JsonValue

/-!
# Per-tournament access decisions

The helpers every authorization gate is made of: the provider-level check of
a request, the provider a session acts for, and the view, mutate and delete
decisions on one tournament. All of them are pure functions of the hydrated
user context and of the few fields of a record that they read.
-/

namespace FactoryServer.TournamentAccess

open JsonValue

/-- A named extension of a tournament record. -/
structure Extension where
  /-- Extension name, such as `createdByUserId`. -/
  name : String
  /-- Arbitrary JSON value. -/
  value : Json
  deriving Repr

/-- A tournament record. The fields are those the server reads; everything
the competition engine owns is one opaque value. -/
structure TournamentRecord where
  /-- Identity inside the record: a client may send any JSON value here. -/
  tournamentId : Option Json
  /-- `parentOrganisation?.organisationId`, the owning provider. -/
  organisationId : Option String
  /-- Record-level extensions. -/
  extensions : List Extension
  /-- Display name. -/
  tournamentName : Option String
  /-- First day, `YYYY-MM-DD`. -/
  startDate : Option String
  /-- Last day, `YYYY-MM-DD`. -/
  endDate : Option String
  /-- Mock tournaments may be deleted at any time. -/
  isMock : Bool
  /-- Events, participants, venues and every other attribute. -/
  content : Json
  deriving Repr

/-- Multi-provider user context, hydrated per request. -/
structure UserContext where
  /-- Primary key of the users table, or a synthetic principal. -/
  userId : String
  /-- Login email. -/
  email : String
  /-- Global super-admin flag. -/
  isSuperAdmin : Bool
  /-- Capability roles. -/
  globalRoles : List String
  /-- Role per provider. -/
  providerRoles : List (String × String)
  /-- The providers of `providerRoles`. -/
  providerIds : List String
  /-- Providers reached through a provisioner the caller administers. -/
  provisionerProviderIds : List String
  /-- The provider the session acts for. -/
  actingProviderId : Option String
  /-- The session still has to choose a provider. -/
  providerSelectionPending : Bool
  deriving Repr

/-- `request.user`: the JWT payload, the database row or a synthetic caller. -/
structure RequestUser where
  /-- User id claim or column. -/
  userId : Option String
  /-- JWT subject. -/
  sub : Option String
  /-- Login email. -/
  email : Option String
  /-- Global roles, when the value carries any. -/
  roles : Option (List String)
  /-- Legacy provider list of a token. -/
  providerIds : List String
  /-- Legacy home provider, or the provider of a synthetic caller. -/
  providerId : Option String
  deriving Repr

/-- The role name that opens every gate. -/
def SUPER_ADMIN : String := "superadmin"

/-- Provider-scoped administrator. -/
def PROVIDER_ADMIN : String := "PROVIDER_ADMIN"

/-- Extension that stores the creating user's id. -/
def CREATED_BY_USER_ID : String := "createdByUserId"

/-- Actor prefix of a provisioner's API-key calls. -/
def PROVISIONER_ACTOR_PREFIX : String := "provisioner:"

/-- A string that survives a truthiness test. -/
def nonEmpty (value : Option String) : Option String :=
  value.filter (· ≠ "")

@[simp] theorem nonEmpty_none : nonEmpty none = none := rfl

theorem nonEmpty_eq_some {value : Option String} {s : String} :
    nonEmpty value = some s ↔ value = some s ∧ s ≠ "" := by
  cases value with
  | none => simp
  | some v =>
    simp only [nonEmpty, Option.filter, decide_eq_true_eq, Option.some.injEq]
    by_cases hv : v = ""
    · rw [if_neg (by simpa using hv)]
      constructor
      · intro h; cases h
      · rintro ⟨rfl, hs⟩; exact absurd hv hs
    · rw [if_pos hv, Option.some.injEq]
      constructor
      · rintro rfl; exact ⟨rfl, hv⟩
      · exact And.left

/-- `ENABLE_TOURNAMENT_ACCESS_SCOPING`: only the literal `false` disables it. -/
def isTournamentAccessScopingEnabled (raw : Option String) : Bool :=
  match raw with
  | none => true
  | some value => value == "" || value != "false"

/-- The owning provider, absent when empty. -/
def getTournamentProviderId (tournament : TournamentRecord) : Option String :=
  nonEmpty tournament.organisationId

/-- The record's own id as a non-empty string. -/
def tournamentIdOf (tournament : TournamentRecord) : Option String :=
  nonEmpty (tournament.tournamentId.bind Json.str?)

/-- Value of the first `createdByUserId` extension. -/
def getCreatedByUserId (tournament : TournamentRecord) : Option Json :=
  (tournament.extensions.find? fun e => e.name == CREATED_BY_USER_ID).map Extension.value

/-- Replace the creator, or remove it when none is given. -/
def setCreatedByUserId (tournament : TournamentRecord) (userId : Option Json) : TournamentRecord :=
  let others := tournament.extensions.filter fun e => e.name != CREATED_BY_USER_ID
  { tournament with
    extensions := if truthy userId then others ++ (userId.map (⟨CREATED_BY_USER_ID, ·⟩)).toList
      else others }

/-- Was the record created by a provisioner on a provider's behalf? -/
def isProvisionerCreated (createdBy : Option Json) : Bool :=
  match createdBy with
  | some (.str s) => startsWith s PROVISIONER_ACTOR_PREFIX
  | _ => false

/-- `createdBy && createdBy === userContext.userId`. -/
def isCreator (createdBy : Option Json) (userId : String) : Bool :=
  match createdBy with
  | some (.str s) => s != "" && s == userId
  | _ => false

/-- The role held at a provider, absent when empty. -/
def UserContext.roleAt (ctx : UserContext) (providerId : String) : Option String :=
  nonEmpty (ctx.providerRoles.lookup providerId)

/-- Can this user see this tournament? -/
def canViewTournament (scoping : Bool) (tournament : TournamentRecord)
    (userContext : Option UserContext) (assignedTournamentIds : List String) : Bool :=
  if !scoping then true else
  match userContext with
  | none => false
  | some ctx =>
    if ctx.isSuperAdmin then true else
    match getTournamentProviderId tournament with
    | none => true
    | some providerId =>
      if ctx.provisionerProviderIds.contains providerId then true else
      match ctx.roleAt providerId with
      | none => false
      | some role =>
        if role == PROVIDER_ADMIN then true else
        let createdBy := getCreatedByUserId tournament
        if isCreator createdBy ctx.userId then true else
        if (tournamentIdOf tournament).any assignedTournamentIds.contains then true else
        isProvisionerCreated createdBy

/-- Methods a scorer assignment may execute. -/
def SCORER_ALLOWED_METHODS : List String := ["setMatchUpStatus"]

/-- What an assignment role may mutate. -/
inductive AssignmentClass where
  | full
  | scorer
  | none
  deriving DecidableEq, Repr

/-- JavaScript upper-casing of one letter, as far as the two restricted role
names can tell: the long s has the capital `S` as well. -/
def upperLetter (c : Char) : Char := if c = 'ſ' then 'S' else c.toUpper

/-- Only the two roles whose names promise a restriction are restricted. -/
def classifyAssignmentRole (role : Option String) : AssignmentClass :=
  let normalized := (role.getD "").toList.map upperLetter
  if normalized = "OBSERVER".toList then .none
  else if normalized = "SCORER".toList then .scorer
  else .full

/-- Can this user save, or execute methods against, this tournament? -/
def canMutateTournament (scoping : Bool) (tournament : TournamentRecord)
    (userContext : Option UserContext) (assignedRoles : List (String × String))
    (requestedMethods : List String) : Bool :=
  if !canViewTournament scoping tournament userContext (assignedRoles.map Prod.fst) then false else
  if !scoping then true else
  match userContext with
  | none => true
  | some ctx =>
    if ctx.isSuperAdmin then true else
    match getTournamentProviderId tournament with
    | none => true
    | some providerId =>
      if ctx.provisionerProviderIds.contains providerId then true else
      if ctx.roleAt providerId == some PROVIDER_ADMIN then true else
      if isCreator (getCreatedByUserId tournament) ctx.userId then true else
      match classifyAssignmentRole
          ((tournamentIdOf tournament).bind fun id => assignedRoles.lookup id) with
      | .none => false
      | .scorer => !requestedMethods.isEmpty && requestedMethods.all SCORER_ALLOWED_METHODS.contains
      | .full => true

/-- Can this user delete this tournament? Never behind the scoping flag. -/
def canDeleteTournament (tournament : TournamentRecord) (userContext : Option UserContext)
    (assignedTournamentIds : List String) : Bool :=
  match userContext with
  | none => false
  | some ctx =>
    if ctx.isSuperAdmin then true else
    match getTournamentProviderId tournament with
    | none => false
    | some providerId =>
      if ctx.provisionerProviderIds.contains providerId then true else
      match ctx.roleAt providerId with
      | none => false
      | some role =>
        if role == PROVIDER_ADMIN then true else
        if isCreator (getCreatedByUserId tournament) ctx.userId then true else
        (tournamentIdOf tournament).any assignedTournamentIds.contains

/-- May this session touch a tournament of `providerId`? -/
def actingProviderAllows (userContext : Option UserContext) (providerId : String) : Bool :=
  match userContext with
  | none => true
  | some ctx =>
    if ctx.isSuperAdmin then true else
    if ctx.providerSelectionPending then false else
    match nonEmpty ctx.actingProviderId with
    | none => true
    | some acting => acting == providerId

/-- `user?.roles?.includes(role)`. -/
def hasRole (user : Option RequestUser) (role : String) : Bool :=
  (user.bind RequestUser.roles).any fun roles => roles.contains role

/-- Is the caller allowed to operate on tournaments at all? -/
def checkUser (user : Option RequestUser) (userContext : Option UserContext) : Bool :=
  userContext.any UserContext.isSuperAdmin ||
  userContext.any (fun ctx => !ctx.providerIds.isEmpty) ||
  userContext.any (fun ctx => !ctx.provisionerProviderIds.isEmpty) ||
  hasRole user SUPER_ADMIN || user.any fun u => !u.providerIds.isEmpty

/-- The provider list a request is checked against: the current memberships
when there are any, else the list the token carries. -/
def requestProviderIds (user : Option RequestUser) (userContext : Option UserContext) :
    List String :=
  let directIds :=
    match userContext with
    | some ctx => if ctx.providerIds.isEmpty then (user.map RequestUser.providerIds).getD []
        else ctx.providerIds
    | none => (user.map RequestUser.providerIds).getD []
  directIds ++ (userContext.map UserContext.provisionerProviderIds).getD []

/-- The check of one record: its provider is the caller's and the session's. -/
def checkProviderOf (user : Option RequestUser) (userContext : Option UserContext)
    (write : Bool) (record : TournamentRecord) : Bool :=
  match getTournamentProviderId record with
  | none => !write
  | some providerId =>
    (requestProviderIds user userContext).contains providerId &&
      actingProviderAllows userContext providerId

/-- Provider-level gate for the records of one request. -/
def checkProvider (records : List TournamentRecord) (user : Option RequestUser)
    (userContext : Option UserContext) (write : Bool) : Bool :=
  userContext.any UserContext.isSuperAdmin || hasRole user SUPER_ADMIN ||
    records.all (checkProviderOf user userContext write)

/-- With scoping off every tournament is visible. -/
@[simp] theorem canViewTournament_off (tournament : TournamentRecord)
    (userContext : Option UserContext) (assigned : List String) :
    canViewTournament false tournament userContext assigned = true := rfl

/-- With scoping off every tournament is mutable. -/
@[simp] theorem canMutateTournament_off (tournament : TournamentRecord)
    (userContext : Option UserContext) (roles : List (String × String)) (methods : List String) :
    canMutateTournament false tournament userContext roles methods = true := by
  simp [canMutateTournament]

/-- Without a context scoping hides every tournament. -/
@[simp] theorem canMutateTournament_anonymous (tournament : TournamentRecord)
    (roles : List (String × String)) (methods : List String) :
    canMutateTournament true tournament none roles methods = false := by
  simp [canMutateTournament, canViewTournament]

/-- What the acting-provider test says about a session that is no super-admin's. -/
theorem actingProviderAllows_iff {ctx : UserContext} (hs : ctx.isSuperAdmin = false)
    (providerId : String) :
    actingProviderAllows (some ctx) providerId = true ↔
      ctx.providerSelectionPending = false ∧
        ∀ acting, nonEmpty ctx.actingProviderId = some acting → acting = providerId := by
  simp only [actingProviderAllows, hs, Bool.false_eq_true, if_false]
  cases hpend : ctx.providerSelectionPending with
  | true => simp
  | false =>
    cases ha : nonEmpty ctx.actingProviderId with
    | none => simp
    | some acting => simp

end FactoryServer.TournamentAccess
