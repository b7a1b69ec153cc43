import FactoryServer.TournamentAccess

/-!
# The identity of a request

Three middlewares run on every HTTP request in a fixed order: the JWT
middleware, the provider API-key middleware and the provisioner middleware.
The global guard and the guards of the route then decide whether the handler
runs. A socket message passes one guard of its own. Token verification and
key hashing are parameters; everything that is decided afterwards is here.
-/

namespace FactoryServer.RequestIdentity

open JsonValue TournamentAccess

/-- Claims of a verified JWT. -/
structure JwtPayload where
  /-- Login email claim. -/
  email : Option String
  /-- Subject claim. -/
  sub : Option String
  /-- User id claim. -/
  userId : Option String
  /-- Global roles claim. -/
  roles : Option (List String)
  /-- Audience claim: a string, an array of strings, or anything else. -/
  aud : Option Json
  /-- Present on limited-purpose tokens. -/
  purpose : Option Json
  /-- The provider chosen at login. -/
  providerId : Option String
  /-- Legacy provider list. -/
  providerIds : List String
  /-- Provisioners the user represented when the token was issued. -/
  provisionerIds : Option (List String)
  /-- The session still has to choose a provider. -/
  providerSelectionRequired : Bool
  deriving Repr

/-- Verification of tokens and hashing of keys. An API key never verifies as
a JWT, because its first segment does not decode to a header. -/
structure TokenVerifier where
  /-- `verifyJwt`, with a thrown rejection as `none`. -/
  verifyJwt : String → Option JwtPayload
  /-- SHA-256 of an API key. -/
  hashApiKey : String → String
  /-- Provisioner keys are not JWTs. -/
  prov_rejected : ∀ token, startsWith token "prov_" = true → verifyJwt token = none
  /-- Provider keys are not JWTs. -/
  pkey_rejected : ∀ token, startsWith token "pkey_" = true → verifyJwt token = none

/-- A row of the users table. -/
structure UserRow where
  /-- Primary key. -/
  userId : String
  /-- Login email. -/
  email : String
  /-- Global roles column. -/
  roles : List String
  /-- Legacy provider list inside `data`. -/
  providerIds : List String
  /-- Legacy home inside `data`. -/
  providerId : Option String
  deriving Repr

/-- How a provisioner is associated with a provider. -/
inductive Relationship where
  | owner
  | subsidiary
  deriving DecidableEq, Repr

/-- A row of `provisioner_providers`. -/
structure Association where
  /-- The managing provisioner. -/
  provisionerId : String
  /-- The managed provider. -/
  providerId : String
  /-- Owner or subsidiary. -/
  relationship : Relationship
  /-- The provisioner that granted it. -/
  grantedBy : Option String
  deriving DecidableEq, Repr

/-- A row of `provisioners`. -/
structure Provisioner where
  /-- Primary key. -/
  provisionerId : String
  /-- Display name. -/
  name : String
  /-- Inactive provisioners attach no identity. -/
  isActive : Bool
  deriving DecidableEq, Repr

/-- A live API key with the name of its holder. -/
structure ApiKey where
  /-- The provisioner or provider the key belongs to. -/
  holderId : String
  /-- Its display name. -/
  holderName : String
  /-- Key id. -/
  keyId : String
  deriving DecidableEq, Repr

/-- The identity tables. -/
structure IdentityStore where
  /-- `usersService.findOne`, by login email. -/
  findUser : String → Option UserRow
  /-- `user_providers` rows of a user id, as provider and role. -/
  userProviders : String → List (String × String)
  /-- `user_provisioners` rows of a user id. -/
  userProvisioners : String → List String
  /-- `provisioner_providers`. -/
  associations : List Association
  /-- `provisioners`. -/
  provisioners : List Provisioner
  /-- Live provisioner key of a hash. -/
  provisionerKey : String → Option ApiKey
  /-- Live provider key of a hash. -/
  providerKey : String → Option ApiKey

/-- `getRelationship(provisionerId, providerId)`. -/
def getRelationship (associations : List Association) (provisionerId providerId : String) :
    Option Relationship :=
  (associations.find? fun a => a.provisionerId == provisionerId && a.providerId == providerId).map
    Association.relationship

/-- The parts of an HTTP request the identity code reads. -/
structure HttpRequest where
  /-- `req.baseUrl`. -/
  baseUrl : String
  /-- The authorization header, split at blanks. -/
  authorization : Option (List String)
  /-- `x-provider-id`. -/
  xProviderId : Option String
  /-- `x-provisioner-id`, trimmed. -/
  xProvisionerId : Option String
  deriving Repr

/-- `request.provisioner`. -/
structure ProvisionerIdentity where
  /-- The acting provisioner. -/
  provisionerId : String
  /-- Its name. -/
  name : String
  /-- The key used, absent on the JWT path. -/
  keyId : Option String
  deriving DecidableEq, Repr

/-- What the middlewares and the guard have written onto a request. -/
structure RequestState where
  /-- `request.user`. -/
  user : Option RequestUser
  /-- `request.userContext`. -/
  userContext : Option UserContext
  /-- `request.provisioner`. -/
  provisioner : Option ProvisionerIdentity
  /-- `request.provider`, by provider id. -/
  provider : Option String
  /-- `request.provisionerRelationship`. -/
  provisionerRelationship : Option Relationship
  deriving Repr

/-- A request before any middleware ran. -/
def anonymous : RequestState := ⟨none, none, none, none, none⟩

/-- Role of users that represent a provisioner. -/
def PROVISIONER : String := "provisioner"

/-- Roles of every synthetic API-key caller: CLIENT, GENERATE and SCORE. -/
def KEY_ROLES : List String := ["client", "generate", "score"]

/-- Does the `aud` claim grant admin access? A missing claim does. -/
def tokenHasAdminAudience (aud : Option Json) : Bool :=
  match aud with
  | none => true
  | some .null => true
  | some (.str s) => s == "admin"
  | some (.arr items) => items.any fun item => item.str? == some "admin"
  | some _ => false

/-- Does the `aud` claim overlap the required audiences? -/
def audienceMatches (tokenAud : Option Json) (required : List String) : Bool :=
  let tokenAuds :=
    match tokenAud with
    | some (.arr items) => items.filterMap Json.str?
    | some (.str s) => [s]
    | _ => ["admin"]
  required.any tokenAuds.contains

/-- A database row as `request.user`. -/
def UserRow.toUser (row : UserRow) : RequestUser :=
  ⟨some row.userId, none, some row.email, some row.roles, row.providerIds, row.providerId⟩

/-- Verified claims as `request.user`. -/
def JwtPayload.toUser (payload : JwtPayload) : RequestUser :=
  ⟨payload.userId, payload.sub, payload.email, payload.roles, payload.providerIds,
    payload.providerId⟩

/-- Providers reached through the provisioners a user administers. -/
def inheritedProviderIds (store : IdentityStore) (userId : String) : List String :=
  ((store.userProvisioners userId).flatMap fun provisionerId =>
    (store.associations.filter fun a => a.provisionerId == provisionerId).map
      Association.providerId).dedup

/-- Hydrate the context of a user row from the membership tables. -/
def buildUserContext (store : IdentityStore) (user : UserRow) : UserContext :=
  let isSuperAdmin := user.roles.contains SUPER_ADMIN
  let rows := store.userProviders user.userId
  { userId := user.userId
    email := user.email
    isSuperAdmin := isSuperAdmin
    globalRoles := user.roles
    providerRoles := rows
    providerIds := rows.map Prod.fst
    provisionerProviderIds :=
      if !isSuperAdmin && user.roles.contains PROVISIONER then
        inheritedProviderIds store user.userId
      else []
    actingProviderId := none
    providerSelectionPending := false }

/-- The session's own choice, carried by the token. -/
def withSessionChoice (payload : JwtPayload) (ctx : UserContext) : UserContext :=
  { ctx with
    actingProviderId := nonEmpty payload.providerId
    providerSelectionPending := payload.providerSelectionRequired }

/-- Second part of the authorization header, when not empty. -/
def headerToken (request : HttpRequest) : Option String :=
  nonEmpty (request.authorization.bind fun parts => parts[1]?)

/-- The token of a `Bearer` header. -/
def bearerToken (request : HttpRequest) : Option String :=
  if (request.authorization.bind fun parts => parts[0]?) = some "Bearer" then
    headerToken request
  else none

/-- `AuthMiddleware.use`: limited-purpose tokens set no identity here. -/
def authMiddleware (verifier : TokenVerifier) (store : IdentityStore) (request : HttpRequest)
    (state : RequestState) : RequestState :=
  if request.baseUrl = "" then state else
  match (headerToken request).bind verifier.verifyJwt with
  | none => state
  | some payload =>
    match payload.email with
    | none => state
    | some email =>
      if truthy payload.purpose then state else
      match store.findUser email with
      | none => { state with user := none }
      | some row =>
        { state with
          user := some row.toUser
          userContext := if tokenHasAdminAudience payload.aud then
              some (withSessionChoice payload (buildUserContext store row))
            else state.userContext }

/-- Synthetic user of an API-key caller acting for one provider. -/
def keyUser (principal email providerId : String) : RequestUser :=
  ⟨some principal, none, some email, some KEY_ROLES, [], some providerId⟩

/-- Synthetic context: administrator of exactly one provider. -/
def keyContext (principal email providerId : String) (acting : Option String) : UserContext :=
  { userId := principal
    email := email
    isSuperAdmin := false
    globalRoles := KEY_ROLES
    providerRoles := [(providerId, PROVIDER_ADMIN)]
    providerIds := [providerId]
    provisionerProviderIds := []
    actingProviderId := acting
    providerSelectionPending := false }

/-- `ProviderApiKeyMiddleware.use`. -/
def providerApiKeyMiddleware (verifier : TokenVerifier) (store : IdentityStore)
    (request : HttpRequest) (state : RequestState) : RequestState :=
  match bearerToken request with
  | none => state
  | some token =>
    if !startsWith token "pkey_" then state else
    match store.providerKey (verifier.hashApiKey token) with
    | none => state
    | some key =>
      let principal := "provider:" ++ key.holderId
      let email := "key@" ++ key.holderName
      { state with
        provider := some key.holderId
        user := some (keyUser principal email key.holderId)
        userContext := some (keyContext principal email key.holderId none) }

/-- The provider a provisioner request names, when the provisioner manages it. -/
def managedProvider (store : IdentityStore) (provisionerId : String) (request : HttpRequest) :
    Option (String × Relationship) :=
  match nonEmpty request.xProviderId with
  | none => none
  | some providerId =>
    (getRelationship store.associations provisionerId providerId).map (providerId, ·)

/-- The synthetic identity a provisioner acts under for one provider. -/
def asProvisioner (provisionerId name providerId : String) (state : RequestState) :
    RequestState :=
  let principal := PROVISIONER_ACTOR_PREFIX ++ provisionerId
  let email := "provisioner@" ++ name
  { state with
    user := some (keyUser principal email providerId)
    userContext := some (keyContext principal email providerId (some providerId)) }

/-- An existing context widened by a verified provisioner relationship. -/
def mergeProvider (providerId : String) (ctx : UserContext) : UserContext :=
  { ctx with
    providerRoles := if (ctx.roleAt providerId).isSome then ctx.providerRoles
      else (providerId, PROVIDER_ADMIN) :: ctx.providerRoles
    providerIds := if ctx.providerIds.contains providerId then ctx.providerIds
      else ctx.providerIds ++ [providerId]
    actingProviderId := some providerId
    providerSelectionPending := false }

/-- The provisioner a token attaches: the header's choice when the token lists
it, else the first of its list, provided that it exists and is active. -/
def attachedProvisioner (store : IdentityStore) (payload : JwtPayload) (request : HttpRequest) :
    Option Provisioner :=
  if !(payload.roles.any fun roles => roles.contains PROVISIONER) then none else
  match payload.provisionerIds with
  | none => none
  | some [] => none
  | some (first :: others) =>
    let chosen :=
      match nonEmpty request.xProvisionerId with
      | some id => if (first :: others).contains id then id else first
      | none => first
    (store.provisioners.find? fun p => p.provisionerId == chosen).filter Provisioner.isActive

/-- `attachProvisionerFromJwt`. -/
def attachProvisionerFromJwt (store : IdentityStore) (payload : JwtPayload)
    (request : HttpRequest) (state : RequestState) : RequestState :=
  match attachedProvisioner store payload request with
  | none => state
  | some provisioner =>
    let attached := { state with
      provisioner := some ⟨provisioner.provisionerId, provisioner.name, none⟩ }
    match managedProvider store provisioner.provisionerId request with
    | none => attached
    | some (providerId, relationship) =>
      let related := { attached with provisionerRelationship := some relationship }
      match state.user with
      | some user =>
        { related with
          user := some { user with providerId := some providerId }
          userContext := state.userContext.map (mergeProvider providerId) }
      | none => asProvisioner provisioner.provisionerId provisioner.name providerId related

/-- The API-key path of `ProvisionerMiddleware.use`. -/
def provisionerKeyPath (store : IdentityStore) (key : ApiKey) (request : HttpRequest)
    (state : RequestState) : RequestState :=
  let attached := { state with
    provisioner := some ⟨key.holderId, key.holderName, some key.keyId⟩ }
  match managedProvider store key.holderId request with
  | none => attached
  | some (providerId, relationship) =>
    asProvisioner key.holderId key.holderName providerId
      { attached with provisionerRelationship := some relationship }

/-- `ProvisionerMiddleware.use`. -/
def provisionerMiddleware (verifier : TokenVerifier) (store : IdentityStore)
    (request : HttpRequest) (state : RequestState) : RequestState :=
  match bearerToken request with
  | none => state
  | some token =>
    if !startsWith token "prov_" then
      match verifier.verifyJwt token with
      | none => state
      | some payload => attachProvisionerFromJwt store payload request state
    else
      match store.provisionerKey (verifier.hashApiKey token) with
      | none => state
      | some key => provisionerKeyPath store key request state

/-- The middlewares in the order the modules register them. -/
def runMiddlewares (verifier : TokenVerifier) (store : IdentityStore) (request : HttpRequest) :
    RequestState :=
  provisionerMiddleware verifier store request
    (providerApiKeyMiddleware verifier store request
      (authMiddleware verifier store request anonymous))

/-- What a route declares to the guards. -/
structure Route where
  /-- `@Public()`. -/
  isPublic : Bool
  /-- `@Audience([...])`, absent when not declared. -/
  audiences : Option (List String)
  /-- `@Roles([...])` behind the roles guard, absent when not declared. -/
  roles : Option (List String)
  /-- Every other guard of the controller and the method. -/
  guards : RequestState → Bool

/-- The audiences a route accepts; admin when it declares none. -/
def Route.required (route : Route) : List String := route.audiences.getD ["admin"]

/-- `AuthGuard.canActivate` on an HTTP request; `none` is a 401. -/
def authGuard (verifier : TokenVerifier) (route : Route) (request : HttpRequest)
    (state : RequestState) : Option RequestState :=
  if route.isPublic then some state else
  if state.provisioner.isSome || state.provider.isSome then some state else
  match (bearerToken request).bind verifier.verifyJwt with
  | none => none
  | some payload =>
    if audienceMatches payload.aud route.required then
      some { state with user := some payload.toUser }
    else none

/-- `RolesGuard.canActivate`: role names are compared without case. -/
def rolesGuard (roles : Option (List String)) (user : Option RequestUser) : Bool :=
  match roles with
  | none => true
  | some required =>
    (user.bind RequestUser.roles).any fun held =>
      held.any fun role => required.any fun item => sameLowerCase item role

/-- The state a handler runs with, or `none` when some guard refuses. -/
def admission (verifier : TokenVerifier) (store : IdentityStore) (route : Route)
    (request : HttpRequest) : Option RequestState :=
  (authGuard verifier route request (runMiddlewares verifier store request)).filter
    fun state => rolesGuard route.roles state.user && route.guards state

/-- The JWT middleware writes the user and the context, and nothing else. -/
theorem authMiddleware_frame (verifier : TokenVerifier) (store : IdentityStore)
    (request : HttpRequest) (state : RequestState) :
    ∃ user ctx, authMiddleware verifier store request state =
      { state with user := user, userContext := ctx } := by
  unfold authMiddleware
  split_ifs
  · exact ⟨_, _, rfl⟩
  · cases (headerToken request).bind verifier.verifyJwt with
    | none => exact ⟨_, _, rfl⟩
    | some payload =>
      dsimp only
      cases payload.email with
      | none => exact ⟨_, _, rfl⟩
      | some email =>
        dsimp only
        by_cases ht : truthy payload.purpose = true
        · rw [if_pos ht]; exact ⟨_, _, rfl⟩
        · rw [if_neg ht]
          cases store.findUser email <;> exact ⟨_, _, rfl⟩

/-- The provider API-key middleware writes no provisioner and no relationship. -/
theorem providerApiKeyMiddleware_frame (verifier : TokenVerifier) (store : IdentityStore)
    (request : HttpRequest) (state : RequestState) :
    ∃ user ctx provider, providerApiKeyMiddleware verifier store request state =
      { state with user := user, userContext := ctx, provider := provider } := by
  unfold providerApiKeyMiddleware
  cases bearerToken request with
  | none => exact ⟨_, _, _, rfl⟩
  | some token =>
    dsimp only
    split_ifs
    · exact ⟨_, _, _, rfl⟩
    · cases store.providerKey (verifier.hashApiKey token) <;> exact ⟨_, _, _, rfl⟩

/-- A managed provider is the header's, with the relationship of the table. -/
theorem managedProvider_eq_some {store : IdentityStore} {provisionerId : String}
    {request : HttpRequest} {related : String × Relationship}
    (h : managedProvider store provisionerId request = some related) :
    nonEmpty request.xProviderId = some related.1 ∧
      getRelationship store.associations provisionerId related.1 = some related.2 := by
  unfold managedProvider at h
  cases hx : nonEmpty request.xProviderId with
  | none => simp [hx] at h
  | some providerId =>
    rw [hx] at h
    obtain ⟨r, hr, rfl⟩ := Option.map_eq_some_iff.mp h
    exact ⟨rfl, hr⟩

/-- What a relationship on the request says: it was looked up for the acting
provisioner and the provider of the header. -/
def RelationshipVerified (store : IdentityStore) (request : HttpRequest)
    (state : RequestState) : Prop :=
  ∀ relationship, state.provisionerRelationship = some relationship →
    ∃ provisioner providerId, state.provisioner = some provisioner ∧
      nonEmpty request.xProviderId = some providerId ∧
      getRelationship store.associations provisioner.provisionerId providerId = some relationship

theorem attachProvisionerFromJwt_verified {store : IdentityStore} {payload : JwtPayload}
    {request : HttpRequest} {state : RequestState} (h : state.provisionerRelationship = none) :
    RelationshipVerified store request (attachProvisionerFromJwt store payload request state) := by
  intro relationship hr
  unfold attachProvisionerFromJwt at hr ⊢
  cases ha : attachedProvisioner store payload request with
  | none => rw [ha] at hr; rw [h] at hr; cases hr
  | some provisioner =>
    simp only [ha] at hr ⊢
    cases hm : managedProvider store provisioner.provisionerId request with
    | none => simp [hm, h] at hr
    | some related =>
      obtain ⟨hx, hg⟩ := managedProvider_eq_some hm
      simp only [hm] at hr ⊢
      cases hu : state.user with
      | none =>
        simp only [hu, asProvisioner, Option.some.injEq] at hr ⊢
        exact ⟨_, related.1, rfl, hx, hr ▸ hg⟩
      | some user =>
        simp only [hu, Option.some.injEq] at hr ⊢
        exact ⟨_, related.1, rfl, hx, hr ▸ hg⟩

theorem provisionerKeyPath_verified {store : IdentityStore} {key : ApiKey}
    {request : HttpRequest} {state : RequestState} (h : state.provisionerRelationship = none) :
    RelationshipVerified store request (provisionerKeyPath store key request state) := by
  intro relationship hr
  unfold provisionerKeyPath at hr ⊢
  cases hm : managedProvider store key.holderId request with
  | none => simp [hm, h] at hr
  | some related =>
    obtain ⟨hx, hg⟩ := managedProvider_eq_some hm
    simp only [hm, asProvisioner, Option.some.injEq] at hr ⊢
    exact ⟨_, related.1, rfl, hx, hr ▸ hg⟩

/-- Every relationship the middlewares leave on a request is verified. -/
theorem runMiddlewares_verified (verifier : TokenVerifier) (store : IdentityStore)
    (request : HttpRequest) :
    RelationshipVerified store request (runMiddlewares verifier store request) := by
  obtain ⟨user, ctx, ha⟩ := authMiddleware_frame verifier store request anonymous
  obtain ⟨user', ctx', provider, hk⟩ :=
    providerApiKeyMiddleware_frame verifier store request
      { anonymous with user := user, userContext := ctx }
  have hn : ({ anonymous with user := user', userContext := ctx', provider := provider } :
      RequestState).provisionerRelationship = none := rfl
  unfold runMiddlewares
  rw [ha, hk]
  unfold provisionerMiddleware
  cases bearerToken request with
  | none => intro relationship hr; cases hr
  | some token =>
    dsimp only
    split_ifs
    · cases verifier.verifyJwt token with
      | none => intro relationship hr; cases hr
      | some payload => exact attachProvisionerFromJwt_verified hn
    · cases store.provisionerKey (verifier.hashApiKey token) with
      | none => intro relationship hr; cases hr
      | some key => exact provisionerKeyPath_verified hn

end FactoryServer.RequestIdentity
