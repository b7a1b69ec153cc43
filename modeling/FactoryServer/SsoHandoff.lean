import FactoryServer.GuardedRuns
import FactoryServer.RequestIdentity

/-!
# The handoff of a user by a provisioner

A provisioner generates a token for the user behind an external identity and for one
provider, and whoever presents the token gets a session. The token is kept in Redis and
taken out by the read that finds it. The login reads the identity, the user and the
membership tables one after the other, and any table can change in between.
-/

namespace FactoryServer.SsoHandoff

open GuardedRuns JsonValue RequestIdentity TournamentAccess

/-! ## Tables and tokens -/

/-- The tables a handoff reads. -/
structure SsoStore extends IdentityStore where
  /-- `sso_identities`: the user of an external identity. -/
  ssoIdentity : String → String → Option String
  /-- `users.email` of a user id. -/
  emailOf : String → Option String

/-- `SsoTokenPayload`. -/
structure SsoTokenPayload where
  externalId : String
  ssoProvider : String
  providerId : String
  provisionerId : String
  /-- A token is generated for a provider that is named. -/
  named : providerId ≠ ""

/-- `resolveActingProviderId`. -/
def resolveActingProviderId (requested : Option String)
    (associatedIds provisionerProviderIds : List String) (isSuperAdmin : Bool) : Option String :=
  match nonEmpty requested with
  | some choice =>
    if isSuperAdmin || associatedIds.contains choice || provisionerProviderIds.contains choice then
      some choice
    else none
  | none =>
    match associatedIds with
    | [only] => some only
    | _ => none

/-- The provider a session of a token acts for. -/
def actingProvider (payload : SsoTokenPayload) (ctx : UserContext) : Option String :=
  resolveActingProviderId (some payload.providerId) ctx.providerIds ctx.provisionerProviderIds
    ctx.isSuperAdmin

/-- The claims of a session. -/
def sessionClaims (payload : SsoTokenPayload) (row : UserRow) (ctx : UserContext) : JwtPayload :=
  let actingProviderId := actingProvider payload ctx
  { email := some row.email
    sub := none
    userId := some row.userId
    roles := some row.roles
    aud := some (.str "admin")
    purpose := none
    providerId := actingProviderId
    providerIds := ctx.providerIds
    provisionerIds := none
    providerSelectionRequired :=
      actingProviderId.isNone && !ctx.isSuperAdmin && decide (1 < ctx.providerIds.length) }

/-- A session that was issued. -/
structure Session where
  /-- The token it was issued for. -/
  token : ℕ
  payload : SsoTokenPayload
  /-- The user behind the identity. -/
  userId : String
  /-- The context of its claims. -/
  context : UserContext
  claims : JwtPayload
  /-- The provider its refresh token is pinned to. -/
  refreshProviderId : Option String
  /-- The tables when it was issued. -/
  store : SsoStore

/-! ## The two calls -/

/-- Where a login stands, before a read of the tables. -/
inductive LoginStage where
  /-- `findByExternalId`. -/
  | identifying
  /-- `findUserById`: `userProviderStorage.findByUserId`. -/
  | finding (userId : String)
  /-- `findUserById`: `userStorage.findOne`. -/
  | fetching (userId email : String)
  /-- `buildUserContext`. -/
  | building (userId : String) (row : UserRow)
  /-- The tokens of the session are issued. -/
  | issuing (userId : String) (row : UserRow) (context : UserContext)

/-- A login that has consumed its token. -/
structure Login where
  token : ℕ
  payload : SsoTokenPayload
  stage : LoginStage

/-- The tables, the tokens and the calls. -/
structure State where
  store : SsoStore
  /-- The tokens in Redis. -/
  tokens : List (ℕ × SsoTokenPayload)
  /-- The next token, which no call can guess. -/
  nextToken : ℕ
  logins : List Login
  sessions : List Session

/-- No token was generated yet. -/
def opened (store : SsoStore) : State := ⟨store, [], 0, [], []⟩

/-- `POST /auth/sso/generate`, with the credentials of a provisioner. -/
def generate (s : State) (provisionerId externalId ssoProvider providerId : String) : State :=
  if h : externalId = "" ∨ ssoProvider = "" ∨ providerId = "" then s
  else
    match s.store.ssoIdentity ssoProvider externalId with
    | none => s
    | some _ =>
      let payload : SsoTokenPayload := ⟨externalId, ssoProvider, providerId, provisionerId,
        fun hp => h (Or.inr (Or.inr hp))⟩
      { s with tokens := s.tokens ++ [(s.nextToken, payload)], nextToken := s.nextToken + 1 }

/-- `POST /auth/sso/login-with-token` until its token is consumed. -/
def loginWithToken (s : State) (token : ℕ) : State :=
  match s.tokens.find? fun entry => entry.1 = token with
  | none => s
  | some entry =>
    { s with
      tokens := s.tokens.filter fun entry => entry.1 ≠ token
      logins := s.logins ++ [⟨token, entry.2, .identifying⟩] }

/-- What the next read of a login finds, or nothing when the login ends with an error. -/
def nextStage (store : SsoStore) (payload : SsoTokenPayload) : LoginStage → Option LoginStage
  | .identifying =>
    (store.ssoIdentity payload.ssoProvider payload.externalId).map .finding
  | .finding userId =>
    match store.userProviders userId with
    | [] => none
    | _ :: _ => (nonEmpty (store.emailOf userId)).map (.fetching userId)
  | .fetching userId email => (store.findUser email).map (.building userId)
  | .building userId row =>
    some (.issuing userId row (buildUserContext store.toIdentityStore row))
  | .issuing _ _ _ => none

/-- The session a login issues in the end. -/
def issuedSession (store : SsoStore) (login : Login) : Option Session :=
  match login.stage with
  | .issuing userId row context =>
    let acting := actingProvider login.payload context
    some
      { token := login.token
        payload := login.payload
        userId := userId
        context := context
        claims := sessionClaims login.payload row context
        refreshProviderId := if acting = some login.payload.providerId then acting else none
        store := store }
  | _ => none

/-- A login goes on. -/
def resume (s : State) (position : ℕ) : State :=
  match s.logins[position]? with
  | none => s
  | some login =>
    match nextStage s.store login.payload login.stage with
    | some stage => { s with logins := s.logins.set position { login with stage := stage } }
    | none =>
      { s with
        logins := s.logins.eraseIdx position
        sessions := s.sessions ++ (issuedSession s.store login).toList }

/-- What happens. -/
inductive SsoAction where
  /-- A provisioner generates a token. -/
  | generate (provisionerId externalId ssoProvider providerId : String)
  /-- A token expires. -/
  | expire (token : ℕ)
  /-- Somebody presents a token. -/
  | login (token : ℕ)
  /-- A read of a login is answered. -/
  | resume (position : ℕ)
  /-- A login fails. -/
  | abandon (position : ℕ)
  /-- The tables change. -/
  | change (store : SsoStore)

/-- One step. -/
def step (s : State) : SsoAction → State
  | .generate provisionerId externalId ssoProvider providerId =>
    generate s provisionerId externalId ssoProvider providerId
  | .expire token => { s with tokens := s.tokens.filter fun entry => entry.1 ≠ token }
  | .login token => loginWithToken s token
  | .resume position => resume s position
  | .abandon position => { s with logins := s.logins.eraseIdx position }
  | .change store => { s with store := store }

/-! ## What is promised -/

/-- A provisioner manages a provider. -/
def Manages (store : SsoStore) (provisionerId providerId : String) : Prop :=
  (getRelationship store.associations provisionerId providerId).isSome = true

/-- The providers a user is associated with. -/
def providersOf (store : SsoStore) (userId : String) : List String :=
  (store.userProviders userId).map Prod.fst

/-- The provisioner manages the provider that is named and one of the user's. -/
structure Reaches (store : SsoStore) (payload : SsoTokenPayload) (userId : String) : Prop where
  /-- The provider of the token. -/
  provider : Manages store payload.provisionerId payload.providerId
  /-- A provider of the user. -/
  user : ∃ providerId ∈ providersOf store userId, Manages store payload.provisionerId providerId

/-- The context of the requests made with a session. -/
def Session.requestContext (session : Session) : UserContext :=
  withSessionChoice session.claims session.context

/-- A session stays inside the reach of the provisioner of its token. -/
structure WithinReach (session : Session) : Prop where
  reaches : Reaches session.store session.payload session.userId
  /-- It acts for the provider of its token only. -/
  only : ∀ providerId, actingProviderAllows (some session.requestContext) providerId = true →
    providerId = session.payload.providerId
  /-- So do the sessions it is refreshed to. -/
  refreshed : ∀ providerId ∈ session.refreshProviderId, providerId = session.payload.providerId

/-- The promises of the handoff. -/
structure Promised (s : State) : Prop where
  sessions : ∀ session ∈ s.sessions, WithinReach session
  /-- Each token yields at most one session. -/
  once : (s.sessions.map Session.token).Nodup

/-! ## The condition -/

/-- The session of a user with this context acts for one provider only: the user is no
super-admin, and has the provider, or reaches it as a provisioner, or has several others and
is asked to choose. -/
def Narrow (providerId : String) (ctx : UserContext) : Prop :=
  ctx.isSuperAdmin = false ∧
    (providerId ∈ ctx.providerIds ∨ providerId ∈ ctx.provisionerProviderIds ∨
      1 < ctx.providerIds.length)

/-- The session of a user row would be narrow. -/
def NarrowRow (store : SsoStore) (payload : SsoTokenPayload) (row : UserRow) : Prop :=
  Narrow payload.providerId (buildUserContext store.toIdentityStore row)

/-- A login is entitled to its session as far as it has come. -/
def Entitled (store : SsoStore) (payload : SsoTokenPayload) : LoginStage → Prop
  | .identifying => ∀ userId, store.ssoIdentity payload.ssoProvider payload.externalId =
      some userId → Reaches store payload userId ∧
        ∀ email, store.emailOf userId = some email →
          ∀ row, store.findUser email = some row → NarrowRow store payload row
  | .finding userId => Reaches store payload userId ∧
      ∀ email, store.emailOf userId = some email →
        ∀ row, store.findUser email = some row → NarrowRow store payload row
  | .fetching userId email => Reaches store payload userId ∧
      ∀ row, store.findUser email = some row → NarrowRow store payload row
  | .building userId row => Reaches store payload userId ∧ NarrowRow store payload row
  | .issuing userId _ _ => Reaches store payload userId

/-- Whoever generates a token is entitled to its session, and no change of the tables takes
that away from a token or from a login. -/
def Entitles (s : State) : SsoAction → Prop
  | .generate provisionerId externalId ssoProvider providerId =>
    ∀ hnamed : providerId ≠ "",
      Entitled s.store ⟨externalId, ssoProvider, providerId, provisionerId, hnamed⟩ .identifying
  | .change store =>
    (∀ entry ∈ s.tokens, Entitled store entry.2 .identifying) ∧
      ∀ login ∈ s.logins, Entitled store login.payload login.stage
  | _ => True

end FactoryServer.SsoHandoff
