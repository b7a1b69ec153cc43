import FactoryServer.RequestIdentity

/-!
# Tournament assignments

A tournament assignment lets one user mutate one tournament. The console and
the provisioner routes both grant and revoke assignments, and both test the
authority of the caller over the provider that the request names, while the
table is keyed by tournament and user. This module states when the rows of a
tournament are in the hands of the provider stored on it.
-/

namespace FactoryServer.AssignmentControl

open TournamentAccess RequestIdentity

/-- The value columns of a `tournament_assignments` row. -/
structure AssignmentRow where
  /-- The provider the grant was made under. -/
  providerId : String
  /-- `DIRECTOR`, `SCORER` or any other role name. -/
  assignmentRole : String
  /-- The granting user, null for a provisioner. -/
  grantedBy : Option String
  deriving DecidableEq, Repr

/-- `tournament_assignments` by its primary key, tournament and then user. -/
abbrev AssignmentTable := String → String → Option AssignmentRow

/-- What the assignment services read. -/
structure AccessTables where
  /-- Users, memberships and provisioner associations. -/
  identity : IdentityStore
  /-- `parentOrganisation.organisationId` of the stored record. -/
  storedProvider : String → Option String
  /-- `tournament_provisioner`: the provisioner a tournament is stamped with. -/
  stamp : String → Option String
  /-- The text parses as a UUID. -/
  isUuid : String → Bool
  /-- Some users row has this `user_id`. -/
  isUserId : String → Bool

/-- Body of the grant and revoke requests; a revoke ignores the role. -/
structure AssignmentBody where
  /-- The tournament. -/
  tournamentId : String
  /-- The user, by login email. -/
  userEmail : String
  /-- The provider the caller claims to act for. -/
  providerId : String
  /-- Role to grant. -/
  role : Option String
  deriving DecidableEq, Repr

/-- Error text and code of a refused call. -/
structure Refusal where
  /-- `error`. -/
  error : String
  /-- `code`, given by the provisioner routes only. -/
  code : Option String
  deriving DecidableEq, Repr

/-- The answer of a call. -/
inductive Answer where
  /-- A guard refused the request. -/
  | unauthorized
  /-- The handler answered with an error. -/
  | refused (refusal : Refusal)
  /-- The statement was rejected by the database. -/
  | failed
  /-- A successful grant and the assignment it reports. -/
  | granted (tournamentId userId : String) (row : AssignmentRow) (email : String)
  /-- A successful revoke. -/
  | revoked
  deriving DecidableEq, Repr

/-- `isProviderAdminFor`. -/
def isProviderAdminFor (ctx : Option UserContext) (providerId : String) : Bool :=
  match ctx with
  | none => false
  | some ctx =>
    if providerId = "" then false
    else ctx.isSuperAdmin || ctx.providerRoles.lookup providerId == some PROVIDER_ADMIN

/-- The denial every caller of `isProviderAdminFor` returns. -/
def INSUFFICIENT_PERMISSIONS : Refusal :=
  ⟨"Insufficient permissions — must be PROVIDER_ADMIN or SUPER_ADMIN", none⟩

/-- `userProviderStorage.findOne(userId, providerId)` finds a row. -/
def isMember (tables : AccessTables) (userId providerId : String) : Bool :=
  ((tables.identity.userProviders userId).lookup providerId).isSome

/-- Write one row. -/
def AssignmentTable.put (table : AssignmentTable) (tournamentId userId : String)
    (row : Option AssignmentRow) : AssignmentTable :=
  fun t u => if t = tournamentId ∧ u = userId then row else table t u

/-- The ids of a row to insert parse as UUIDs. -/
def wellTyped (tables : AccessTables) (userId : String) (row : AssignmentRow) : Bool :=
  tables.isUuid userId && row.grantedBy.all tables.isUuid

/-- The ids of a row to insert name users. -/
def referencesUsers (tables : AccessTables) (userId : String) (row : AssignmentRow) : Bool :=
  tables.isUserId userId && row.grantedBy.all tables.isUserId

/-- `INSERT … ON CONFLICT (tournament_id, user_id) DO NOTHING`; `none` when an id is
no UUID or, for a row that is inserted, names no user. -/
def storageGrant (tables : AccessTables) (table : AssignmentTable) (tournamentId userId : String)
    (row : AssignmentRow) : Option AssignmentTable :=
  if wellTyped tables userId row then
    match table tournamentId userId with
    | some _ => some table
    | none =>
      if referencesUsers tables userId row then
        some (table.put tournamentId userId (some row))
      else none
  else none

/-- `DELETE … WHERE tournament_id = $1 AND user_id = $2`. -/
def storageRevoke (tables : AccessTables) (table : AssignmentTable)
    (tournamentId userId : String) : Option AssignmentTable :=
  if tables.isUuid userId then some (table.put tournamentId userId none) else none

/-- The role a grant stores. -/
def AssignmentBody.assignmentRole (body : AssignmentBody) : String :=
  (nonEmpty body.role).getD "DIRECTOR"

/-- The checks of the console's `grant`: the grantee and the row to insert. -/
def grantRow (tables : AccessTables) (grantor : Option UserContext) (body : AssignmentBody) :
    Except Refusal (String × AssignmentRow) :=
  if !isProviderAdminFor grantor body.providerId then .error INSUFFICIENT_PERMISSIONS else
  match tables.identity.findUser body.userEmail with
  | none => .error ⟨"User not found", none⟩
  | some grantee =>
    if grantee.userId = "" then
      .error ⟨"User has no UUID — schema migration may not have run", none⟩
    else if !isMember tables grantee.userId body.providerId then
      .error ⟨"User is not associated with this provider — invite them first", none⟩
    else
      .ok (grantee.userId,
        ⟨body.providerId, body.assignmentRole, grantor.map UserContext.userId⟩)

/-- The checks of the console's `revoke`: the user whose row is deleted. -/
def revokedUser (tables : AccessTables) (grantor : Option UserContext) (body : AssignmentBody) :
    Except Refusal String :=
  if !isProviderAdminFor grantor body.providerId then .error INSUFFICIENT_PERMISSIONS else
  match tables.identity.findUser body.userEmail with
  | none => .error ⟨"User not found", none⟩
  | some grantee => .ok grantee.userId

/-- The provisioner manages the provider of the request, and a subsidiary has
stamped the tournament. -/
def managesAssignments (tables : AccessTables) (provisionerId : String) (body : AssignmentBody)
    (notOwned : String) : Except Refusal Unit :=
  match getRelationship tables.identity.associations provisionerId body.providerId with
  | none => .error ⟨"Provider not managed by this provisioner", some "PROVIDER_NOT_MANAGED"⟩
  | some .owner => .ok ()
  | some .subsidiary =>
    if tables.stamp body.tournamentId = some provisionerId then .ok ()
    else .error ⟨notOwned, some "TOURNAMENT_NOT_OWNED"⟩

/-- The checks of the provisioner's `grantAssignment`. -/
def grantAssignmentRow (tables : AccessTables) (provisionerId : String) (body : AssignmentBody) :
    Except Refusal (String × AssignmentRow) :=
  match managesAssignments tables provisionerId body
      "Subsidiary provisioners can only assign users to their own tournaments" with
  | .error refusal => .error refusal
  | .ok () =>
    match tables.identity.findUser body.userEmail with
    | none => .error ⟨"User not found", some "USER_NOT_FOUND"⟩
    | some user =>
      if user.userId = "" then .error ⟨"User has no UUID", none⟩
      else if !isMember tables user.userId body.providerId then
        .error ⟨"User is not associated with this provider", some "USER_NOT_IN_PROVIDER"⟩
      else .ok (user.userId, ⟨body.providerId, body.assignmentRole, none⟩)

/-- The checks of the provisioner's `revokeAssignment`. -/
def revokedAssignmentUser (tables : AccessTables) (provisionerId : String)
    (body : AssignmentBody) : Except Refusal String :=
  match managesAssignments tables provisionerId body
      "Subsidiary provisioners can only manage their own tournaments" with
  | .error refusal => .error refusal
  | .ok () =>
    match tables.identity.findUser body.userEmail with
    | none => .error ⟨"User not found", some "USER_NOT_FOUND"⟩
    | some user => .ok user.userId

/-- The end of both grants: insert, and report the row that was asked for. -/
def finishGrant (tables : AccessTables) (table : AssignmentTable) (body : AssignmentBody) :
    Except Refusal (String × AssignmentRow) → AssignmentTable × Answer
  | .error refusal => (table, .refused refusal)
  | .ok (userId, row) =>
    match storageGrant tables table body.tournamentId userId row with
    | none => (table, .failed)
    | some after => (after, .granted body.tournamentId userId row body.userEmail)

/-- The end of both revokes. -/
def finishRevoke (tables : AccessTables) (table : AssignmentTable) (body : AssignmentBody) :
    Except Refusal String → AssignmentTable × Answer
  | .error refusal => (table, .refused refusal)
  | .ok userId =>
    match storageRevoke tables table body.tournamentId userId with
    | none => (table, .failed)
    | some after => (after, .revoked)

/-- `AssignmentsService.grant`. -/
def grant (tables : AccessTables) (table : AssignmentTable) (body : AssignmentBody)
    (grantor : Option UserContext) : AssignmentTable × Answer :=
  finishGrant tables table body (grantRow tables grantor body)

/-- `AssignmentsService.revoke`. -/
def revoke (tables : AccessTables) (table : AssignmentTable) (body : AssignmentBody)
    (grantor : Option UserContext) : AssignmentTable × Answer :=
  finishRevoke tables table body (revokedUser tables grantor body)

/-- `ProvisionerService.grantAssignment`. -/
def grantAssignment (tables : AccessTables) (table : AssignmentTable) (provisionerId : String)
    (body : AssignmentBody) : AssignmentTable × Answer :=
  finishGrant tables table body (grantAssignmentRow tables provisionerId body)

/-- `ProvisionerService.revokeAssignment`. -/
def revokeAssignment (tables : AccessTables) (table : AssignmentTable) (provisionerId : String)
    (body : AssignmentBody) : AssignmentTable × Answer :=
  finishRevoke tables table body (revokedAssignmentUser tables provisionerId body)

/-- The four routes: `factory/assignments/grant`, `…/revoke`, and
`provisioner/assignments/grant`, `…/revoke`. -/
inductive AssignmentRoute where
  | consoleGrant
  | consoleRevoke
  | provisionerGrant
  | provisionerRevoke
  deriving DecidableEq, Repr

/-- What a route declares; `moved` is `PROVISIONER_WRITES_MOVED`. -/
def AssignmentRoute.declared (moved : Bool) : AssignmentRoute → Route
  | .consoleGrant | .consoleRevoke => ⟨false, none, some ["client", "superadmin"], fun _ => true⟩
  | .provisionerGrant | .provisionerRevoke =>
    ⟨true, none, none, fun state => !moved && state.provisioner.isSome⟩

/-- One request to one of the routes. -/
structure AssignmentRequest where
  /-- Headers and path. -/
  http : HttpRequest
  /-- The route. -/
  route : AssignmentRoute
  /-- The parsed body. -/
  body : AssignmentBody

/-- The handler of a route. `req.provisioner` is set wherever the guards of a
provisioner route pass. -/
def perform (tables : AccessTables) (table : AssignmentTable) (state : RequestState)
    (body : AssignmentBody) : AssignmentRoute → AssignmentTable × Answer
  | .consoleGrant => grant tables table body state.userContext
  | .consoleRevoke => revoke tables table body state.userContext
  | .provisionerGrant =>
    match state.provisioner with
    | none => (table, .failed)
    | some provisioner => grantAssignment tables table provisioner.provisionerId body
  | .provisionerRevoke =>
    match state.provisioner with
    | none => (table, .failed)
    | some provisioner => revokeAssignment tables table provisioner.provisionerId body

/-- The guards, then the handler. -/
def handle (verifier : TokenVerifier) (moved : Bool) (tables : AccessTables)
    (table : AssignmentTable) (request : AssignmentRequest) : AssignmentTable × Answer :=
  match admission verifier tables.identity (request.route.declared moved) request.http with
  | none => (table, .unauthorized)
  | some state => perform tables table state request.body request.route

/-- The provider stored on a tournament gives this caller authority over it: a
console caller administers the provider, a provisioner owns it, or is its
subsidiary and has stamped the tournament. -/
def controls (tables : AccessTables) (state : RequestState) (route : AssignmentRoute)
    (tournamentId : String) : Bool :=
  match tables.storedProvider tournamentId with
  | none => false
  | some providerId =>
    match route with
    | .consoleGrant | .consoleRevoke => isProviderAdminFor state.userContext providerId
    | .provisionerGrant | .provisionerRevoke =>
      state.provisioner.any fun provisioner =>
        match getRelationship tables.identity.associations provisioner.provisionerId
          providerId with
        | none => false
        | some .owner => true
        | some .subsidiary => tables.stamp tournamentId == some provisioner.provisionerId

/-- The caller of an admitted request controls the tournament. -/
def callerControls (verifier : TokenVerifier) (moved : Bool) (tables : AccessTables)
    (request : AssignmentRequest) (tournamentId : String) : Bool :=
  (admission verifier tables.identity (request.route.declared moved) request.http).any
    fun state => controls tables state request.route tournamentId

/-- The rows of every tournament whose rows the request changes are in the
hands of its caller. -/
def ChangesControlled (verifier : TokenVerifier) (moved : Bool) (tables : AccessTables)
    (table : AssignmentTable) (request : AssignmentRequest) : Prop :=
  ∀ tournamentId, (handle verifier moved tables table request).1 tournamentId ≠
      table tournamentId →
    callerControls verifier moved tables request tournamentId = true

/-- The user and the row that the checks of an admitted request let through;
no row for a revoke. -/
def admitted (tables : AccessTables) (state : RequestState) (body : AssignmentBody) :
    AssignmentRoute → Option (String × Option AssignmentRow)
  | .consoleGrant =>
    (grantRow tables state.userContext body).toOption.map fun r => (r.1, some r.2)
  | .consoleRevoke => (revokedUser tables state.userContext body).toOption.map fun u => (u, none)
  | .provisionerGrant =>
    state.provisioner.bind fun provisioner =>
      (grantAssignmentRow tables provisioner.provisionerId body).toOption.map
        fun r => (r.1, some r.2)
  | .provisionerRevoke =>
    state.provisioner.bind fun provisioner =>
      (revokedAssignmentUser tables provisioner.provisionerId body).toOption.map fun u => (u, none)

/-- What the checks of a request let through, guards included. -/
def passed (verifier : TokenVerifier) (moved : Bool) (tables : AccessTables)
    (request : AssignmentRequest) : Option (String × Option AssignmentRow) :=
  (admission verifier tables.identity (request.route.declared moved) request.http).bind
    fun state => admitted tables state request.body request.route

/-- The condition on a call whose checks pass. A grant that finds a row finds
the provider and role it asks for; a grant that inserts a row and a revoke that
deletes one come from a caller that controls the tournament. -/
def WriteAgrees (tables : AccessTables) (table : AssignmentTable) (tournamentId : String)
    (controlled : Bool) : String × Option AssignmentRow → Prop
  | (userId, some row) =>
    wellTyped tables userId row = true →
      match table tournamentId userId with
      | some stored =>
        stored.providerId = row.providerId ∧ stored.assignmentRole = row.assignmentRole
      | none => referencesUsers tables userId row = true → controlled = true
  | (userId, none) =>
    tables.isUuid userId = true → table tournamentId userId ≠ none → controlled = true

/-- The checks refuse the request, or its write agrees with the table. -/
def MeetsCondition (verifier : TokenVerifier) (moved : Bool) (tables : AccessTables)
    (table : AssignmentTable) (request : AssignmentRequest) : Prop :=
  ∀ write ∈ passed verifier moved tables request,
    WriteAgrees tables table request.body.tournamentId
      (callerControls verifier moved tables request request.body.tournamentId) write

@[simp] theorem put_self (table : AssignmentTable) (t u : String) (row : Option AssignmentRow) :
    table.put t u row t u = row := by
  simp [AssignmentTable.put]

theorem put_of_ne (table : AssignmentTable) {t t' : String} (u : String)
    (row : Option AssignmentRow) (h : t' ≠ t) : table.put t u row t' = table t' := by
  funext u'
  simp [AssignmentTable.put, h]

/-- A write changes the rows of its tournament exactly when it changes its own row. -/
theorem put_eq_iff (table : AssignmentTable) (t u : String) (row : Option AssignmentRow) :
    table.put t u row t = table t ↔ table t u = row := by
  constructor
  · intro h
    have hu := congrFun h u
    rw [put_self] at hu
    exact hu.symm
  · intro h
    funext u'
    by_cases hu : u' = u
    · rw [hu, put_self, h]
    · simp [AssignmentTable.put, hu]

/-- How the outcome of a call depends on what its checks let through. -/
def Performed (tables : AccessTables) (table : AssignmentTable) (body : AssignmentBody)
    (out : AssignmentTable × Answer) : Option (String × Option AssignmentRow) → Prop
  | none => out.1 = table ∧ ∀ t u row email, out.2 ≠ .granted t u row email
  | some (userId, some row) =>
    out = match storageGrant tables table body.tournamentId userId row with
      | none => (table, .failed)
      | some after => (after, .granted body.tournamentId userId row body.userEmail)
  | some (userId, none) =>
    out = match storageRevoke tables table body.tournamentId userId with
      | none => (table, .failed)
      | some after => (after, .revoked)

section Request

variable (verifier : TokenVerifier) (moved : Bool) (tables : AccessTables)
  (table : AssignmentTable) (request : AssignmentRequest)

end Request

/-- An insert that succeeds found a row or wrote the new one. -/
theorem storageGrant_cases {tables : AccessTables} {table after : AssignmentTable}
    {t u : String} {row : AssignmentRow} (h : storageGrant tables table t u row = some after) :
    after = table ∨ after = table.put t u (some row) := by
  unfold storageGrant at h
  cases hs : table t u with
  | some stored =>
    rw [hs] at h
    dsimp only at h
    split_ifs at h
    exact Or.inl (Option.some.inj h).symm
  | none =>
    rw [hs] at h
    dsimp only at h
    split_ifs at h
    exact Or.inr (Option.some.inj h).symm

section Step

variable {tables : AccessTables} {table : AssignmentTable} {body : AssignmentBody}
  {out : AssignmentTable × Answer} {passed : Option (String × Option AssignmentRow)}

/-- A call only ever writes rows of the tournament its body names. -/
theorem Performed.elsewhere (h : Performed tables table body out passed) {t : String}
    (ht : t ≠ body.tournamentId) : out.1 t = table t := by
  rcases passed with _ | ⟨u, _ | row⟩
  · rw [h.1]
  · dsimp only [Performed, storageRevoke] at h
    subst h
    split_ifs
    · exact put_of_ne table u none ht
    · rfl
  · dsimp only [Performed] at h
    subst h
    cases hs : storageGrant tables table body.tournamentId u row with
    | none => rfl
    | some after =>
      rcases storageGrant_cases hs with rfl | rfl
      · rfl
      · exact put_of_ne table u (some row) ht

/-- The rows of the named tournament stay in the caller's hands, and a
successful grant is stored, exactly when the write agrees with the table. -/
theorem Performed.sound_iff (h : Performed tables table body out passed) (controlled : Bool) :
    ((out.1 body.tournamentId ≠ table body.tournamentId → controlled = true) ∧
      ∀ t u row email, out.2 = .granted t u row email →
        ∃ stored, out.1 t u = some stored ∧ stored.providerId = row.providerId ∧
          stored.assignmentRole = row.assignmentRole) ↔
    ∀ write ∈ passed, WriteAgrees tables table body.tournamentId controlled write := by
  rcases passed with _ | ⟨u, _ | row⟩
  · obtain ⟨h1, h2⟩ := h
    constructor
    · rintro - write hw
      cases hw
    · intro _
      constructor
      · intro hne
        exact absurd (by rw [h1]) hne
      · intro t u row email hg
        exact absurd hg (h2 t u row email)
  · simp only [Option.mem_def, Option.some.injEq, forall_eq', WriteAgrees]
    dsimp only [Performed, storageRevoke] at h
    subst h
    cases hu : tables.isUuid u with
    | false => simp
    | true =>
      simp only [if_true, ne_eq, put_eq_iff, true_imp_iff]
      constructor
      · exact fun hs => hs.1
      · intro hc
        constructor
        · exact hc
        · intro t u row email hg
          cases hg
  · simp only [Option.mem_def, Option.some.injEq, forall_eq', WriteAgrees]
    dsimp only [Performed, storageGrant] at h
    subst h
    cases hw : wellTyped tables u row with
    | false => simp
    | true =>
      simp only [if_true, true_imp_iff]
      cases hs : table body.tournamentId u with
      | some stored =>
        constructor
        · intro hg
          obtain ⟨stored', hs', hrow⟩ := hg.2 _ _ _ _ rfl
          have he : some stored = some stored' := hs.symm.trans hs'
          cases he
          exact hrow
        · intro hrow
          constructor
          · intro hne
            exact absurd rfl hne
          · intro t u' row' email hg
            cases hg
            exact ⟨stored, hs, hrow⟩
      | none =>
        cases hr : referencesUsers tables u row with
        | false => simp
        | true =>
          simp only [if_true, ne_eq, put_eq_iff, hs, true_imp_iff]
          constructor
          · intro hg
            exact hg.1 (by simp)
          · intro hc
            constructor
            · intro _
              exact hc
            · intro t u' row' email hg
              cases hg
              exact ⟨row, put_self .., rfl, rfl⟩

end Step

section Run

variable (verifier : TokenVerifier) (moved : Bool)

/-- The assignments after a sequence of calls; each call reads the identity and
tournament tables of its own time. -/
def run (table : AssignmentTable) (calls : List (AccessTables × AssignmentRequest)) :
    AssignmentTable :=
  calls.foldl (fun table call => (handle verifier moved call.1 table call.2).1) table

/-- Every call of a run meets `P` in the table it finds. -/
def RunMeets (P : AccessTables → AssignmentTable → AssignmentRequest → Prop) :
    AssignmentTable → List (AccessTables × AssignmentRequest) → Prop
  | _, [] => True
  | table, call :: rest =>
    P call.1 table call.2 ∧ RunMeets P (handle verifier moved call.1 table call.2).1 rest

variable {verifier moved}

/-- What holds of every call of a run under the condition holds of the run. -/
theorem RunMeets.imp {P Q : AccessTables → AssignmentTable → AssignmentRequest → Prop}
    (hpq : ∀ tables table request, P tables table request → Q tables table request)
    {table : AssignmentTable} {calls : List (AccessTables × AssignmentRequest)}
    (h : RunMeets verifier moved P table calls) : RunMeets verifier moved Q table calls := by
  induction calls generalizing table with
  | nil => trivial
  | cons call rest ih =>
    constructor
    · exact hpq _ _ _ h.1
    · exact ih h.2

/-- A run none of whose callers controls a tournament leaves its rows alone. -/
theorem run_frame {t : String} {table : AssignmentTable}
    {calls : List (AccessTables × AssignmentRequest)}
    (hr : RunMeets verifier moved (ChangesControlled verifier moved) table calls)
    (hc : ∀ call ∈ calls, callerControls verifier moved call.1 call.2 t = false) :
    run verifier moved table calls t = table t := by
  induction calls generalizing table with
  | nil => rfl
  | cons call rest ih =>
    have hhead : (handle verifier moved call.1 table call.2).1 t = table t := by
      by_contra hne
      have hcontrols := hr.1 t hne
      rw [hc call List.mem_cons_self] at hcontrols
      cases hcontrols
    have htail := ih hr.2 fun other ho => hc other (List.mem_cons_of_mem _ ho)
    exact htail.trans hhead

end Run

end FactoryServer.AssignmentControl
