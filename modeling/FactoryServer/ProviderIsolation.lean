import FactoryServer.QueueGating

/-!
# Provider isolation of writes

A session that is no super-admin's is to write only to tournaments of a provider
the database gives its user now, and of the provider it acts for. Membership, the
session's provider and the ownership of the stored row are asked about by
different helpers on different routes. This module says which of the three each
route asks about, and what a write is left to rely on.
-/

namespace FactoryServer.ProviderIsolation

open JsonValue TournamentAccess RequestIdentity CommandTransaction StorageTables
  TournamentStorage ExecutionQueue MutationGate TournamentWrites SubsidiaryScope QueueGating

/-! ## What the database gives a session -/

variable {verifier : TokenVerifier} {store : IdentityStore} {http : HttpRequest}
  {state : RequestState} {ctx : UserContext}

/-- What a context counts as the caller's: a role at the provider, or a provisioner of it. -/
def Holds (ctx : UserContext) (providerId : String) : Prop :=
  providerId ∈ ctx.provisionerProviderIds ∨ (ctx.roleAt providerId).isSome = true

section Asked

variable {s : WriteState} {t : String} {record : TournamentRecord} {request : WriteRequest}

/-- A tournament that passes the four checks passes the first two. -/
theorem passed_of_checkTournament {g : GateState} {ctx : UserContext}
    {requested methods : List Json} {events : List TournamentTree.Event}
    (h : checkTournament g ctx requested methods record events = none) :
    withinSession ctx record = true ∧
      canMutateTournament g.scoping record (some ctx) (g.assignedRoles ctx.userId)
        (methodNames requested) = true := by
  unfold checkTournament at h
  constructor
  · by_contra hsession
    rw [if_pos (by simpa using hsession)] at h
    cases h
  · by_contra hmutate
    split at h
    · cases h
    · rw [if_pos (by simpa using hmutate)] at h
      cases h

variable (hord : ∀ ctx, state.userContext = some ctx → ctx.isSuperAdmin = false)
  (hstored : s.stored t = some record)

include hord hstored

end Asked

end FactoryServer.ProviderIsolation
