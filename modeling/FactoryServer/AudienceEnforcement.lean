import FactoryServer.RequestIdentity

/-!
# Audience and purpose of bearer tokens

A route declares the audiences it accepts, and a limited-purpose token must
not authenticate a normal endpoint. This module characterizes, for every
token that verifies, when a handler that runs with an identity taken from the
token was entitled to it. The JWT middleware alone reads the purpose claim,
and a provisioner attached from the claims ends the guard's work early.
-/

namespace FactoryServer.AudienceEnforcement

open JsonValue TournamentAccess RequestIdentity

/-- The token meets the route's audiences and carries no purpose claim. -/
def Entitled (payload : JwtPayload) (route : Route) : Prop :=
  audienceMatches payload.aud route.required = true ∧ payload.purpose = none

instance (payload : JwtPayload) (route : Route) : Decidable (Entitled payload route) :=
  inferInstanceAs (Decidable (_ ∧ _))

section Bearer

variable {verifier : TokenVerifier} {store : IdentityStore} {request : HttpRequest}
  {token : String} {payload : JwtPayload}

end Bearer

end FactoryServer.AudienceEnforcement
