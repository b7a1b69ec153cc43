import FactoryServer.DurableSave
import FactoryServer.ProvisionerOwnership
import FactoryServer.TournamentWrites

/-!
# The scope of a subsidiary provisioner

A provisioner that is the subsidiary of a provider works only on the
tournaments it created, as `tournament_provisioner` records them. The middleware
reduces the relationship to a synthetic administrator of the provider, and only
the assignment routes of the provisioner look at it again. This module states
which requests of a subsidiary stay within its own tournaments.
-/

namespace FactoryServer.SubsidiaryScope

open JsonValue TournamentAccess RequestIdentity AssignmentControl StorageTables
  TournamentStorage ExecutionQueue MutationGate TournamentWrites

/-- The tournament did not exist, or is recorded as the provisioner's own. -/
def Owned (s : WriteState) (provisionerId t : String) : Prop :=
  (s.stored t).isSome = true → s.stamp t = some provisionerId

variable {s : WriteState} {state : RequestState} {t : String}

section Synthetic

variable {principal email providerId : String}

end Synthetic

/-- `p-s` is a subsidiary of `A` and holds the key `prov_s`. Of the tournaments of
`A` it created `own`, and another provisioner created `t`. -/
def subsidiaryOfA : WriteState where
  scoping := true
  external := DurableSave.plainExternal
  tables :=
    { DurableSave.emptyTables with
      tournaments := fun id =>
        if id = "t" ∨ id = "own" then
          some ⟨{ DurableSave.plainRecord id (some "A") with isMock := true }, 0, 0⟩
        else none }
  assignedRoles _ := []
  grants _ _ := some []
  package := ScopedGrants.samplePackage
  iso n := toString n
  now := 0
  eventsOf _ := []
  isMutationAllowed _ _ _ := true
  services := DurableSave.plainServices
  engine := DurableSave.noEngine
  identity :=
    { findUser := fun _ => none
      userProviders := fun _ => []
      userProvisioners := fun _ => []
      associations := [⟨"p-s", "A", .subsidiary, none⟩]
      provisioners := []
      provisionerKey := fun hash => if hash = "prov_s" then some ⟨"p-s", "Sub", "k"⟩ else none
      providerKey := fun _ => none }
  stamp id := if id = "t" then some "p-o" else if id = "own" then some "p-s" else none
  isUuid _ := false
  isUserId _ := false
  assignments _ _ := none
  commandFingerprint _ := ""
  saveFingerprint _ := ""
  generateTournamentRecord _ := some (DurableSave.plainRecord "t" none)
  validateL2 _ := true
  drawIntegrity _ := true
  today := "2026-01-01"
  before a b := decide (a < b)
  hasPrivacyPolicy _ := false

end FactoryServer.SubsidiaryScope
