import FactoryServer.GuardedRuns
import FactoryServer.ParticipantDocuments

/-!
# When the public documents of a tournament are requested anew

A mutation that changes the documents of a tournament leaves a request for them when one is
pending, when a notice about participants is attributed to the tournament, or when a method
of the call is one of the two that are known to change a policy. A policy that changes by
any other method asks for nothing.
-/

namespace FactoryServer.FreshDocuments

open DeferredRequests GuardedRuns InsertionMaps ParticipantDocuments ProjectionDeltas

variable {Record Participants Policy Document : Type}
  {model : ReadModel Record Participants Policy Document}

/-! ## The claim and the condition -/

/-- A request for the tournament is pending. -/
def Pending (requests : List RequestRow) (t : String) : Prop :=
  t ∈ requests.map RequestRow.tournamentId

/-- The call names the tournament, and a method that changes a policy. -/
def NamesPolicy (m : Mutation) (t : String) : Prop :=
  (∃ method ∈ m.methods, method.getD "" ∈ policyMethods) ∧ t ∈ m.tournamentIds

/-- A notice about participants is attributed to the tournament. -/
def Notified (m : Mutation) (notices : Notices) (t : String) : Prop :=
  (∃ item ∈ notices.added ++ notices.modified,
    tidOf m.tournamentIds item.tournamentId = some t) ∨
  ∃ item ∈ notices.deleted, item.participantIds ≠ [] ∧
    tidOf m.tournamentIds item.tournamentId = some t

/-- A notice about participants names the tournament itself. -/
def NamedIn (notices : Notices) (t : String) : Prop :=
  (∃ item ∈ notices.added ++ notices.modified, item.tournamentId = some t) ∨
  ∃ item ∈ notices.deleted, item.participantIds ≠ [] ∧ item.tournamentId = some t

/-- What the changes of a mutation must come with. -/
structure Covered (s : State Record) (m : Mutation) (run : EngineRun model s.records) :
    Prop where
  /-- Where the policy alone changes the documents, a method is one of the two, unless a
  notice or an earlier request covers it. -/
  policies : ∀ t before after, t ≠ "" → s.records t = some before →
    run.records.lookup t = some after → model.participants before = model.participants after →
    model.publicParticipantDocuments (documentPolicy model after) after ≠
      model.publicParticipantDocuments (documentPolicy model before) after →
    Pending s.requests t ∨ NamesPolicy m t ∨ Notified m run.notices t
  /-- Where the participants change the documents, the call is for one tournament or a
  notice names it. -/
  batches : ∀ t before after, t ≠ "" → s.records t = some before →
    run.records.lookup t = some after → model.participants before ≠ model.participants after →
    builtDocuments model t (some after) ≠ builtDocuments model t (some before) →
    Pending s.requests t ∨ NamesPolicy m t ∨ m.tournamentIds = [t] ∨ NamedIn run.notices t
  /-- A tournament that the call creates with documents is covered. -/
  created : ∀ t after, t ≠ "" → s.records t = none → run.records.lookup t = some after →
    builtDocuments model t (some after) ≠ some [] →
    Pending s.requests t ∨ NamesPolicy m t ∨ Notified m run.notices t

end FactoryServer.FreshDocuments
