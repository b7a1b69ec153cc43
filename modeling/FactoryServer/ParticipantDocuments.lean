import FactoryServer.DeferredRequests
import FactoryServer.ProjectionDeltas

/-!
# Requests for public participant documents

The public documents of a tournament are built from its participants under the policy that
is attached to its record. A mutation that may change them leaves a request. Which ones may
is read from the notices of the engine and from the names of the methods: a notice about
participants asks for its tournament, and two methods ask for every tournament of the call.
-/

namespace FactoryServer.ParticipantDocuments

open DeferredRequests InsertionMaps ProjectionDeltas

/-! ## Notices -/

/-- A participant in a notice. -/
structure NoticedParticipant where
  participantId : Option String
  participantName : Option String
  /-- The person under `CANONICAL_PERSON` among the other ids. -/
  canonicalPersonId : Option String

/-- `ADD_PARTICIPANTS` and `MODIFY_PARTICIPANTS`. -/
structure ParticipantsNotice where
  /-- Some notices omit it. -/
  tournamentId : Option String
  participants : List NoticedParticipant

/-- `DELETE_PARTICIPANTS`. -/
structure DeletionNotice where
  tournamentId : Option String
  participantIds : List String

/-- The notices of a mutation about participants, by topic. -/
structure Notices where
  added : List ParticipantsNotice
  modified : List ParticipantsNotice
  deleted : List DeletionNotice

/-- JavaScript's truth of a text that may be missing. -/
def present (text : Option String) : Option String := text.filter fun text => text ≠ ""

/-- `tidOf`: the tournament of a notice, where the mutation is for `tournamentIds`. -/
def tidOf (tournamentIds : List String) (tournamentId : Option String) : Option String :=
  match present tournamentId with
  | some id => some id
  | none => if tournamentIds.length = 1 then present tournamentIds.head? else none

/-- The names a notice brings. -/
def nameIntents (tournamentId : String) (participants : List NoticedParticipant) :
    List ProjectionIntent :=
  participants.filterMap fun participant =>
    (present participant.participantId).map fun id =>
      .participantName tournamentId id participant.participantName

/-- The turns of `recordParticipants`, given the tournaments seen so far. -/
def recordFrom (tournamentIds : List String) :
    List String → List ParticipantsNotice → List ProjectionIntent
  | _, [] => []
  | seen, item :: rest =>
    match tidOf tournamentIds item.tournamentId with
    | none => recordFrom tournamentIds seen rest
    | some tid =>
      (if tid ∈ seen then [] else [.participants tid]) ++ nameIntents tid item.participants ++
        recordFrom tournamentIds (addItem seen tid) rest

/-- `recordParticipants`. -/
def recordParticipants (tournamentIds : List String) (params : List ParticipantsNotice) :
    List ProjectionIntent :=
  recordFrom tournamentIds [] params

/-- `recordPersonClaims`. -/
def recordPersonClaims (tournamentIds : List String) (params : List ParticipantsNotice) :
    List ProjectionIntent :=
  params.flatMap fun item =>
    match tidOf tournamentIds item.tournamentId with
    | none => []
    | some tid => item.participants.filterMap fun participant =>
      match present participant.participantId, present participant.canonicalPersonId with
      | some participantId, some personId => some (.claimPerson tid participantId personId)
      | _, _ => none

/-- `recordDeleteParticipants`. -/
def recordDeleteParticipants (tournamentIds : List String) (params : List DeletionNotice) :
    List ProjectionIntent :=
  params.filterMap fun item =>
    match tidOf tournamentIds item.tournamentId with
    | none => none
    | some tid =>
      if item.participantIds = [] then none
      else some (.deleteParticipants tid item.participantIds)

/-- What the subscriptions record of the notices about participants. -/
def participantIntents (tournamentIds : List String) (notices : Notices) : List ProjectionIntent :=
  recordParticipants tournamentIds notices.added ++
    recordPersonClaims tournamentIds notices.added ++
    (recordParticipants tournamentIds notices.modified ++
      recordPersonClaims tournamentIds notices.modified) ++
    recordDeleteParticipants tournamentIds notices.deleted

/-! ## Requests -/

/-- `PARTICIPANT_INTENTS.has(intent.kind)`. -/
def isParticipantIntent : ProjectionIntent → Bool
  | .participants _ | .deleteParticipants _ _ | .claimPerson _ _ _ => true
  | _ => false

/-- `POLICY_METHODS`. -/
def policyMethods : List String := ["attachPolicies", "removePolicy"]

/-- `documentRequestTournamentIds`; a method may have no name. -/
def documentRequestTournamentIds (intents : List ProjectionIntent) (methods : List (Option String))
    (tournamentIds : List String) : List String :=
  setOf (((intents.filter fun intent =>
      isParticipantIntent intent ∧ intent.tournamentId ≠ "").map (·.tournamentId)) ++
    if methods.any fun method => method.getD "" ∈ policyMethods then tournamentIds else [])

/-! ## Documents -/

/-- The factory's read model and its policies, as the documents use them. -/
structure ReadModel (Record Participants Policy Document : Type) where
  /-- `tournamentRecord.participants`. -/
  participants : Record → Participants
  /-- The participant policy in the record's extension. -/
  attachedParticipantPolicy : Record → Option Policy
  /-- The strict public default. -/
  publicParticipantPrivacyPolicy : Policy
  /-- `readModel.publicParticipantDocuments`; none is an error. -/
  publicParticipantDocuments : Policy → Record → Option (List Document)
  /-- A document shows participants, and nothing else of the record. -/
  reads : ∀ policy record record', participants record = participants record' →
    publicParticipantDocuments policy record = publicParticipantDocuments policy record'

variable {Record Participants Policy Document : Type}

/-- `documentPolicy`. -/
def documentPolicy (model : ReadModel Record Participants Policy Document) (record : Record) :
    Policy :=
  (model.attachedParticipantPolicy record).getD model.publicParticipantPrivacyPolicy

/-- The documents of `buildParticipantDocumentDeltas`: no tournament has none, and a build
that fails gives nothing. -/
def builtDocuments (model : ReadModel Record Participants Policy Document) (tournamentId : String)
    (record : Option Record) : Option (List Document) :=
  if tournamentId = "" then some []
  else match record with
    | none => some []
    | some record => model.publicParticipantDocuments (documentPolicy model record) record

/-! ## Mutations -/

/-- A call of `executionQueue` for stored tournaments. -/
structure Mutation where
  tournamentIds : List String
  /-- The names of the methods. -/
  methods : List (Option String)
  /-- What identifies the call to the engine: the parameters of the methods. -/
  params : String

/-- What the engine makes of the records of a call. -/
structure EngineRun (model : ReadModel Record Participants Policy Document)
    (stored : String → Option Record) where
  success : Bool
  /-- The records afterwards. -/
  records : List (String × Record)
  notices : Notices
  /-- A tournament whose participants change raises a notice about participants. -/
  noticed : ∀ id before after, stored id = some before → records.lookup id = some after →
    model.participants before ≠ model.participants after →
      (∃ item ∈ notices.added ++ notices.modified,
        item.tournamentId = none ∨ item.tournamentId = some id) ∨
      ∃ item ∈ notices.deleted, item.participantIds ≠ [] ∧
        (item.tournamentId = none ∨ item.tournamentId = some id)

/-- The factory's mutation engine. -/
abbrev Engine (model : ReadModel Record Participants Policy Document) :=
  (stored : String → Option Record) → Mutation → EngineRun model stored

/-- The stored tournaments, and the requests for documents. -/
structure State (Record : Type) where
  records : String → Option Record
  requests : List RequestRow

/-- What happens to them. -/
inductive Action (Record : Type) where
  /-- A call of `executionQueue`; the storage saves its records at `now`, or refuses them. A
  durable command commits the save and the request at once, any other call one after the
  other under the lock. -/
  | mutation (m : Mutation) (saved : Bool) (now : ℕ)
  /-- `drainParticipantDocumentRequests`. -/
  | drain (limit maxAttempts : ℕ) (around : Surroundings)
  /-- A record replaced, or deleted, with what is requested for it. -/
  | replace (tournamentId : String) (record : Option Record) (arrival : Arrival)

variable {model : ReadModel Record Participants Policy Document}

/-- The records after a save. -/
def overlay (records : String → Option Record) (saved : List (String × Record)) :
    String → Option Record :=
  fun id => (saved.lookup id).or (records id)

/-- The tournaments whose documents a run makes stale. -/
def staleIds {stored : String → Option Record} (m : Mutation) (run : EngineRun model stored) :
    List String :=
  documentRequestTournamentIds (participantIntents m.tournamentIds run.notices) m.methods
    m.tournamentIds

/-- One step. -/
def step (engine : Engine model) (s : State Record) : Action Record → State Record
  | .mutation m saved now =>
    let run := engine s.records m
    if run.success ∧ saved then
      { records := overlay s.records run.records
        requests := request s.requests ⟨staleIds m run, "mutation", now⟩ }
    else s
  | .drain limit maxAttempts around =>
    { s with requests := (drainRows limit maxAttempts s.requests around).2 }
  | .replace tournamentId record arrival =>
    { records := Function.update s.records tournamentId record
      requests := request s.requests arrival }

end FactoryServer.ParticipantDocuments
