import FactoryServer.InsertionMaps
import FactoryServer.TextCodes

/-!
# Accepting registrations

A batch of registrations is resolved into one plan: participants that are missing,
entries in events, foreign ids for participants that are there already, and the
registrations to be stamped. A registration whose partner invite is complete brings its
partner in; the partner's own registration is then skipped. The plan is committed as one
mutation before the registrations are stamped.
-/

namespace FactoryServer.RegistrationAcceptance

open InsertionMaps TextCodes

/-! ## Records and registrations -/

/-- An entry of `personOtherIds`. -/
structure PersonOtherId where
  /-- `organisationId`. -/
  organisationId : String
  /-- `personId`. -/
  personId : String
  /-- `createdAt`. -/
  createdAt : Option String
  deriving DecidableEq

/-- The person of a participant. -/
structure Person where
  /-- `standardGivenName`. -/
  standardGivenName : String
  /-- `standardFamilyName`. -/
  standardFamilyName : String
  /-- `birthDate`. -/
  birthDate : Option String
  /-- `sex`. -/
  sex : Option String
  /-- `nationalityCode`. -/
  nationalityCode : Option String
  /-- `personOtherIds`. -/
  personOtherIds : List PersonOtherId
  deriving DecidableEq

/-- An id of a participant in another organisation's system. -/
structure ParticipantOtherId where
  /-- `organisationId`. -/
  organisationId : Option String
  /-- `participantId`. -/
  participantId : Option String
  /-- `uniqueOrganisationName`. -/
  uniqueOrganisationName : Option String
  deriving DecidableEq

/-- A participant. -/
structure Participant where
  /-- `participantId`. -/
  participantId : String
  /-- `participantType`. -/
  participantType : String
  /-- `participantRole`. -/
  participantRole : Option String
  /-- `participantName`. -/
  participantName : Option String
  /-- `individualParticipantIds`. -/
  individualParticipantIds : Option (List String)
  /-- `participantOtherIds`. -/
  participantOtherIds : List ParticipantOtherId
  /-- `person`. -/
  person : Option Person
  deriving DecidableEq

/-- An event. -/
structure Event where
  /-- `eventId`. -/
  eventId : Option String
  /-- `eventName`. -/
  eventName : Option String
  /-- The participant ids of `entries`. -/
  entries : List String
  deriving DecidableEq

/-- A tournament record, as far as an acceptance reads or changes it. -/
structure TournamentRecord where
  /-- `participants`. -/
  participants : List Participant
  /-- `events`. -/
  events : List Event
  deriving DecidableEq

/-- A registration as the declarations service returns it. -/
structure RegistrationSnapshot where
  /-- `declarationId`. -/
  declarationId : String
  /-- `personId`. -/
  personId : String
  /-- `tournamentId`. -/
  tournamentId : Option String
  /-- `status`. -/
  status : String
  /-- `payload.eventIds`. -/
  eventIds : List String
  /-- `payload.partnerInviteId`. -/
  partnerInviteId : Option String
  /-- `payload.applicant`, given and family name. -/
  applicant : Option String × Option String
  /-- `payload.participantOtherIds`. -/
  participantOtherIds : List ParticipantOtherId
  /-- The reserved `participantId`. -/
  participantId : Option String
  deriving DecidableEq

/-- What the persons service returns of a person. -/
structure CanonicalPerson where
  /-- `standardGivenName`. -/
  standardGivenName : Option String
  /-- `standardFamilyName`. -/
  standardFamilyName : Option String
  /-- `birthDate`. -/
  birthDate : Option String
  /-- `sex`. -/
  sex : Option String
  /-- `nationalityCode`. -/
  nationalityCode : Option String

/-- The status of a partner invite. -/
structure PairStatus where
  /-- `complete`. -/
  complete : Bool
  /-- `eventId`. -/
  eventId : Option String
  /-- `event`. -/
  event : Option String
  /-- `nominatorPersonId`. -/
  nominatorPersonId : Option String
  /-- `inviteePersonId`. -/
  inviteePersonId : Option String

/-- What other services answer. The registrations are planned one after the other, and an answer
may depend on how many have been planned. -/
structure Reads where
  /-- `personsClient.getById`, where a failure counts as no answer. -/
  person : ℕ → String → Option CanonicalPerson
  /-- `declarationsClient.getPairStatus`. -/
  pairStatus : ℕ → String → Except String (Option PairStatus)
  /-- `tools.UUID()`, by the number of participants planned. -/
  mint : ℕ → String
  /-- `new Date().toISOString()`. -/
  now : String

/-- What an acceptance is about. -/
structure BulkAcceptContext where
  /-- `tournamentId`. -/
  tournamentId : String
  /-- The record as it was read. -/
  tournamentRecord : TournamentRecord
  /-- `factoryStampsExistingParticipants`. -/
  stampsExisting : Bool
  /-- The answers of the other services. -/
  reads : Reads
  /-- `byPersonAndInvite`. -/
  byPersonAndInvite : String → Option RegistrationSnapshot

/-- A text that is not empty. -/
def truthy (text : Option String) : Option String := text.filter (· ≠ "")

/-- `CANONICAL_PERSON`. -/
def CANONICAL_PERSON : String := "CANONICAL_PERSON"

/-- `ACCEPTABLE_ACCEPT_STATUSES`. -/
def ACCEPTABLE_ACCEPT_STATUSES : List String := ["SUBMITTED", "WAITLISTED"]

/-- The canonical person of a participant. -/
def canonicalId (participant : Participant) : Option String :=
  truthy ((((participant.person.map Person.personOtherIds).getD []).find? fun otherId =>
    otherId.organisationId = CANONICAL_PERSON).map PersonOtherId.personId)

/-- `[...ids].sort().join('|')`. -/
def membersKey (ids : List String) : String :=
  "|".intercalate ((sortTexts (ids.map String.toList)).map String.ofList)

/-- The text that stands for an entry. -/
def entryKey (participantId eventId : String) : String := participantId ++ "|" ++ eventId

/-- `resolveAcceptedEventIds(...).eventIds`. -/
def resolveAcceptedEventIds (record : TournamentRecord) (requested : List String) :
    List String :=
  let identified := record.events.filterMap fun event =>
    (truthy event.eventId).map fun eventId => (truthy event.eventName, eventId)
  let nameToId := identified.filterMap fun entry => entry.1.map fun name => (name, entry.2)
  setOf (requested.filterMap fun r =>
    if r ∈ identified.map Prod.snd then some r else lastOf r nameToId)

/-! ## The plan -/

/-- A foreign id for a participant that is in the record. -/
structure OtherIdStamp where
  /-- `participantId`. -/
  participantId : String
  /-- `organisationId`. -/
  organisationId : String
  /-- `otherParticipantId`. -/
  otherParticipantId : String
  /-- `uniqueOrganisationName`. -/
  uniqueOrganisationName : Option String
  deriving DecidableEq

/-- `AcceptancePlan`. -/
structure AcceptancePlan where
  /-- `individualByPerson`. -/
  individualByPerson : String → Option String
  /-- `pairByInvite`. -/
  pairByInvite : String → Option String
  /-- `pairByMembers`. -/
  pairByMembers : String → Option String
  /-- `newParticipants`. -/
  newParticipants : List Participant
  /-- `participantOtherIdStamps`. -/
  participantOtherIdStamps : List OtherIdStamp
  /-- `stampRegistrations`. -/
  stampRegistrations : List String
  /-- `handled`. -/
  handled : List String
  /-- `existingEntries`. -/
  existingEntries : List String
  /-- `entryMap`. -/
  entryMap : List (String × List String)
  /-- The registrations behind `stampRegistrations`, as they were read. -/
  stamped : List RegistrationSnapshot

/-- The constructor. -/
def newPlan (record : TournamentRecord) : AcceptancePlan where
  individualByPerson := record.participants.foldl (fun found p =>
    if p.participantType = "INDIVIDUAL" then
      match canonicalId p with
      | some personId => Function.update found personId (some p.participantId)
      | none => found
    else found) fun _ => none
  pairByInvite := fun _ => none
  pairByMembers := record.participants.foldl (fun found p =>
    if p.participantType = "PAIR" then
      match p.individualParticipantIds with
      | some ids => Function.update found (membersKey ids) (some p.participantId)
      | none => found
    else found) fun _ => none
  newParticipants := []
  participantOtherIdStamps := []
  stampRegistrations := []
  handled := []
  existingEntries := record.events.flatMap fun event =>
    match truthy event.eventId with
    | some eventId =>
      (event.entries.filter (· ≠ "")).map fun participantId => entryKey participantId eventId
    | none => []
  entryMap := []
  stamped := []

/-- A participant id is added to those of an event. -/
def addToEvent (eventId participantId : String) :
    List (String × List String) → List (String × List String)
  | [] => [(eventId, [participantId])]
  | (key, ids) :: rest =>
    if key = eventId then (key, addItem ids participantId) :: rest
    else (key, ids) :: addToEvent eventId participantId rest

/-- `addEntry`. -/
def addEntry (plan : AcceptancePlan) (eventId participantId : String) : AcceptancePlan :=
  if entryKey participantId eventId ∈ plan.existingEntries then plan
  else { plan with entryMap := addToEvent eventId participantId plan.entryMap }

/-- `ensurePair`. -/
def ensurePair (reads : Reads) (plan : AcceptancePlan) (inviteId a b : String) :
    String × AcceptancePlan :=
  match truthy (plan.pairByInvite inviteId) with
  | some byInvite => (byInvite, plan)
  | none =>
    let key := membersKey [a, b]
    let existing := plan.pairByMembers key
    let participantId := existing.getD (reads.mint plan.newParticipants.length)
    let created : AcceptancePlan :=
      if (truthy existing).isSome then plan
      else
        { plan with
          newParticipants := plan.newParticipants ++
            [{ participantId
               participantType := "PAIR"
               participantRole := some "COMPETITOR"
               participantName := none
               individualParticipantIds := some [a, b]
               participantOtherIds := []
               person := none }]
          pairByMembers := Function.update plan.pairByMembers key (some participantId) }
    (participantId,
      { created with
        pairByInvite := Function.update created.pairByInvite inviteId (some participantId) })

/-- `queueForeignIdStamps`. -/
def queueForeignIdStamps (stampsExisting : Bool) (participantId : String)
    (registration : Option RegistrationSnapshot) (plan : AcceptancePlan) : AcceptancePlan :=
  if stampsExisting then
    { plan with
      participantOtherIdStamps := plan.participantOtherIdStamps ++
        ((registration.map RegistrationSnapshot.participantOtherIds).getD []).filterMap
          fun otherId =>
            match truthy otherId.organisationId, truthy otherId.participantId with
            | some organisationId, some otherParticipantId =>
              some ⟨participantId, organisationId, otherParticipantId,
                truthy otherId.uniqueOrganisationName⟩
            | _, _ => none }
  else plan

/-- Given and family name of a person, as an acceptance finds them. -/
def namesOf (canonical : Option CanonicalPerson) (registration : Option RegistrationSnapshot) :
    String × String :=
  (((canonical.bind CanonicalPerson.standardGivenName).or
      (registration.bind fun r => r.applicant.1)).getD "",
    ((canonical.bind CanonicalPerson.standardFamilyName).or
      (registration.bind fun r => r.applicant.2)).getD "")

/-- The participant that is planned for a person. -/
def newIndividual (reads : Reads) (canonical : Option CanonicalPerson) (personId : String)
    (registration : Option RegistrationSnapshot) (participantId : String) : Participant where
  participantId := participantId
  participantType := "INDIVIDUAL"
  participantRole := some "COMPETITOR"
  participantName :=
    some ((namesOf canonical registration).1 ++ " " ++ (namesOf canonical registration).2)
  individualParticipantIds := none
  participantOtherIds := (registration.map RegistrationSnapshot.participantOtherIds).getD []
  person := some
    { standardGivenName := (namesOf canonical registration).1
      standardFamilyName := (namesOf canonical registration).2
      birthDate := canonical.bind CanonicalPerson.birthDate
      sex := canonical.bind CanonicalPerson.sex
      nationalityCode := canonical.bind CanonicalPerson.nationalityCode
      personOtherIds :=
        if personId = "" then [] else [⟨CANONICAL_PERSON, personId, some reads.now⟩] }

/-- `ensureIndividual`. -/
def ensureIndividual (ctx : BulkAcceptContext) (moment : ℕ) (personId : String)
    (registration : Option RegistrationSnapshot) (plan : AcceptancePlan) :
    Option String × AcceptancePlan :=
  match truthy (plan.individualByPerson personId) with
  | some cached =>
    (some cached, queueForeignIdStamps ctx.stampsExisting cached registration plan)
  | none =>
    let canonical := ctx.reads.person moment personId
    if (namesOf canonical registration).1 = "" ∨ (namesOf canonical registration).2 = "" then
      (none, plan)
    else
      let participantId := (registration.bind RegistrationSnapshot.participantId).getD
        (ctx.reads.mint plan.newParticipants.length)
      (some participantId,
        { plan with
          newParticipants := plan.newParticipants ++
            [newIndividual ctx.reads canonical personId registration participantId]
          individualByPerson :=
            Function.update plan.individualByPerson personId (some participantId) })

/-! ## Pairs -/

/-- A complete pair, as a registration's invite names it. -/
structure InvitedPair where
  /-- `inviteId`. -/
  inviteId : String
  /-- `partnerPersonId`. -/
  partnerPersonId : String
  /-- `partnerReg`. -/
  partnerReg : Option RegistrationSnapshot
  /-- `pairEventId`. -/
  pairEventId : Option String

/-- What the invite of a registration says, where the pair is complete. -/
def invitedPair (ctx : BulkAcceptContext) (moment : ℕ) (reg : RegistrationSnapshot) :
    Except String (Option InvitedPair) :=
  match truthy reg.partnerInviteId with
  | none => .ok none
  | some inviteId =>
    match ctx.reads.pairStatus moment inviteId with
    | .error failure => .error failure
    | .ok none => .ok none
    | .ok (some status) =>
      match status.complete, truthy status.nominatorPersonId, truthy status.inviteePersonId with
      | true, some nominator, some invitee =>
        let partnerPersonId := if nominator = reg.personId then invitee else nominator
        .ok (some
          { inviteId
            partnerPersonId
            partnerReg := ctx.byPersonAndInvite (partnerPersonId ++ ":" ++ inviteId)
            pairEventId := (resolveAcceptedEventIds ctx.tournamentRecord
              ([status.eventId, status.event].filterMap truthy)).head? })
      | _, _, _ => .ok none

/-- The partner's registration is stamped as well, and skipped in its own turn. -/
def foldIn (plan : AcceptancePlan) (partnerReg : Option RegistrationSnapshot) : AcceptancePlan :=
  match partnerReg with
  | some partner =>
    { plan with
      stampRegistrations := addItem plan.stampRegistrations partner.declarationId
      handled := addItem plan.handled partner.declarationId
      stamped := plan.stamped ++ [partner] }
  | none => plan

/-- The pair and its entry are planned. -/
def enterPair (ctx : BulkAcceptContext) (pair : InvitedPair)
    (participantId partnerParticipantId : String) (plan : AcceptancePlan) : AcceptancePlan :=
  let ensured := ensurePair ctx.reads plan pair.inviteId participantId partnerParticipantId
  foldIn
    (match pair.pairEventId with
    | some eventId => addEntry ensured.2 eventId ensured.1
    | none => ensured.2) pair.partnerReg

/-- `planPair`. -/
def planPair (ctx : BulkAcceptContext) (moment : ℕ) (reg : RegistrationSnapshot)
    (participantId : String) (plan : AcceptancePlan) :
    Except String (Option String × AcceptancePlan) :=
  match invitedPair ctx moment reg with
  | .error failure => .error failure
  | .ok none => .ok (none, plan)
  | .ok (some pair) =>
    match ensureIndividual ctx moment pair.partnerPersonId pair.partnerReg plan with
    | (partnerId, ensured) =>
      match truthy partnerId with
      | none => .ok (none, ensured)
      | some partnerParticipantId =>
        .ok (pair.pairEventId, enterPair ctx pair participantId partnerParticipantId ensured)

/-! ## The batch -/

/-- `AcceptResult`. -/
structure AcceptResult where
  /-- `registrationId`. -/
  registrationId : String
  /-- `ok`. -/
  ok : Bool
  /-- `participantId`. -/
  participantId : Option String := none
  /-- `eventIds`. -/
  eventIds : Option (List String) := none
  /-- `reason`. -/
  reason : Option String := none
  deriving DecidableEq

/-- What refuses a registration, or leaves it alone, before anything is planned. -/
def refusal (ctx : BulkAcceptContext) (reg : RegistrationSnapshot) : Option AcceptResult :=
  match truthy reg.tournamentId with
  | some tournamentId =>
    if tournamentId ≠ ctx.tournamentId then
      some
        { registrationId := reg.declarationId
          ok := false
          reason := some "Registration does not belong to this tournament" }
    else unacceptable reg
  | none => unacceptable reg
where
  /-- The status is checked after the tournament. -/
  unacceptable (reg : RegistrationSnapshot) : Option AcceptResult :=
    if reg.status = "ACCEPTED" then some { registrationId := reg.declarationId, ok := true }
    else if reg.status ∉ ACCEPTABLE_ACCEPT_STATUSES then
      some
        { registrationId := reg.declarationId
          ok := false
          reason := some ("Registration is not acceptable in state: " ++ reg.status) }
    else none

/-- The individual enters every resolved event but the pair's, and the registration is stamped. -/
def enterIndividual (ctx : BulkAcceptContext) (reg : RegistrationSnapshot)
    (participantId : String) (pairEventId : Option String) (plan : AcceptancePlan) :
    AcceptResult × AcceptancePlan :=
  let eventIds := (resolveAcceptedEventIds ctx.tournamentRecord reg.eventIds).filter
    fun eventId => some eventId ≠ pairEventId
  let entered := eventIds.foldl (fun plan eventId => addEntry plan eventId participantId) plan
  ({ registrationId := reg.declarationId
     ok := true
     participantId := some participantId
     eventIds := some (eventIds ++ pairEventId.toList) },
    { entered with
      stampRegistrations := addItem entered.stampRegistrations reg.declarationId
      stamped := entered.stamped ++ [reg] })

/-- `planOne`. -/
def planOne (ctx : BulkAcceptContext) (moment : ℕ) (reg : RegistrationSnapshot)
    (plan : AcceptancePlan) : Except String (AcceptResult × AcceptancePlan) :=
  match refusal ctx reg with
  | some result => .ok (result, plan)
  | none =>
    match ensureIndividual ctx moment reg.personId (some reg) plan with
    | (individual, ensured) =>
      match truthy individual with
      | none =>
        .ok ({ registrationId := reg.declarationId
               ok := false
               reason := some ("Applicant has no canonical name — ask them to complete " ++
                 "their HiveID profile") }, ensured)
      | some participantId =>
        match planPair ctx moment reg participantId ensured with
        | .error failure => .error failure
        | .ok (pairEventId, paired) =>
          .ok (enterIndividual ctx reg participantId pairEventId paired)

/-- The plan and the results so far. -/
structure Batch where
  /-- `plan`. -/
  plan : AcceptancePlan
  /-- `results`. -/
  results : List AcceptResult := []

/-- One turn of the loop over the targets. -/
def planNext (ctx : BulkAcceptContext) (batch : Except String Batch)
    (reg : RegistrationSnapshot) : Except String Batch :=
  match batch with
  | .error failure => .error failure
  | .ok batch =>
    if reg.declarationId ∈ batch.plan.handled then .ok batch
    else
      match planOne ctx batch.results.length reg batch.plan with
      | .error failure => .error failure
      | .ok (result, plan) => .ok ⟨plan, batch.results ++ [result]⟩

/-- The loop over the targets. -/
def planBatch (ctx : BulkAcceptContext) (targets : List RegistrationSnapshot) :
    Except String Batch :=
  targets.foldl (planNext ctx) (.ok { plan := newPlan ctx.tournamentRecord })

/-- The results, those of the folded partners included. -/
def reportHandled (batch : Batch) : List AcceptResult :=
  batch.plan.handled.foldl (fun results id =>
    if ∃ result ∈ results, result.registrationId = id then results
    else results ++ [{ registrationId := id, ok := true }]) batch.results

/-! ## The mutation -/

/-- A method of the mutation. -/
inductive QueueMethod where
  | addParticipants (participants : List Participant)
  | addEventEntries (eventId : String) (participantIds : List String)
  | addParticipantOtherId (stamp : OtherIdStamp)
  deriving DecidableEq

/-- The methods of `commitPlan`. -/
def planMethods (plan : AcceptancePlan) : List QueueMethod :=
  (if plan.newParticipants = [] then [] else [.addParticipants plan.newParticipants]) ++
    plan.entryMap.map (fun entry => .addEventEntries entry.1 entry.2) ++
    plan.participantOtherIdStamps.map .addParticipantOtherId

/-- There is something to commit. -/
def hasChanges (plan : AcceptancePlan) : Prop :=
  plan.newParticipants ≠ [] ∨ plan.entryMap ≠ []

instance (plan : AcceptancePlan) : Decidable (hasChanges plan) :=
  inferInstanceAs (Decidable (_ ∨ _))

/-- What an acceptance has done. -/
structure Acceptance where
  /-- The plan. -/
  plan : AcceptancePlan
  /-- `results`. -/
  results : List AcceptResult
  /-- The methods of the mutation that was committed. -/
  committed : List QueueMethod
  /-- The record after it. -/
  tournamentRecord : TournamentRecord
  /-- The registrations transitioned to `ACCEPTED`. -/
  transitioned : List String

/-- `acceptMany` from the plan on; `executionQueue` finds the record that it is given. -/
def acceptPlan (executionQueue : TournamentRecord → List QueueMethod →
    Except String TournamentRecord) (record : TournamentRecord) (batch : Batch) : Acceptance :=
  let results := reportHandled batch
  if hasChanges batch.plan then
    match executionQueue record (planMethods batch.plan) with
    | .error reason =>
      { plan := batch.plan
        results := results.map fun result =>
          if result.ok then { result with ok := false, reason := some reason } else result
        committed := []
        tournamentRecord := record
        transitioned := [] }
    | .ok after =>
      { plan := batch.plan
        results
        committed := planMethods batch.plan
        tournamentRecord := after
        transitioned := batch.plan.stampRegistrations }
  else
    { plan := batch.plan
      results
      committed := []
      tournamentRecord := record
      transitioned := batch.plan.stampRegistrations }

/-- `byPersonAndInvite`, as it is built from the registrations. -/
def partnersOf (all : List RegistrationSnapshot) (key : String) : Option RegistrationSnapshot :=
  lastOf key ((all.filter fun r => (truthy r.partnerInviteId).isSome).map fun r =>
    (r.personId ++ ":" ++ r.partnerInviteId.getD "", r))

/-- The targets: what was found of the ids, or the pending ones. -/
def selectTargets (fetched : Option (List (Option RegistrationSnapshot)))
    (pending : List RegistrationSnapshot) : List RegistrationSnapshot :=
  match fetched with
  | some found => found.filterMap id
  | none => pending.filter fun r => r.status ∈ ACCEPTABLE_ACCEPT_STATUSES

/-- What `acceptMany` reads once access is granted. -/
structure AcceptRequest where
  /-- `tournamentId`. -/
  tournamentId : String
  /-- The record as it was read. -/
  tournamentRecord : TournamentRecord
  /-- `factoryStampsExistingParticipants`. -/
  stampsExisting : Bool
  /-- The answers of the other services. -/
  reads : Reads
  /-- What was found of `registrationIds`, unless there are none. -/
  fetched : Option (List (Option RegistrationSnapshot))
  /-- The tournament's registrations, read for the targets. -/
  pending : List RegistrationSnapshot
  /-- The tournament's registrations, read for the partners. -/
  all : List RegistrationSnapshot

/-- `targets`. -/
def AcceptRequest.targets (request : AcceptRequest) : List RegistrationSnapshot :=
  selectTargets request.fetched request.pending

/-- What the loop works with; the partners are loaded only when a target has an invite. -/
def AcceptRequest.context (request : AcceptRequest) : BulkAcceptContext where
  tournamentId := request.tournamentId
  tournamentRecord := request.tournamentRecord
  stampsExisting := request.stampsExisting
  reads := request.reads
  byPersonAndInvite := partnersOf
    (if request.targets.any fun r => (truthy r.partnerInviteId).isSome then request.all
    else request.targets)

/-- `acceptMany`, where nobody changes the record in between. -/
def acceptMany (executionQueue : TournamentRecord → List QueueMethod →
    Except String TournamentRecord) (request : AcceptRequest) : Except String Acceptance :=
  (planBatch request.context request.targets).map
    (acceptPlan executionQueue request.tournamentRecord)

/-! ## What a plan enters -/

/-- The participant is entered in the event. -/
def Entered (record : TournamentRecord) (eventId participantId : String) : Prop :=
  ∃ event ∈ record.events, event.eventId = some eventId ∧ participantId ∈ event.entries

/-- The plan finds the participant entered in the event, or enters it. -/
def PlanEnters (plan : AcceptancePlan) (participantId eventId : String) : Prop :=
  entryKey participantId eventId ∈ plan.existingEntries ∨
    ∃ ids, (eventId, ids) ∈ plan.entryMap ∧ participantId ∈ ids

/-- One plan goes on from another one. -/
structure Extends (plan later : AcceptancePlan) : Prop where
  /-- Persons keep their participants. -/
  individuals : ∀ personId participantId, participantId ≠ "" →
    plan.individualByPerson personId = some participantId →
      later.individualByPerson personId = some participantId
  /-- Invites keep their pairs. -/
  pairs : ∀ inviteId participantId, participantId ≠ "" →
    plan.pairByInvite inviteId = some participantId →
      later.pairByInvite inviteId = some participantId
  /-- The entries of the record are what they are. -/
  existing : later.existingEntries = plan.existingEntries
  /-- What is entered stays entered. -/
  entered : ∀ participantId eventId, PlanEnters plan participantId eventId →
    PlanEnters later participantId eventId
  /-- Planned participants stay planned. -/
  participants : plan.newParticipants ⊆ later.newParticipants
  /-- What is stamped stays stamped. -/
  stamped : plan.stamped ⊆ later.stamped

variable {ctx : BulkAcceptContext} {plan later : AcceptancePlan}

theorem Extends.refl (plan : AcceptancePlan) : Extends plan plan :=
  ⟨fun _ _ _ h => h, fun _ _ _ h => h, rfl, fun _ _ h => h, fun _ h => h, fun _ h => h⟩

theorem Extends.trans {last : AcceptancePlan} (h : Extends plan later) (h' : Extends later last) :
    Extends plan last where
  individuals := fun _ _ hne hin => h'.individuals _ _ hne (h.individuals _ _ hne hin)
  pairs := fun _ _ hne hin => h'.pairs _ _ hne (h.pairs _ _ hne hin)
  existing := h'.existing.trans h.existing
  entered := fun _ _ hin => h'.entered _ _ (h.entered _ _ hin)
  participants := fun _ hin => h'.participants (h.participants hin)
  stamped := fun _ hin => h'.stamped (h.stamped hin)

theorem truthy_eq_some {text : Option String} {value : String} :
    truthy text = some value ↔ text = some value ∧ value ≠ "" := by
  unfold truthy
  rw [Option.filter_eq_some_iff, decide_eq_true_eq]

end FactoryServer.RegistrationAcceptance
