import FactoryServer.GuardedRuns
import FactoryServer.RegistrationAcceptance

/-!
# Who an acceptance enters

A registration that is planned in its own turn enters its person in every event it
resolves to, or the pair of its invite in the pair's event. A registration that is
folded in as a partner is skipped in its own turn: it is entered in the pair's event
only, and everything else it asks for must have been entered already.
-/

namespace FactoryServer.AcceptedEntries

open InsertionMaps GuardedRuns RegistrationAcceptance

/-! ## What is to be shown -/

/-- The person's individual participant. -/
def IsIndividualOf (personId : String) (participant : Participant) : Prop :=
  participant.participantType = "INDIVIDUAL" ∧
    (personId = "" ∨ canonicalId participant = some personId)

/-- The record has a pair of that id. -/
def HasPair (participants : List Participant) (pairId : String) : Prop :=
  ∃ pair ∈ participants, pair.participantId = pairId ∧ pair.participantType = "PAIR"

/-- What the engine does with the methods of a plan. -/
structure Commits (executionQueue : TournamentRecord → List QueueMethod →
    Except String TournamentRecord) : Prop where
  /-- Entries are kept. -/
  kept : ∀ record methods after, executionQueue record methods = .ok after →
    ∀ eventId participantId, Entered record eventId participantId →
      Entered after eventId participantId
  /-- `addEventEntries`. -/
  entered : ∀ record methods after, executionQueue record methods = .ok after →
    ∀ eventId participantIds, .addEventEntries eventId participantIds ∈ methods →
      ∀ participantId ∈ participantIds, Entered after eventId participantId
  /-- Participants are kept, and `addParticipants` adds some. -/
  participants : ∀ record methods after, executionQueue record methods = .ok after →
    ∀ participant, (participant ∈ record.participants ∨
      ∃ added, .addParticipants added ∈ methods ∧ participant ∈ added) →
      ∃ there ∈ after.participants, there.participantId = participant.participantId ∧
        there.participantType = participant.participantType ∧
        canonicalId there = canonicalId participant

/-- No other pair of ids has the text of an entry, and a pair has an id. -/
def Legible (record : TournamentRecord) : Prop :=
  (∀ eventId participantId, Entered record eventId participantId →
    ∀ otherEvent other, entryKey other otherEvent = entryKey participantId eventId →
      other = participantId ∧ otherEvent = eventId) ∧
    ∀ participant ∈ record.participants, participant.participantType = "PAIR" →
      participant.participantId ≠ ""

/-- A partner whose registration is brought in by another one was planned before, or asks for
nothing but the pair's event and events that its person is entered in already. -/
def FoldsPartner (ctx : BulkAcceptContext) (plan : AcceptancePlan) (moment : ℕ)
    (reg : RegistrationSnapshot) : Prop :=
  ∀ pair, invitedPair ctx moment reg = .ok (some pair) →
    ∀ partner, pair.partnerReg = some partner →
      partner.personId = pair.partnerPersonId ∧
        truthy partner.partnerInviteId = some pair.inviteId ∧
        (partner ∈ plan.stamped ∨
          ∀ eventId ∈ resolveAcceptedEventIds ctx.tournamentRecord partner.eventIds,
            some eventId = pair.pairEventId ∨
              ∃ participantId, participantId ≠ "" ∧
                plan.individualByPerson partner.personId = some participantId ∧
                PlanEnters plan participantId eventId)

section Invariant

variable (ctx : BulkAcceptContext)

/-- The plan enters all that the registration asks for. -/
def Satisfied (plan : AcceptancePlan) (reg : RegistrationSnapshot) : Prop :=
  ∃ participantId, participantId ≠ "" ∧
    plan.individualByPerson reg.personId = some participantId ∧
    ∀ eventId ∈ resolveAcceptedEventIds ctx.tournamentRecord reg.eventIds,
      PlanEnters plan participantId eventId ∨
        ∃ inviteId pairId, truthy reg.partnerInviteId = some inviteId ∧ pairId ≠ "" ∧
          plan.pairByInvite inviteId = some pairId ∧ PlanEnters plan pairId eventId

/-- What every plan of the loop meets. -/
structure Planned (plan : AcceptancePlan) : Prop where
  /-- The participants of persons are individuals, in the record or planned. -/
  known : ∀ personId participantId, plan.individualByPerson personId = some participantId →
    ∃ participant ∈ ctx.tournamentRecord.participants ++ plan.newParticipants,
      participant.participantId = participantId ∧ IsIndividualOf personId participant
  /-- Pairs have ids. -/
  named : ∀ key pairId, plan.pairByMembers key = some pairId → pairId ≠ ""
  /-- Pairs that are known by their members are in the record or planned. -/
  members : ∀ key pairId, plan.pairByMembers key = some pairId →
    HasPair (ctx.tournamentRecord.participants ++ plan.newParticipants) pairId
  /-- So are the pairs of invites. -/
  invited : ∀ inviteId pairId, plan.pairByInvite inviteId = some pairId →
    HasPair (ctx.tournamentRecord.participants ++ plan.newParticipants) pairId
  /-- The entries of the record are known. -/
  existing : plan.existingEntries = (newPlan ctx.tournamentRecord).existingEntries
  /-- What is stamped is satisfied. -/
  satisfied : ∀ reg ∈ plan.stamped, Satisfied ctx plan reg

variable {ctx} {plan later : AcceptancePlan}

/-- A plan that goes on still satisfies a registration. -/
theorem Satisfied.mono {reg : RegistrationSnapshot} (h : Satisfied ctx plan reg)
    (hextends : Extends plan later) : Satisfied ctx later reg := by
  obtain ⟨participantId, hne, hindividual, hevents⟩ := h
  refine ⟨participantId, hne, hextends.individuals _ _ hne hindividual, fun eventId hevent => ?_⟩
  refine (hevents eventId hevent).imp (hextends.entered _ _) ?_
  rintro ⟨inviteId, pairId, hinvite, hpairId, hpair, henters⟩
  exact ⟨inviteId, pairId, hinvite, hpairId, hextends.pairs _ _ hpairId hpair,
    hextends.entered _ _ henters⟩

/-- Pairs are not lost when more participants are planned. -/
theorem HasPair.mono {pairId : String}
    (h : HasPair (ctx.tournamentRecord.participants ++ plan.newParticipants) pairId)
    (hnew : plan.newParticipants ⊆ later.newParticipants) :
    HasPair (ctx.tournamentRecord.participants ++ later.newParticipants) pairId := by
  obtain ⟨pair, hmem, hrest⟩ := h
  refine ⟨pair, ?_, hrest⟩
  exact (List.mem_append.mp hmem).elim (List.mem_append_left _)
    fun hin => List.mem_append_right _ (hnew hin)

/-- A plan that goes on without stamping, naming or planning persons. -/
theorem Planned.mono (h : Planned ctx plan) (hextends : Extends plan later)
    (hindividuals : later.individualByPerson = plan.individualByPerson)
    (hmembers : later.pairByMembers = plan.pairByMembers)
    (hinvites : later.pairByInvite = plan.pairByInvite)
    (hstamped : later.stamped = plan.stamped) : Planned ctx later where
  known := by
    intro personId participantId hin
    rw [hindividuals] at hin
    obtain ⟨participant, hmem, hid⟩ := h.known personId participantId hin
    refine ⟨participant, ?_, hid⟩
    exact (List.mem_append.mp hmem).elim (List.mem_append_left _)
      fun hnew => List.mem_append_right _ (hextends.participants hnew)
  named := by
    rw [hmembers]
    exact h.named
  members := by
    rw [hmembers]
    exact fun key pairId hin => (h.members key pairId hin).mono hextends.participants
  invited := by
    rw [hinvites]
    exact fun inviteId pairId hin => (h.invited inviteId pairId hin).mono hextends.participants
  existing := hextends.existing.trans h.existing
  satisfied := by
    rw [hstamped]
    exact fun reg hreg => (h.satisfied reg hreg).mono hextends

/-- A plan that goes on still meets the condition. -/
theorem FoldsPartner.mono {moment : ℕ} {reg : RegistrationSnapshot}
    (h : FoldsPartner ctx plan moment reg) (hextends : Extends plan later) :
    FoldsPartner ctx later moment reg := by
  intro pair hpair partner hpartner
  obtain ⟨hperson, hinvite, hevents⟩ := h pair hpair partner hpartner
  refine ⟨hperson, hinvite, hevents.imp (fun hin => hextends.stamped hin) fun hall => ?_⟩
  refine fun eventId hin => (hall eventId hin).imp id ?_
  rintro ⟨participantId, hne, hindividual, henters⟩
  exact ⟨participantId, hne, hextends.individuals _ _ hne hindividual,
    hextends.entered _ _ henters⟩

end Invariant

/-! ## The whole acceptance -/

variable {executionQueue : TournamentRecord → List QueueMethod → Except String TournamentRecord}

/-- The ids that the methods enter in an event. -/
def entriesFor (eventId : Option String) (methods : List QueueMethod) : List String :=
  methods.flatMap fun
    | .addEventEntries id ids => if eventId = some id then ids else []
    | _ => []

/-- The participants that the methods add. -/
def participantsOf (methods : List QueueMethod) : List Participant :=
  methods.flatMap fun
    | .addParticipants participants => participants
    | _ => []

/-- An engine that appends participants and entries, and knows no other events. -/
def appending (record : TournamentRecord) (methods : List QueueMethod) :
    Except String TournamentRecord :=
  if methods.all fun
      | .addEventEntries id _ => record.events.any fun event => event.eventId = some id
      | _ => true then
    .ok
      { participants := record.participants ++ participantsOf methods
        events := record.events.map fun event =>
          { event with entries := event.entries ++ entriesFor event.eventId methods } }
  else .error "EVENT_NOT_FOUND"

/-- A registration of a person, with an invite. -/
def sampleRegistration (declarationId personId : String) (eventIds : List String) :
    RegistrationSnapshot where
  declarationId := declarationId
  personId := personId
  tournamentId := some "t"
  status := "SUBMITTED"
  eventIds := eventIds
  partnerInviteId := some "i"
  applicant := (some "A", some "B")
  participantOtherIds := []
  participantId := none

/-- The reads of a batch about one pair. -/
def sampleReads : Reads where
  person := fun _ _ => none
  pairStatus := fun _ _ => .ok (some ⟨true, some "doubles", none, some "anna", some "beth"⟩)
  mint := fun n => String.ofList (List.replicate (n + 1) 'u')
  now := ""

/-- The two registrations of a pair, the first for the doubles only. -/
def sampleRequest (partnerEventIds : List String) : AcceptRequest where
  tournamentId := "t"
  tournamentRecord :=
    { participants := []
      events := [⟨some "singles", none, []⟩, ⟨some "doubles", none, []⟩] }
  stampsExisting := false
  reads := sampleReads
  fetched := none
  pending := [sampleRegistration "a" "anna" ["doubles"],
    sampleRegistration "b" "beth" partnerEventIds]
  all := [sampleRegistration "a" "anna" ["doubles"],
    sampleRegistration "b" "beth" partnerEventIds]

end FactoryServer.AcceptedEntries
