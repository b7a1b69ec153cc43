import FactoryServer.TournamentStorage

/-!
# Pinning the privacy policy of a provider's tournaments

A public route reads a tournament under the participant policy that is attached to its record,
else under one that is built from its provider's current settings. The backfill attaches that
policy to the tournaments of a provider, so that later settings reach them no more. It finds
them in the provider's calendar, where an unlisted tournament has no row, and it resolves the
policy once, for the provider of the request.
-/

namespace FactoryServer.PrivacyPins

open JsonValue TournamentAccess StorageTables TournamentStorage

/-! ## Policies -/

/-- The type of a participant policy. -/
def POLICY_TYPE_PARTICIPANT : String := "participant"

/-- `ProviderParticipantPrivacy`. -/
structure ParticipantPrivacy where
  /-- City and state are public. -/
  cityState : Bool
  /-- So is the sex. -/
  sex : Bool

/-- How `attachPolicies` fails. -/
inductive AttachError where
  /-- `EXISTING_POLICY_TYPE`. -/
  | existingPolicyType
  /-- Any other error. -/
  | other (error : Json)

/-- What the backfill uses besides the tables. -/
structure PinServices where
  /-- The participant entry of `POLICY_PRIVACY_DEFAULT`, which has no other. -/
  template : List (String × Json)
  /-- `getPolicyDefinitions` of a record, for the participant type. -/
  getPolicyDefinitions : TournamentRecord → Option Json
  /-- `attachPolicies`. -/
  attachPolicies : Json → TournamentRecord → Except AttachError TournamentRecord
  /-- `computeEffectiveConfig(caps, settings)?.participantPrivacy`. -/
  participantPrivacy : Option Json → Option Json → Option ParticipantPrivacy
  /-- A record has a calendar entry with a tournament id. -/
  yieldsEntry : TournamentRecord → Bool
  /-- The tournament storage takes a record. -/
  takes : String → TournamentRecord → Bool

variable (x : PinServices)

/-- `attachedParticipantPolicy`. -/
def attachedParticipantPolicy (record : TournamentRecord) : Option Json :=
  (x.getPolicyDefinitions record).filter fun attached =>
    truthy (attached.field? POLICY_TYPE_PARTICIPANT)

/-- Change what stands at a path of properties. -/
def modifyAt (change : Json → Json) : List String → Json → Json
  | [], value => change value
  | key :: path, .obj fields =>
    match (Json.obj fields).field? key with
    | some found => .obj (setField fields key (modifyAt change path found))
    | none => .obj fields
  | _, value => value

/-- `value[key] = assigned`. -/
def assign (key : String) (assigned : Json) : Json → Json
  | .obj fields => .obj (setField fields key assigned)
  | value => value

/-- `PUBLIC_TEAM_TEMPLATE`. -/
def PUBLIC_TEAM_TEMPLATE : Json :=
  .obj [("participantId", .bool true), ("participantName", .bool true),
    ("participantOtherName", .bool true), ("participantType", .bool true)]

/-- The two participant blocks of a policy. -/
def participantBlocks : List (List String) :=
  [["participant"], ["participant", "individualParticipants"]]

/-- Assign a property of every block, below a path. -/
def assignBlocks (below : List String) (key : String) (assigned policy : Json) : Json :=
  participantBlocks.foldl (fun policy block =>
    modifyAt (assign key assigned) (POLICY_TYPE_PARTICIPANT :: block ++ below) policy) policy

/-- `publicParticipantPrivacyPolicy`. -/
def publicParticipantPrivacyPolicy : Json :=
  assignBlocks [] "teams" PUBLIC_TEAM_TEMPLATE (.obj [(POLICY_TYPE_PARTICIPANT, .obj x.template)])

/-- `buildParticipantPrivacyPolicy`. -/
def buildParticipantPrivacyPolicy (privacy : Option ParticipantPrivacy) : Json :=
  let policy := publicParticipantPrivacyPolicy x
  let located := if privacy.any ParticipantPrivacy.cityState then
      assignBlocks ["person"] "addresses" (.obj [("city", .bool true), ("state", .bool true)]) policy
    else policy
  if privacy.any ParticipantPrivacy.sex then assignBlocks ["person"] "sex" (.bool true) located
  else located

/-- `resolvePublicParticipantPolicy`, which every public route applies. -/
def resolvePublicParticipantPolicy (providers : String → Option Provider)
    (record : TournamentRecord) : Json :=
  match attachedParticipantPolicy x record with
  | some attached => attached
  | none =>
    buildParticipantPrivacyPolicy x ((getTournamentProviderId record).bind fun providerId =>
      let provider := providers providerId
      x.participantPrivacy (provider.map Provider.providerConfigCaps)
        (provider.map Provider.providerConfigSettings))

/-- `documentPolicy`, which the participant documents are built under. -/
def documentPolicy (record : TournamentRecord) : Json :=
  (attachedParticipantPolicy x record).getD (publicParticipantPrivacyPolicy x)

/-! ## The stored tournaments -/

/-- The tables. -/
structure PrivacyState where
  /-- `providers`. -/
  providers : String → Option Provider
  /-- `tournaments`. -/
  tournaments : String → Option TournamentRecord
  /-- The tournament and the provider of each row of `calendar_tournaments`, as it is listed. -/
  calendar : List (String × String)

/-- `listProviderTournaments`, by the ids. -/
def listProviderTournaments (s : PrivacyState) (providerId : String) : List String :=
  (s.calendar.filter fun row => row.2 = providerId).map Prod.fst

/-- `upsertTournament`: a tournament has one row. -/
def upsertTournament (calendar : List (String × String)) (tournamentId providerId : String) :
    List (String × String) :=
  if calendar.any fun row => row.1 = tournamentId then
    calendar.map fun row => if row.1 = tournamentId then (tournamentId, providerId) else row
  else calendar ++ [(tournamentId, providerId)]

/-- The calendar after a listed record is saved. -/
def addToOrUpdateCalendar (s : PrivacyState) (tournamentId : String) (record : TournamentRecord) :
    PrivacyState :=
  match getTournamentProviderId record with
  | none => s
  | some providerId =>
    if isCalendarListed record && (s.providers providerId).isSome && x.yieldsEntry record then
      { s with calendar := upsertTournament s.calendar tournamentId providerId }
    else s

/-- Only a test tournament needs no provider. -/
def mayBeSaved (tournamentId : String) (record : TournamentRecord) : Bool :=
  (getTournamentProviderId record).isSome || tournamentId == "test" ||
    startsWith tournamentId "test-"

/-- `saveTournamentRecord`, and whether it succeeded. -/
def saveTournamentRecord (s : PrivacyState) (tournamentId : String) (record : TournamentRecord) :
    PrivacyState × Bool :=
  if !mayBeSaved tournamentId record then (s, false) else
  let listed := addToOrUpdateCalendar x s tournamentId record
  if x.takes tournamentId record then
    ({ listed with tournaments := Function.update listed.tournaments tournamentId (some record) },
      true)
  else (listed, false)

/-- `executionQueue` of one `attachPolicies`. -/
def attachThroughQueue (s : PrivacyState) (tournamentId : String) (policyDefinitions : Json) :
    PrivacyState × Except AttachError Unit :=
  match s.tournaments tournamentId with
  | none => (s, .error (.other (.str "ERR_MISSING_TOURNAMENT")))
  | some record =>
    match x.attachPolicies policyDefinitions record with
    | .error error => (s, .error error)
    | .ok attached =>
      let saved := saveTournamentRecord x s tournamentId attached
      (saved.1, if saved.2 then .ok () else
        .error (.other (.str "Could not persist tournament record(s)")))

/-! ## The backfill -/

/-- What the backfill reports. -/
structure PinReport where
  /-- The tournaments that were pinned. -/
  pinned : List String := []
  /-- Those that were so before. -/
  alreadyPinned : List String := []
  /-- The others, with their errors. -/
  failed : List (String × Json) := []

/-- The record that the policy of a provider is resolved for. -/
def bareRecord (providerId : String) : TournamentRecord where
  tournamentId := none
  organisationId := some providerId
  extensions := []
  tournamentName := none
  startDate := none
  endDate := none
  isMock := false
  content := .null

/-- The backfill of one tournament. -/
def pinTournament (dryRun : Bool) (policyDefinitions : Json) (run : PrivacyState × PinReport)
    (tournamentId : String) : PrivacyState × PinReport :=
  let (s, report) := run
  if tournamentId = "" then run else
  match s.tournaments tournamentId with
  | none =>
    (s, { report with failed := report.failed ++ [(tournamentId, .str "record not found")] })
  | some record =>
    if (attachedParticipantPolicy x record).isSome then
      (s, { report with alreadyPinned := report.alreadyPinned ++ [tournamentId] })
    else if dryRun then (s, { report with pinned := report.pinned ++ [tournamentId] })
    else
      match attachThroughQueue x s tournamentId policyDefinitions with
      | (after, .ok ()) => (after, { report with pinned := report.pinned ++ [tournamentId] })
      | (after, .error .existingPolicyType) =>
        (after, { report with alreadyPinned := report.alreadyPinned ++ [tournamentId] })
      | (after, .error (.other error)) =>
        (after, { report with failed := report.failed ++ [(tournamentId, error)] })

/-- The policy that is pinned. -/
def pinnedPolicy (s : PrivacyState) (providerId : String) : Json :=
  resolvePublicParticipantPolicy x s.providers (bareRecord providerId)

/-- `backfillParticipantPrivacyPins`; without the provider there is none. -/
def backfillParticipantPrivacyPins (s : PrivacyState) (providerId : String) (dryRun : Bool) :
    Option (PrivacyState × PinReport) :=
  if (s.providers providerId).isNone then none else
  some ((listProviderTournaments s providerId).foldl
    (pinTournament x dryRun (pinnedPolicy x s providerId)) (s, {}))

/-- The documented behaviour of the policy functions. -/
structure PinServices.Lawful (x : PinServices) : Prop where
  /-- A policy that was attached is the one that is found, and the provider stays. -/
  attaches : ∀ policy record attached,
    x.attachPolicies (.obj [(POLICY_TYPE_PARTICIPANT, .obj policy)]) record = .ok attached →
    x.getPolicyDefinitions attached = some (.obj [(POLICY_TYPE_PARTICIPANT, .obj policy)]) ∧
      attached.organisationId = record.organisationId
  /-- Only a policy that is there is reported. -/
  existing : ∀ policyDefinitions record,
    x.attachPolicies policyDefinitions record = .error .existingPolicyType →
    (attachedParticipantPolicy x record).isSome
  /-- A record without extensions has none. -/
  bare : ∀ record, record.extensions = [] → attachedParticipantPolicy x record = none

end FactoryServer.PrivacyPins
