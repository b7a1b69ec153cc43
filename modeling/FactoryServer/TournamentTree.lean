import FactoryServer.JsonValue

/-!
# The tree of a tournament record

Events hold draws, draws hold structures, and structures hold matchUps and
child structures. The types name the fields that the server walks; what only
the competition engine reads is opaque.
-/

namespace FactoryServer.TournamentTree

open JsonValue

/-- A matchUp and its schedule. -/
structure MatchUp where
  /-- Identity. -/
  matchUpId : String
  /-- Identities of the rubbers of a team matchUp. -/
  tieMatchUpIds : List String
  /-- `schedule?.courtId`. -/
  courtId : Option String
  /-- `schedule?.scheduledDate`. -/
  scheduledDate : Option String
  /-- Every other attribute. -/
  content : Json

/-- One seed of a structure. -/
structure SeedAssignment where
  /-- The seeded participant, when the seed is held. -/
  participantId : Option String
  /-- Every other attribute. -/
  content : Json

/-- A structure; a round robin nests its groups as child structures. -/
inductive Structure where
  | node (structureId : Option String) (matchUps : List MatchUp)
      (seedAssignments : List SeedAssignment) (content : Json) (structures : List Structure)

/-- Identity of a structure. -/
def Structure.structureId : Structure → Option String
  | .node structureId _ _ _ _ => structureId

/-- Seeds of a structure. -/
def Structure.seedAssignments : Structure → List SeedAssignment
  | .node _ _ seedAssignments _ _ => seedAssignments

/-- A draw. -/
structure DrawDefinition where
  /-- Identity. -/
  drawId : Option String
  /-- Top-level structures. -/
  structures : List Structure
  /-- Every other attribute. -/
  content : Json

/-- An event. -/
structure Event where
  /-- Identity. -/
  eventId : Option String
  /-- Draws. -/
  drawDefinitions : List DrawDefinition
  /-- Every other attribute. -/
  content : Json

/-- A court of a venue. -/
structure Court where
  /-- Identity. -/
  courtId : Option String
  /-- Every other attribute. -/
  content : Json

/-- A venue. -/
structure Venue where
  /-- Identity. -/
  venueId : String
  /-- Courts. -/
  courts : List Court
  /-- Every other attribute. -/
  content : Json

/-- A participant. -/
structure Participant where
  /-- Identity. -/
  participantId : Option String
  /-- `personId` of the `CANONICAL_PERSON` entry of `person.personOtherIds`. -/
  canonicalPersonId : Option String
  /-- Every other attribute. -/
  content : Json

/-- A tournament record. -/
structure RecordTree where
  /-- Identity. -/
  tournamentId : String
  /-- `parentOrganisation?.organisationId`. -/
  organisationId : Option String
  /-- Events. -/
  events : List Event
  /-- Venues. -/
  venues : List Venue
  /-- Participants. -/
  participants : List Participant
  /-- Every other attribute. -/
  content : Json

mutual

/-- The matchUps of a structure and of its child structures. -/
def Structure.allMatchUps : Structure → List MatchUp
  | .node _ matchUps _ _ structures => matchUps ++ matchUpsOfAll structures

/-- The matchUps of several structures. -/
def matchUpsOfAll : List Structure → List MatchUp
  | [] => []
  | first :: rest => first.allMatchUps ++ matchUpsOfAll rest

end

/-- Identities of the matchUps of a record, rubbers included. -/
def RecordTree.matchUpIds (record : RecordTree) : List String :=
  record.events.flatMap fun event => event.drawDefinitions.flatMap fun drawDefinition =>
    (matchUpsOfAll drawDefinition.structures).flatMap fun m => m.matchUpId :: m.tieMatchUpIds

end FactoryServer.TournamentTree
