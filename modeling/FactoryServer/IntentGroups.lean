import FactoryServer.ProjectionDeltas

/-!
# What the groups hold

Grouping runs once over the intents and writes eighteen maps, sets and lists.
Each of them is the map, set or list of what the single intents contribute, in
their order, so a later intent replaces an earlier one exactly when both
contribute the same key.
-/

namespace FactoryServer.IntentGroups

open JsonValue TournamentTree InsertionMaps ReadModelRows ProjectionDeltas

/-- Draws to flatten. -/
def flattenPairs (records : Records) : ProjectionIntent → List (String × (String × String))
  | .flattenDraw t drawId => [(drawKey t drawId, (t, drawId))]
  | .republishEvent t eventId =>
    (eventDrawIds records t eventId).map fun drawId => (drawKey t drawId, (t, drawId))
  | _ => []

/-- Tournaments whose row is upserted. -/
def touches : ProjectionIntent → List String
  | .flattenDraw t _ | .republishEvent t _ | .touchTournament t | .participants t
  | .venue t _ => [t]
  | _ => []

/-- Tournaments whose entries are refreshed. -/
def entryRefreshes : ProjectionIntent → List String
  | .participants t | .entries t => [t]
  | _ => []

/-- Tournaments whose events are refreshed. -/
def eventRefreshes : ProjectionIntent → List String
  | .events t => [t]
  | _ => []

/-- Draws to re-project. -/
def drawPairs : ProjectionIntent → List (String × String)
  | .draw t drawId => [(drawId, t)]
  | _ => []

/-- Structures whose seeds are re-projected. -/
def seedPairs : ProjectionIntent → List (String × String)
  | .seeds t structureId => [(structureId, t)]
  | _ => []

/-- Tournaments whose order of play is refreshed. -/
def orderOfPlayRefreshes : ProjectionIntent → List String
  | .orderOfPlay t => [t]
  | _ => []

/-- Scheduling plans. -/
def profilePairs : ProjectionIntent → List (String × Json)
  | .schedulingProfile t profile => [(t, profile)]
  | _ => []

/-- Tournaments whose participant list is refreshed. -/
def participantPublishRefreshes : ProjectionIntent → List String
  | .participantPublish t => [t]
  | _ => []

/-- Results of matchUps. -/
def resultPairs : ProjectionIntent → List (String × (String × ResultMatchUp))
  | .matchUpResult t matchUp => [(matchUp.matchUpId, (t, matchUp))]
  | _ => []

/-- Venues to re-project. -/
def venuePairs : ProjectionIntent → List (String × (String × Venue))
  | .venue t venue => [(venue.venueId, (t, venue))]
  | _ => []

/-- Venue links to delete. -/
def deletedVenues : ProjectionIntent → List (String × String)
  | .deleteVenue t venueId => [(t, venueId)]
  | _ => []

/-- Draws to delete. -/
def deletedDraws : ProjectionIntent → List (String × String)
  | .deleteDraw t drawId => [(t, drawId)]
  | _ => []

/-- MatchUps to delete. -/
def deletedMatchUps : ProjectionIntent → List (String × String)
  | .deleteMatchUps t matchUpIds => matchUpIds.map fun id => (id, t)
  | _ => []

/-- Events to delete. -/
def deletedEvents : ProjectionIntent → List (String × String)
  | .deleteEvent t eventId => [(eventId, t)]
  | _ => []

/-- Participants to delete. -/
def deletedParticipants : ProjectionIntent → List (String × List String)
  | .deleteParticipants t participantIds => [(t, participantIds)]
  | _ => []

/-- Claims. -/
def claimPairs : ProjectionIntent → List (String × Claim)
  | .claimPerson t participantId personId => [(participantId, ⟨t, participantId, personId⟩)]
  | _ => []

/-- Names. -/
def namePairs : ProjectionIntent → List (String × NameChange)
  | .participantName t participantId name =>
    [(drawKey t participantId, ⟨t, participantId, name⟩)]
  | _ => []

/-- Every group is built from what the single intents contribute. -/
theorem group_eq (intents : List ProjectionIntent) (records : Records) :
    group intents records =
      { flattenDraws := mapOf (intents.flatMap (flattenPairs records))
        touched := setOf (intents.flatMap touches)
        participants := setOf (intents.flatMap entryRefreshes)
        events := setOf (intents.flatMap eventRefreshes)
        draws := mapOf (intents.flatMap drawPairs)
        seeds := mapOf (intents.flatMap seedPairs)
        orderOfPlay := setOf (intents.flatMap orderOfPlayRefreshes)
        schedulingProfiles := mapOf (intents.flatMap profilePairs)
        participantPublish := setOf (intents.flatMap participantPublishRefreshes)
        matchUpResults := mapOf (intents.flatMap resultPairs)
        venues := mapOf (intents.flatMap venuePairs)
        deleteVenues := intents.flatMap deletedVenues
        deleteDraws := intents.flatMap deletedDraws
        deleteMatchUps := mapOf (intents.flatMap deletedMatchUps)
        deleteEvents := mapOf (intents.flatMap deletedEvents)
        deleteParticipants := intents.flatMap deletedParticipants
        claims := mapOf (intents.flatMap claimPairs)
        participantNames := mapOf (intents.flatMap namePairs) } := by
  induction intents using List.reverseRecOn with
  | nil => rfl
  | append_singleton intents intent ih =>
    have hstep : group (intents ++ [intent]) records =
        (group intents records).add records intent := by
      unfold group
      rw [List.foldl_append]
      rfl
    rw [hstep, ih]
    simp only [List.flatMap_append, List.flatMap_singleton, mapOf_append, setOf_append]
    cases intent <;>
      simp [Grouped.add, flattenPairs, touches, entryRefreshes, eventRefreshes, drawPairs,
        seedPairs, orderOfPlayRefreshes, profilePairs, participantPublishRefreshes, resultPairs,
        venuePairs, deletedVenues, deletedDraws, deletedMatchUps, deletedEvents,
        deletedParticipants, claimPairs, namePairs, List.foldl_map]

end FactoryServer.IntentGroups
