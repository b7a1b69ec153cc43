import FactoryServer.InsertionMaps
import FactoryServer.ReadModelRows

/-!
# From intents to deltas

During a mutation the notice handlers record intents: which draw, event,
participant or venue changed. After the save the intents are grouped, and the
groups are turned into read-model deltas against the final records: refreshes
first, deletes last.
-/

namespace FactoryServer.ProjectionDeltas

open JsonValue TournamentAccess TournamentTree KeyedTables InsertionMaps ReadModelRows

/-- `ProjectionIntent`. -/
inductive ProjectionIntent where
  | flattenDraw (tournamentId drawId : String)
  | matchUpResult (tournamentId : String) (matchUp : ResultMatchUp)
  | republishEvent (tournamentId eventId : String)
  | claimPerson (tournamentId participantId personId : String)
  | participantName (tournamentId participantId : String) (name : Option String)
  | touchTournament (tournamentId : String)
  | participants (tournamentId : String)
  | entries (tournamentId : String)
  | events (tournamentId : String)
  | draw (tournamentId drawId : String)
  | seeds (tournamentId structureId : String)
  | orderOfPlay (tournamentId : String)
  | schedulingProfile (tournamentId : String) (profile : Json)
  | participantPublish (tournamentId : String)
  | venue (tournamentId : String) (venue : Venue)
  | deleteVenue (tournamentId venueId : String)
  | deleteDraw (tournamentId drawId : String)
  | deleteMatchUps (tournamentId : String) (matchUpIds : List String)
  | deleteEvent (tournamentId eventId : String)
  | deleteParticipants (tournamentId : String) (participantIds : List String)

/-- The tournament an intent is about. -/
def ProjectionIntent.tournamentId : ProjectionIntent → String
  | .flattenDraw t _ | .matchUpResult t _ | .republishEvent t _ | .claimPerson t _ _
  | .participantName t _ _ | .touchTournament t | .participants t | .entries t | .events t
  | .draw t _ | .seeds t _ | .orderOfPlay t | .schedulingProfile t _ | .participantPublish t
  | .venue t _ | .deleteVenue t _ | .deleteDraw t _ | .deleteMatchUps t _ | .deleteEvent t _
  | .deleteParticipants t _ => t

/-- The records of a mutation, by tournament id. -/
abbrev Records := String → Option RecordTree

/-- A claim of a participant by a person. -/
structure Claim where
  /-- The tournament. -/
  tournamentId : String
  /-- The claimed participant. -/
  participantId : String
  /-- The canonical person. -/
  personId : String

/-- A participant's latest name. -/
structure NameChange where
  /-- The tournament. -/
  tournamentId : String
  /-- The participant. -/
  participantId : String
  /-- The name. -/
  participantName : Option String

/-- Grouped, de-duplicated intents. -/
structure Grouped where
  /-- Draws to flatten, by tournament and draw. -/
  flattenDraws : List (String × (String × String)) := []
  /-- Tournaments needing a tournaments upsert. -/
  touched : List String := []
  /-- Tournaments needing an entries refresh. -/
  participants : List String := []
  /-- Tournaments needing an events refresh. -/
  events : List String := []
  /-- Draws to re-project, with their tournament. -/
  draws : List (String × String) := []
  /-- Structures whose seeds to re-project, with their tournament. -/
  seeds : List (String × String) := []
  /-- Tournaments needing an order-of-play refresh. -/
  orderOfPlay : List String := []
  /-- Scheduling plans, by tournament. -/
  schedulingProfiles : List (String × Json) := []
  /-- Tournaments needing a participant-list refresh. -/
  participantPublish : List String := []
  /-- Latest result of a matchUp, with its tournament. -/
  matchUpResults : List (String × (String × ResultMatchUp)) := []
  /-- Venues, with their tournament. -/
  venues : List (String × (String × Venue)) := []
  /-- Venue links to delete. -/
  deleteVenues : List (String × String) := []
  /-- Draws to delete. -/
  deleteDraws : List (String × String) := []
  /-- MatchUps to delete, with their tournament. -/
  deleteMatchUps : List (String × String) := []
  /-- Events to delete, with their tournament. -/
  deleteEvents : List (String × String) := []
  /-- Participants to delete. -/
  deleteParticipants : List (String × List String) := []
  /-- Claims, by participant. -/
  claims : List (String × Claim) := []
  /-- Names, by tournament and participant. -/
  participantNames : List (String × NameChange) := []

/-- `drawKey`. -/
def drawKey (tournamentId drawId : String) : String := tournamentId ++ "::" ++ drawId

/-- `eventDrawIds`: the draws of an event of the final record. -/
def eventDrawIds (records : Records) (tournamentId eventId : String) : List String :=
  match records tournamentId with
  | none => []
  | some record =>
    match record.events.find? fun event => event.eventId == some eventId with
    | none => []
    | some event => event.drawDefinitions.filterMap fun draw => nonEmpty draw.drawId

/-- The `switch` of `group`. -/
def Grouped.add (records : Records) (g : Grouped) : ProjectionIntent → Grouped
  | .flattenDraw t drawId =>
    { g with
      flattenDraws := setEntry g.flattenDraws (drawKey t drawId) (t, drawId)
      touched := addItem g.touched t }
  | .republishEvent t eventId =>
    { g with
      flattenDraws := (eventDrawIds records t eventId).foldl
        (fun entries drawId => setEntry entries (drawKey t drawId) (t, drawId)) g.flattenDraws
      touched := addItem g.touched t }
  | .matchUpResult t matchUp =>
    { g with matchUpResults := setEntry g.matchUpResults matchUp.matchUpId (t, matchUp) }
  | .touchTournament t => { g with touched := addItem g.touched t }
  | .participants t =>
    { g with participants := addItem g.participants t, touched := addItem g.touched t }
  | .entries t => { g with participants := addItem g.participants t }
  | .events t => { g with events := addItem g.events t }
  | .draw t drawId => { g with draws := setEntry g.draws drawId t }
  | .seeds t structureId => { g with seeds := setEntry g.seeds structureId t }
  | .orderOfPlay t => { g with orderOfPlay := addItem g.orderOfPlay t }
  | .schedulingProfile t profile =>
    { g with schedulingProfiles := setEntry g.schedulingProfiles t profile }
  | .participantPublish t => { g with participantPublish := addItem g.participantPublish t }
  | .venue t venue =>
    { g with venues := setEntry g.venues venue.venueId (t, venue), touched := addItem g.touched t }
  | .deleteVenue t venueId => { g with deleteVenues := g.deleteVenues ++ [(t, venueId)] }
  | .deleteDraw t drawId => { g with deleteDraws := g.deleteDraws ++ [(t, drawId)] }
  | .deleteMatchUps t matchUpIds =>
    { g with
      deleteMatchUps :=
        matchUpIds.foldl (fun entries id => setEntry entries id t) g.deleteMatchUps }
  | .deleteEvent t eventId => { g with deleteEvents := setEntry g.deleteEvents eventId t }
  | .deleteParticipants t participantIds =>
    { g with deleteParticipants := g.deleteParticipants ++ [(t, participantIds)] }
  | .claimPerson t participantId personId =>
    { g with claims := setEntry g.claims participantId ⟨t, participantId, personId⟩ }
  | .participantName t participantId name =>
    { g with
      participantNames :=
        setEntry g.participantNames (drawKey t participantId) ⟨t, participantId, name⟩ }

/-- `group`. -/
def group (intents : List ProjectionIntent) (records : Records) : Grouped :=
  intents.foldl (Grouped.add records) {}

/-- `ProjectionDelta`. -/
structure ProjectionDelta where
  /-- The tournament the delta is filed under. -/
  tournamentId : String
  /-- The notice behind it. -/
  topic : String
  /-- The statement. -/
  change : ReadChange

/-- `upsert`. -/
def upsert (tournamentId : String) (table : ReadTable) (key : Key String Cell) (row : ReadRow)
    (topic : String) : ProjectionDelta :=
  ⟨tournamentId, topic, .upsert table key row⟩

/-- `del`: a key of ids. -/
def del (tournamentId : String) (table : ReadTable) (key : List (String × String))
    (topic : String) : ProjectionDelta :=
  ⟨tournamentId, topic, .delete table (key.map fun entry => (entry.1, some (.text entry.2)))⟩

/-- `update`: a key of ids. -/
def update (tournamentId : String) (table : ReadTable) (key : List (String × String))
    (row : ReadRow) (topic : String) : ProjectionDelta :=
  ⟨tournamentId, topic, .update table (key.map fun entry => (entry.1, some (.text entry.2))) row⟩

/-- A row of the given cells. -/
def rowOf (cells : List (String × Cell)) : ReadRow := fun column =>
  (cells.find? fun cell => cell.1 = column).map Prod.snd

/-- `{ col1: row.col1, … }`. -/
def keyOf (row : ReadRow) (columns : List String) : Key String Cell :=
  columns.map fun column => (column, row column)

/-- `providerIdOf`. -/
def providerIdOf (records : Records) (tournamentId : String) : Option String :=
  (records tournamentId).bind RecordTree.organisationId

/-- `LINK_CANONICAL`. -/
def LINK_CANONICAL : String := "canonical"

/-- `TEAM_PARTICIPANT`. -/
def TEAM_PARTICIPANT : String := "TEAM"

section Builders

variable (model : ReadModel) (records : Records)

/-- `tournamentDeltas`. -/
def tournamentDeltas (g : Grouped) : List ProjectionDelta :=
  g.touched.filterMap fun t => (records t).map fun record =>
    upsert t .tournaments [("tournament_id", some (.text t))] (model.tournamentRow record)
      "touchTournament"

/-- `discoveryDeltas`: one row for every tournament with any intent. -/
def discoveryDeltas (g : Grouped) : List ProjectionDelta :=
  let tournamentIds := setOf (g.touched ++ g.participants ++ g.events ++ g.orderOfPlay ++
    g.participantPublish ++ g.draws.map Prod.snd ++ g.seeds.map Prod.snd ++
    g.deleteMatchUps.map Prod.snd ++ g.deleteEvents.map Prod.snd ++
    g.schedulingProfiles.map Prod.fst ++ g.flattenDraws.map (fun e => e.2.1) ++
    g.matchUpResults.map (fun e => e.2.1) ++ g.venues.map (fun e => e.2.1) ++
    g.claims.map (fun e => e.2.tournamentId) ++ g.participantNames.map (fun e => e.2.tournamentId) ++
    g.deleteVenues.map Prod.fst ++ g.deleteDraws.map Prod.fst ++ g.deleteParticipants.map Prod.fst)
  tournamentIds.filterMap fun t => (records t).map fun record =>
    upsert t .tournamentDiscovery [("tournament_id", some (.text t))]
      (model.tournamentDiscoveryRow record) "discovery"

/-- `eventDeltas`. -/
def eventDeltas (g : Grouped) : List ProjectionDelta :=
  g.events.flatMap fun t =>
    match records t with
    | none => []
    | some record =>
      record.events.filterMap fun event => (nonEmpty event.eventId).map fun _ =>
        let row := model.eventRow event t (providerIdOf records t)
          (model.isEventPublished (model.getEventPublishStatus event))
        upsert t .events (keyOf row ["event_id"]) row "events"

/-- `findDrawContext`. -/
def findDrawContext (record : RecordTree) (drawId : String) :
    Option (Option String × DrawDefinition) :=
  record.events.findSome? fun event =>
    (event.drawDefinitions.find? fun draw => draw.drawId == some drawId).map
      fun draw => (event.eventId, draw)

mutual

/-- The body of the loop of `collectStructureDeltas`. -/
def structureDeltas (ctx : StructureContext) : Structure → List ProjectionDelta
  | .node structureId matchUps seedAssignments content structures =>
    match nonEmpty structureId with
    | none => []
    | some id =>
      let row := model.structureRow
        (.node structureId matchUps seedAssignments content structures) ctx
      upsert ctx.tournamentId .structures (keyOf row ["structure_id"]) row "draw" ::
        collectStructureDeltas { ctx with parentStructureId := some id } structures

/-- `collectStructureDeltas`. -/
def collectStructureDeltas (ctx : StructureContext) : List Structure → List ProjectionDelta
  | [] => []
  | first :: rest => structureDeltas ctx first ++ collectStructureDeltas ctx rest

end

/-- The body of the loop of `drawDeltas`. -/
def drawDeltasOf (drawId t : String) : List ProjectionDelta :=
  match (records t).bind (findDrawContext · drawId) with
  | none => []
  | some (eventId, draw) =>
    let providerId := providerIdOf records t
    upsert t .draws [("draw_id", some (.text drawId))] (model.drawRow draw t eventId providerId)
        "draw" ::
      del t .structures [("tournament_id", t), ("draw_id", drawId)] "draw" ::
      collectStructureDeltas model ⟨t, eventId, drawId, providerId, none⟩ draw.structures

/-- `drawDeltas`. -/
def drawDeltas (g : Grouped) : List ProjectionDelta :=
  g.draws.flatMap fun entry => drawDeltasOf model records entry.1 entry.2

mutual

/-- The body of the loop of `findNestedStructure`. -/
def findStructure (structureId : String) : Structure → Option Structure
  | .node id matchUps seedAssignments content structures =>
    if id = some structureId then some (.node id matchUps seedAssignments content structures)
    else findNestedStructure structureId structures

/-- `findNestedStructure`. -/
def findNestedStructure (structureId : String) : List Structure → Option Structure
  | [] => none
  | first :: rest =>
    match findStructure structureId first with
    | some found => some found
    | none => findNestedStructure structureId rest

end

/-- `findStructureContext`. -/
def findStructureContext (record : RecordTree) (structureId : String) :
    Option (Option String × Option String × Structure) :=
  record.events.findSome? fun event => event.drawDefinitions.findSome? fun draw =>
    (findNestedStructure structureId draw.structures).map
      fun found => (event.eventId, draw.drawId, found)

/-- The body of the loop of `seedDeltas`. -/
def seedDeltasOf (structureId t : String) : List ProjectionDelta :=
  match records t with
  | none => []
  | some record =>
    del t .seeds [("tournament_id", t), ("structure_id", structureId)] "seeds" ::
      match findStructureContext record structureId with
      | none => []
      | some (eventId, drawId, found) =>
        found.seedAssignments.filterMap fun assignment =>
          (nonEmpty assignment.participantId).map fun _ =>
            let row := model.seedRow assignment
              ⟨t, eventId, drawId, structureId, providerIdOf records t⟩
            upsert t .seeds (keyOf row ["structure_id", "seed_number"]) row "seeds"

/-- `seedDeltas`. -/
def seedDeltas (g : Grouped) : List ProjectionDelta :=
  g.seeds.flatMap fun entry => seedDeltasOf model records entry.1 entry.2

/-- `orderOfPlayDeltas`. -/
def orderOfPlayDeltas (g : Grouped) : List ProjectionDelta :=
  g.orderOfPlay.filterMap fun t => (records t).map fun record =>
    let oop := chain (model.getTournamentPublishStatus record) "orderOfPlay"
    if truthy (chain oop "published") then
      upsert t .orderOfPlay [("tournament_id", some (.text t))] (model.orderOfPlayRow t oop)
        "orderOfPlay"
    else del t .orderOfPlay [("tournament_id", t)] "orderOfPlay"

/-- `schedulingProfileDeltas`. -/
def schedulingProfileDeltas (g : Grouped) : List ProjectionDelta :=
  g.schedulingProfiles.flatMap fun entry =>
    del entry.1 .schedulingProfile [("tournament_id", entry.1)] "schedulingProfile" ::
      (model.schedulingProfileRows entry.1 entry.2).map fun row =>
        upsert entry.1 .schedulingProfile
          (keyOf row ["tournament_id", "schedule_date", "venue_id", "round_order"]) row
          "schedulingProfile"

/-- `participantPublishDeltas`. -/
def participantPublishDeltas (g : Grouped) : List ProjectionDelta :=
  g.participantPublish.filterMap fun t => (records t).map fun record =>
    let participants := chain (model.getTournamentPublishStatus record) "participants"
    if truthy (chain participants "published") then
      upsert t .participantPublish [("tournament_id", some (.text t))]
        (model.participantPublishRow t participants) "participantPublish"
    else del t .participantPublish [("tournament_id", t)] "participantPublish"

/-- The body of the loop of `venueDeltas`. -/
def venueDeltasOf (t : String) (venue : Venue) : List ProjectionDelta :=
  let row := model.venueRow venue
  let link : ReadRow := fun column =>
    if column = "tournament_id" then some (.text t)
    else if column = "venue_id" then row "venue_id" else none
  upsert t .venues (keyOf row ["venue_id"]) row "venue" ::
    upsert t .tournamentVenues (keyOf link ["tournament_id", "venue_id"]) link "venue" ::
    ⟨t, "venue", .delete .courts
      [("tournament_id", some (.text t)), ("venue_id", row "venue_id")]⟩ ::
    venue.courts.filterMap fun court => (nonEmpty court.courtId).map fun _ =>
      let courtRowData := model.courtRow court ⟨row "venue_id", t, providerIdOf records t⟩
      upsert t .courts (keyOf courtRowData ["court_id"]) courtRowData "venue"

/-- `venueDeltas`. -/
def venueDeltas (g : Grouped) : List ProjectionDelta :=
  g.venues.flatMap fun entry => venueDeltasOf model records entry.2.1 entry.2.2

/-- `eventPublishStatus`. -/
def eventPublishStatus (record : Option RecordTree) (eventId : Option String) : Option Json :=
  match nonEmpty eventId with
  | none => none
  | some id =>
    (record.bind fun r => r.events.find? fun event => event.eventId == some id).bind
      model.getEventPublishStatus

/-- The flattened matchUps of one draw with their progression edges, the
rubbers that their team matchUp projects left out. -/
def flattenedMatchUps (flattenDraw : String → String → List FlatMatchUp) (t drawId : String) :
    List FlatMatchUp :=
  let matchUps := flattenDraw t drawId
  let drawDefinition := (((records t).map fun record =>
    record.events.flatMap Event.drawDefinitions).getD []).find? fun draw =>
      draw.drawId == some drawId
  let edged := match drawDefinition with
    | none => matchUps
    | some draw => model.applyProgressionEdges draw matchUps
  edged.filter fun matchUp => nonEmpty matchUp.collectionId == none

/-- The rows of one flattened matchUp. -/
def matchUpRows (t : String) (matchUp : FlatMatchUp) : List ReadRow × List ReadRow :=
  let publish := model.resolveMatchUpPublishState
    (eventPublishStatus model (records t) matchUp.eventId) matchUp.drawId matchUp.structureId
    matchUp.stage matchUp.roundNumber
  model.matchUpRowSet matchUp ⟨t, providerIdOf records t, publish⟩

/-- The body of the loop of `flattenDrawDeltas`. -/
def flattenDrawDeltasOf (flattenDraw : String → String → List FlatMatchUp) (t drawId : String) :
    List ProjectionDelta :=
  (flattenedMatchUps model records flattenDraw t drawId).flatMap fun matchUp =>
    (matchUpRows model records t matchUp).1.map (fun row =>
      upsert t .matchUps (keyOf row ["match_up_id"]) row "flattenDraw") ++
    (matchUpRows model records t matchUp).2.map fun row =>
      upsert t .matchUpCompetitors (keyOf row ["match_up_id", "side_number", "competitor_index"])
        row "flattenDraw"

/-- `flattenDrawDeltas`. -/
def flattenDrawDeltas (flattenDraw : String → String → List FlatMatchUp) (g : Grouped) :
    List ProjectionDelta :=
  g.flattenDraws.flatMap fun entry =>
    flattenDrawDeltasOf model records flattenDraw entry.2.1 entry.2.2

/-- The ids that flattening adds to `coveredMatchUpIds`. -/
def flattenedIds (flattenDraw : String → String → List FlatMatchUp) (g : Grouped) :
    List (Option Cell) :=
  g.flattenDraws.flatMap fun entry =>
    (flattenedMatchUps model records flattenDraw entry.2.1 entry.2.2).flatMap fun matchUp =>
      (matchUpRows model records entry.2.1 matchUp).1.map fun row => row "match_up_id"

/-- `resultDeltas`, with `coveredMatchUpIds` before and after. -/
def resultDeltas (covered : List (Option Cell)) :
    List (String × (String × ResultMatchUp)) → List ProjectionDelta × List (Option Cell)
  | [] => ([], covered)
  | (_, (t, matchUp)) :: rest =>
    if some (.text matchUp.matchUpId) ∈ covered then resultDeltas covered rest
    else
      let row := model.matchUpResultRow matchUp t (providerIdOf records t)
      let tail := resultDeltas (covered ++ [row "match_up_id"]) rest
      (upsert t .matchUps (keyOf row ["match_up_id"]) row "modifyMatchUp" :: tail.1, tail.2)

/-- `entryDeltas`. -/
def entryDeltas (g : Grouped) : List ProjectionDelta :=
  g.participants.flatMap fun t =>
    del t .entries [("tournament_id", t)] "participants" ::
      (model.entryRows (records t)).map fun row =>
        upsert t .entries (keyOf row ["tournament_id", "event_id", "participant_id"]) row
          "participants"

end Builders

/-- `claimDeltas`. -/
def claimDeltas (g : Grouped) : List ProjectionDelta :=
  g.claims.flatMap fun entry =>
    let claim := entry.2
    [update claim.tournamentId .matchUpCompetitors
        [("tournament_id", claim.tournamentId), ("individual_participant_id", claim.participantId)]
        (rowOf [("person_id", .text claim.personId), ("link_source", .text LINK_CANONICAL)])
        "claimPerson",
      update claim.tournamentId .entries
        [("tournament_id", claim.tournamentId), ("participant_id", claim.participantId)]
        (rowOf [("person_id", .text claim.personId)]) "claimPerson"]

/-- `participantNameDeltas`. -/
def participantNameDeltas (g : Grouped) : List ProjectionDelta :=
  g.participantNames.flatMap fun entry =>
    let name := entry.2
    let row := rowOf [("participant_name", (name.participantName.map Cell.text).getD .null)]
    [update name.tournamentId .matchUpCompetitors
        [("tournament_id", name.tournamentId), ("individual_participant_id", name.participantId)]
        row "participants",
      update name.tournamentId .matchUpCompetitors
        [("tournament_id", name.tournamentId), ("side_participant_id", name.participantId),
          ("participant_type", TEAM_PARTICIPANT)] row "participants"]

/-- The deletes of one draw. -/
def deleteDrawDeltas (t drawId : String) : List ProjectionDelta :=
  let key := [("tournament_id", t), ("draw_id", drawId)]
  [del t .matchUps key "deleteDraw", del t .seeds key "deleteDraw", del t .draws key "deleteDraw"]

/-- The deletes of one event. -/
def deleteEventDeltas (t eventId : String) : List ProjectionDelta :=
  let key := [("tournament_id", t), ("event_id", eventId)]
  [del t .events key "deleteEvent", del t .matchUps key "deleteEvent",
    del t .entries key "deleteEvent", del t .seeds key "deleteEvent",
    del t .draws key "deleteEvent"]

/-- `deleteDeltas`. -/
def deleteDeltas (g : Grouped) (covered : List (Option Cell)) : List ProjectionDelta :=
  g.deleteVenues.map (fun v =>
      del v.1 .tournamentVenues [("tournament_id", v.1), ("venue_id", v.2)] "deleteVenue") ++
    g.deleteDraws.flatMap (fun d => deleteDrawDeltas d.1 d.2) ++
    (g.deleteMatchUps.filter fun m => some (Cell.text m.1) ∉ covered).map (fun m =>
      del m.2 .matchUps [("tournament_id", m.2), ("match_up_id", m.1)] "deletedMatchUpIds") ++
    g.deleteEvents.flatMap (fun e => deleteEventDeltas e.2 e.1) ++
    g.deleteParticipants.flatMap fun p => p.2.map fun participantId =>
      del p.1 .entries [("tournament_id", p.1), ("participant_id", participantId)]
        "deleteParticipants"

/-- Without progression edges, flattening only leaves rubbers out. -/
theorem flattenedMatchUps_plain (records : Records)
    (flattenDraw : String → String → List FlatMatchUp) (t drawId : String) :
    flattenedMatchUps plainModel records flattenDraw t drawId =
      (flattenDraw t drawId).filter fun matchUp => nonEmpty matchUp.collectionId == none := by
  unfold flattenedMatchUps
  dsimp only
  split <;> rfl

/-- The arguments of a build, without the intents: the final records, each under
its own id, and the flatten of one draw against them. -/
structure FinalState (model : ReadModel) where
  /-- The final records. -/
  records : Records
  /-- `flattenDraw(tournamentId, drawId)`. -/
  flattenDraw : String → String → List FlatMatchUp
  /-- Records are kept under their own id. -/
  own : ∀ t record, records t = some record → record.tournamentId = t
  /-- Flattening builds rows of matchUps that the record has. -/
  flattened : ∀ t drawId, ∀ matchUp ∈ flattenedMatchUps model records flattenDraw t drawId,
    ∀ row ∈ (matchUpRows model records t matchUp).1,
      ∃ record id, records t = some record ∧ id ∈ record.matchUpIds ∧
        row "match_up_id" = some (.text id)

/-- `buildProjectionDeltas`. -/
def buildProjectionDeltas (model : ReadModel) (final : FinalState model)
    (intents : List ProjectionIntent) : List ProjectionDelta :=
  let records := final.records
  let g := group intents records
  let flatten := flattenDrawDeltas model records final.flattenDraw g
  let results := resultDeltas model records (flattenedIds model records final.flattenDraw g)
    g.matchUpResults
  tournamentDeltas model records g ++ discoveryDeltas model records g ++
    eventDeltas model records g ++ drawDeltas model records g ++ seedDeltas model records g ++
    orderOfPlayDeltas model records g ++ schedulingProfileDeltas model g ++
    participantPublishDeltas model records g ++ venueDeltas model records g ++ flatten ++
    results.1 ++ entryDeltas model records g ++ claimDeltas g ++ participantNameDeltas g ++
    deleteDeltas g results.2

/-- The read state after a build's deltas are applied. -/
def project (model : ReadModel) (final : FinalState model) (intents : List ProjectionIntent)
    (state : ReadState) : ReadState :=
  applyDeltas ((buildProjectionDeltas model final intents).map ProjectionDelta.change) state

end FactoryServer.ProjectionDeltas
