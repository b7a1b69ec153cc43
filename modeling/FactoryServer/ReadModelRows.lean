import FactoryServer.KeyedTables
import FactoryServer.TournamentAccess
import FactoryServer.TournamentTree

/-!
# Rows of the read model

The read model is a set of tables that a consumer keeps by applying a log of
deltas. The builders that turn parts of a record into rows come from the
competition factory and are parameters here, with the key columns that the
producer relies on.
-/

namespace FactoryServer.ReadModelRows

open JsonValue TournamentTree KeyedTables

/-- The tables of the read model. -/
inductive ReadTable where
  | tournaments
  | tournamentDiscovery
  | events
  | draws
  | structures
  | seeds
  | matchUps
  | matchUpCompetitors
  | entries
  | venues
  | courts
  | tournamentVenues
  | orderOfPlay
  | schedulingProfile
  | participantPublish
  deriving DecidableEq, Repr

/-- A column value. -/
inductive Cell where
  | null
  | bool (b : Bool)
  | number (n : Int)
  | text (s : String)
  | json (s : String)
  deriving DecidableEq, Repr

instance : LawfulBEq (Option Cell) := inferInstance

/-- SQL null. -/
def Cell.isNull : Cell → Bool
  | .null => true
  | _ => false

/-- A read-model row. -/
abbrev ReadRow := Row String Cell

/-- A statement on the read model. -/
abbrev ReadChange := Change ReadTable String Cell

/-- The tables and their rows. -/
abbrev ReadState := ReadTable → List ReadRow

/-- An id that may be missing. -/
def idCell (id : Option String) : Option Cell := id.map .text

/-- Primary keys of the tables. -/
def primaryKey : ReadTable → List String
  | .tournaments => ["tournament_id"]
  | .tournamentDiscovery => ["tournament_id"]
  | .events => ["event_id"]
  | .draws => ["draw_id"]
  | .structures => ["structure_id"]
  | .seeds => ["structure_id", "seed_number"]
  | .matchUps => ["match_up_id"]
  | .matchUpCompetitors => ["match_up_id", "side_number", "competitor_index"]
  | .entries => ["tournament_id", "event_id", "participant_id"]
  | .venues => ["venue_id"]
  | .courts => ["court_id"]
  | .tournamentVenues => ["tournament_id", "venue_id"]
  | .orderOfPlay => ["tournament_id"]
  | .schedulingProfile => ["tournament_id", "schedule_date", "venue_id", "round_order"]
  | .participantPublish => ["tournament_id"]

/-- Foreign keys with `ON DELETE CASCADE`: the parent table and the column. -/
def cascade : ReadTable → Option (ReadTable × String)
  | .structures => some (.draws, "draw_id")
  | .matchUpCompetitors => some (.matchUps, "match_up_id")
  | .courts => some (.venues, "venue_id")
  | _ => none

/-- The consumer: apply a log in order, then sweep along the foreign keys. -/
def applyDeltas (changes : List ReadChange) (state : ReadState) : ReadState :=
  sweep cascade Cell.isNull (applyChanges primaryKey changes state)

/-- A hydrated matchUp of a flattened draw. -/
structure FlatMatchUp where
  /-- Identity. -/
  matchUpId : String
  /-- Present on the rubbers of a team matchUp. -/
  collectionId : Option String
  /-- The event around it. -/
  eventId : Option String
  /-- The draw around it. -/
  drawId : Option String
  /-- Its structure. -/
  structureId : Option String
  /-- Its stage. -/
  stage : Option String
  /-- Its round. -/
  roundNumber : Option Int
  /-- Sides, rubbers, score and every other attribute. -/
  content : Json

/-- The matchUp of a `MODIFY_MATCHUP` notice. -/
structure ResultMatchUp where
  /-- Identity. -/
  matchUpId : String
  /-- Status, winner and score. -/
  content : Json

/-- How far a matchUp is published. -/
structure PublishState where
  /-- Publish intent. -/
  published : Json
  /-- Embargo of the matchUp. -/
  embargo : Json
  /-- Embargo of its schedule. -/
  scheduleEmbargo : Json

/-- `MatchUpRowContext`. -/
structure MatchUpRowContext where
  /-- Tournament of the rows. -/
  tournamentId : String
  /-- Its provider. -/
  providerId : Option String
  /-- Publish state of the matchUp. -/
  publish : PublishState

/-- What a structure row takes from its surroundings. -/
structure StructureContext where
  /-- Tournament of the row. -/
  tournamentId : String
  /-- Event around the structure. -/
  eventId : Option String
  /-- Draw around the structure. -/
  drawId : String
  /-- Provider of the tournament. -/
  providerId : Option String
  /-- The containing structure, for a group. -/
  parentStructureId : Option String

/-- What a seed row takes from its surroundings. -/
structure SeedContext where
  /-- Tournament of the row. -/
  tournamentId : String
  /-- Event around the structure. -/
  eventId : Option String
  /-- Draw around the structure. -/
  drawId : Option String
  /-- The structure. -/
  structureId : String
  /-- Provider of the tournament. -/
  providerId : Option String

/-- What a court row takes from its surroundings. -/
structure CourtContext where
  /-- Venue of the court. -/
  venueId : Option Cell
  /-- Tournament of the row. -/
  tournamentId : String
  /-- Provider of the tournament. -/
  providerId : Option String

/-- The read-model toolkit of the competition factory. -/
structure ReadModel where
  /-- Row of a tournament. -/
  tournamentRow : RecordTree → ReadRow
  /-- Discovery row of a tournament. -/
  tournamentDiscoveryRow : RecordTree → ReadRow
  /-- Row of an event, with its publish flag. -/
  eventRow : Event → String → Option String → Bool → ReadRow
  /-- Row of a draw, with its event. -/
  drawRow : DrawDefinition → String → Option String → Option String → ReadRow
  /-- Row of a structure. -/
  structureRow : Structure → StructureContext → ReadRow
  /-- Row of a seed. -/
  seedRow : SeedAssignment → SeedContext → ReadRow
  /-- Slim row of a scored matchUp. -/
  matchUpResultRow : ResultMatchUp → String → Option String → ReadRow
  /-- Rows of a matchUp with its rubbers, and rows of their competitors. -/
  matchUpRowSet : FlatMatchUp → MatchUpRowContext → List ReadRow × List ReadRow
  /-- Row of a venue. -/
  venueRow : Venue → ReadRow
  /-- Row of a court. -/
  courtRow : Court → CourtContext → ReadRow
  /-- Row of a published order of play. -/
  orderOfPlayRow : String → Option Json → ReadRow
  /-- Rows of a scheduling plan. -/
  schedulingProfileRows : String → Json → List ReadRow
  /-- Row of a published participant list. -/
  participantPublishRow : String → Option Json → ReadRow
  /-- Rows of the entries of a record. -/
  entryRows : Option RecordTree → List ReadRow
  /-- Publish status of an event. -/
  getEventPublishStatus : Event → Option Json
  /-- The event is published. -/
  isEventPublished : Option Json → Bool
  /-- Publish state of a matchUp, from its event's status. -/
  resolveMatchUpPublishState : Option Json → Option String → Option String → Option String →
    Option Int → PublishState
  /-- Publish status of a tournament. -/
  getTournamentPublishStatus : RecordTree → Option Json
  /-- Derive the progression edges of flattened matchUps. -/
  applyProgressionEdges : DrawDefinition → List FlatMatchUp → List FlatMatchUp
  /-- The stored scheduling plan. -/
  resolveSchedulingProfile : RecordTree → Json
  /-- An event row carries its event and tournament. -/
  eventRow_keys : ∀ event t p published, eventRow event t p published "event_id" =
      idCell event.eventId ∧ eventRow event t p published "tournament_id" = some (.text t)
  /-- A draw row carries its draw, event and tournament. -/
  drawRow_keys : ∀ draw t e p, drawRow draw t e p "draw_id" = idCell draw.drawId ∧
    drawRow draw t e p "event_id" = idCell e ∧ drawRow draw t e p "tournament_id" = some (.text t)
  /-- A structure row carries its structure, draw and tournament. -/
  structureRow_keys : ∀ s ctx, structureRow s ctx "structure_id" = idCell s.structureId ∧
    structureRow s ctx "draw_id" = some (.text ctx.drawId) ∧
    structureRow s ctx "tournament_id" = some (.text ctx.tournamentId)
  /-- A seed row carries its structure and number, its draw, event and tournament. -/
  seedRow_keys : ∀ seed ctx, seedRow seed ctx "structure_id" = some (.text ctx.structureId) ∧
    seedRow seed ctx "seed_number" ≠ none ∧ seedRow seed ctx "draw_id" = idCell ctx.drawId ∧
    seedRow seed ctx "event_id" = idCell ctx.eventId ∧
    seedRow seed ctx "tournament_id" = some (.text ctx.tournamentId)
  /-- A result row carries its matchUp and tournament. -/
  matchUpResultRow_keys : ∀ m t p, matchUpResultRow m t p "match_up_id" = some (.text m.matchUpId) ∧
    matchUpResultRow m t p "tournament_id" = some (.text t)
  /-- A matchUp row carries a matchUp and its tournament. -/
  matchUpRow_keys : ∀ m ctx, ∀ row ∈ (matchUpRowSet m ctx).1,
    (∃ id, row "match_up_id" = some (.text id)) ∧
      row "tournament_id" = some (.text ctx.tournamentId)
  /-- A competitor row carries its matchUp, side, position and tournament. -/
  competitorRow_keys : ∀ m ctx, ∀ row ∈ (matchUpRowSet m ctx).2,
    (∃ id, row "match_up_id" = some (.text id)) ∧ row "side_number" ≠ none ∧
      row "competitor_index" ≠ none ∧ row "tournament_id" = some (.text ctx.tournamentId)
  /-- A competitor row belongs to one of the matchUp rows. -/
  competitorRow_parent : ∀ m ctx, ∀ row ∈ (matchUpRowSet m ctx).2,
    ∃ parent ∈ (matchUpRowSet m ctx).1, parent "match_up_id" = row "match_up_id"
  /-- A venue row carries its venue. -/
  venueRow_keys : ∀ venue, venueRow venue "venue_id" = some (.text venue.venueId)
  /-- A court row carries its court, venue and tournament. -/
  courtRow_keys : ∀ court ctx, courtRow court ctx "court_id" = idCell court.courtId ∧
    courtRow court ctx "venue_id" = ctx.venueId ∧
    courtRow court ctx "tournament_id" = some (.text ctx.tournamentId)
  /-- An entry row carries its tournament, event and participant. -/
  entryRow_keys : ∀ record : RecordTree, ∀ row ∈ entryRows (some record),
    row "tournament_id" = some (.text record.tournamentId) ∧ row "event_id" ≠ none ∧
      row "participant_id" ≠ none
  /-- Without a record there are no entries. -/
  entryRows_none : entryRows none = []
  /-- A row of a scheduling plan carries its tournament. -/
  schedulingProfileRow_keys : ∀ t profile, ∀ row ∈ schedulingProfileRows t profile,
    row "tournament_id" = some (.text t)

/-- The strings of an array. -/
def stringsOf : Json → List String
  | .arr items => items.filterMap Json.str?
  | _ => []

/-- Competitors of a matchUp whose content lists the participant of each side. -/
def plainCompetitors (matchUp : FlatMatchUp) (ctx : MatchUpRowContext) : List ReadRow :=
  (stringsOf matchUp.content).mapIdx fun side participantId =>
    keyRow [("match_up_id", some (.text matchUp.matchUpId)), ("side_number", some (.number side)),
      ("competitor_index", some (.number 0)), ("tournament_id", some (.text ctx.tournamentId)),
      ("individual_participant_id", some (.text participantId))]

/-- A toolkit whose rows carry their key columns and little else. -/
def plainModel : ReadModel where
  tournamentRow record := keyRow [("tournament_id", some (.text record.tournamentId))]
  tournamentDiscoveryRow record := keyRow [("tournament_id", some (.text record.tournamentId))]
  eventRow event t _ _ := keyRow [("event_id", idCell event.eventId),
    ("tournament_id", some (.text t))]
  drawRow draw t eventId _ := keyRow [("draw_id", idCell draw.drawId), ("event_id", idCell eventId),
    ("tournament_id", some (.text t))]
  structureRow s ctx := keyRow [("structure_id", idCell s.structureId),
    ("draw_id", some (.text ctx.drawId)), ("tournament_id", some (.text ctx.tournamentId))]
  seedRow _ ctx := keyRow [("structure_id", some (.text ctx.structureId)),
    ("seed_number", some (.number 1)), ("draw_id", idCell ctx.drawId),
    ("event_id", idCell ctx.eventId), ("tournament_id", some (.text ctx.tournamentId))]
  matchUpResultRow matchUp t _ := keyRow [("match_up_id", some (.text matchUp.matchUpId)),
    ("tournament_id", some (.text t))]
  matchUpRowSet matchUp ctx :=
    ([keyRow [("match_up_id", some (.text matchUp.matchUpId)), ("draw_id", idCell matchUp.drawId),
      ("event_id", idCell matchUp.eventId), ("tournament_id", some (.text ctx.tournamentId))]],
      plainCompetitors matchUp ctx)
  venueRow venue := keyRow [("venue_id", some (.text venue.venueId))]
  courtRow court ctx := keyRow [("court_id", idCell court.courtId), ("venue_id", ctx.venueId),
    ("tournament_id", some (.text ctx.tournamentId))]
  orderOfPlayRow t _ := keyRow [("tournament_id", some (.text t))]
  schedulingProfileRows _ _ := []
  participantPublishRow t _ := keyRow [("tournament_id", some (.text t))]
  entryRows
    | none => []
    | some record => record.events.flatMap fun event =>
      (stringsOf event.content).map fun participantId =>
        keyRow [("tournament_id", some (.text record.tournamentId)),
          ("event_id", some ((idCell event.eventId).getD .null)),
          ("participant_id", some (.text participantId))]
  getEventPublishStatus _ := none
  isEventPublished _ := false
  resolveMatchUpPublishState _ _ _ _ _ := ⟨.null, .null, .null⟩
  getTournamentPublishStatus _ := none
  applyProgressionEdges _ matchUps := matchUps
  resolveSchedulingProfile _ := .null
  eventRow_keys _ _ _ _ := ⟨rfl, rfl⟩
  drawRow_keys _ _ _ _ := ⟨rfl, rfl, rfl⟩
  structureRow_keys _ _ := ⟨rfl, rfl, rfl⟩
  seedRow_keys _ _ := ⟨rfl, by simp [keyRow], rfl, rfl, rfl⟩
  matchUpResultRow_keys _ _ _ := ⟨rfl, rfl⟩
  matchUpRow_keys matchUp ctx row hrow := by
    rw [List.mem_singleton.mp hrow]
    exact ⟨⟨matchUp.matchUpId, rfl⟩, rfl⟩
  competitorRow_keys matchUp ctx row hrow := by
    obtain ⟨side, _, rfl⟩ := List.mem_mapIdx.mp hrow
    exact ⟨⟨matchUp.matchUpId, rfl⟩, by simp [keyRow], by simp [keyRow], rfl⟩
  competitorRow_parent matchUp ctx row hrow := by
    obtain ⟨side, _, rfl⟩ := List.mem_mapIdx.mp hrow
    exact ⟨_, List.mem_singleton_self _, rfl⟩
  venueRow_keys _ := rfl
  courtRow_keys _ _ := ⟨rfl, rfl, rfl⟩
  entryRow_keys record row hrow := by
    obtain ⟨event, _, hrow⟩ := List.mem_flatMap.mp hrow
    obtain ⟨participantId, _, rfl⟩ := List.mem_map.mp hrow
    exact ⟨rfl, by simp [keyRow], by simp [keyRow]⟩
  entryRows_none := rfl
  schedulingProfileRow_keys _ _ row hrow := by cases hrow

end FactoryServer.ReadModelRows
