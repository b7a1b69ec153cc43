import FactoryServer.ProjectionDeltas

/-!
# Rebuilding one tournament

A rebuild projects a stored record from scratch: its intents name everything
that the record contains, and the same builder turns them into deltas. A
snapshot builds the same deltas with one flatten for all the draws.
-/

namespace FactoryServer.RebuildIntents

open JsonValue TournamentAccess TournamentTree KeyedTables ReadModelRows ProjectionDeltas

/-- The `tournamentRecords` of a projection of one record. -/
def recordsOf (record : RecordTree) : Records := fun t =>
  if t = record.tournamentId then some record else none

@[simp] theorem recordsOf_self (record : RecordTree) :
    recordsOf record record.tournamentId = some record := if_pos rfl

theorem recordsOf_eq_some {record found : RecordTree} {t : String}
    (h : recordsOf record t = some found) : t = record.tournamentId ∧ found = record := by
  unfold recordsOf at h
  split_ifs at h with ht
  exact ⟨ht, (Option.some.inj h).symm⟩

/-- A flatten of the draws of one record; no intent of its projection names
another tournament. -/
def flattenOf (record : RecordTree) (matchUps : String → List FlatMatchUp) (t drawId : String) :
    List FlatMatchUp :=
  if t = record.tournamentId then matchUps drawId else []

/-- The competition factory, as the projection of a whole record uses it. -/
structure CompetitionFactory extends ReadModel where
  /-- `allTournamentMatchUps({ inContext: true })` of a record. -/
  allTournamentMatchUps : RecordTree → List FlatMatchUp
  /-- `allDrawMatchUps({ drawId, inContext: true })` of a record. -/
  allDrawMatchUps : RecordTree → String → List FlatMatchUp
  /-- The matchUps of a draw are those of the tournament that name it. -/
  allDrawMatchUps_eq : ∀ record drawId, allDrawMatchUps record drawId =
    (allTournamentMatchUps record).filter fun matchUp => matchUp.drawId == some drawId
  /-- Flattening builds rows of matchUps that the record has. -/
  flattened_ids : ∀ record drawId,
    ∀ matchUp ∈ flattenedMatchUps toReadModel (recordsOf record)
      (flattenOf record (allDrawMatchUps record)) record.tournamentId drawId,
    ∀ row ∈ (matchUpRows toReadModel (recordsOf record) record.tournamentId matchUp).1,
      ∃ id ∈ record.matchUpIds, row "match_up_id" = some (.text id)
  /-- A tournament row carries its tournament. -/
  tournamentRow_keys : ∀ record : RecordTree,
    tournamentRow record "tournament_id" = some (.text record.tournamentId)
  /-- A discovery row carries its tournament. -/
  tournamentDiscoveryRow_keys : ∀ record : RecordTree,
    tournamentDiscoveryRow record "tournament_id" = some (.text record.tournamentId)
  /-- The row of an order of play carries its tournament. -/
  orderOfPlayRow_keys : ∀ t oop, orderOfPlayRow t oop "tournament_id" = some (.text t)
  /-- The row of a participant list carries its tournament. -/
  participantPublishRow_keys : ∀ t list,
    participantPublishRow t list "tournament_id" = some (.text t)

mutual

/-- The body of the loop of `pushSeedIntents`. -/
def seedIntents (t : String) : Structure → List ProjectionIntent
  | .node structureId _ _ _ structures =>
    ((nonEmpty structureId).map (ProjectionIntent.seeds t)).toList ++ pushSeedIntents t structures

/-- `pushSeedIntents`. -/
def pushSeedIntents (t : String) : List Structure → List ProjectionIntent
  | [] => []
  | first :: rest => seedIntents t first ++ pushSeedIntents t rest

end

mutual

/-- The ids of a structure and of its child structures. -/
def structureIds : Structure → List String
  | .node structureId _ _ _ structures => (nonEmpty structureId).toList ++ idsOfAll structures

/-- The ids of several structures. -/
def idsOfAll : List Structure → List String
  | [] => []
  | first :: rest => structureIds first ++ idsOfAll rest

end

mutual

theorem seedIntents_eq (t : String) (s : Structure) :
    seedIntents t s = (structureIds s).map (.seeds t) := by
  cases s with
  | node structureId matchUps seedAssignments content structures =>
    unfold seedIntents structureIds
    rw [List.map_append, pushSeedIntents_eq t structures]
    cases nonEmpty structureId <;> rfl

/-- Every structure of a draw is projected with its seeds. -/
theorem pushSeedIntents_eq (t : String) (structures : List Structure) :
    pushSeedIntents t structures = (idsOfAll structures).map (.seeds t) := by
  cases structures with
  | nil => rfl
  | cons first rest =>
    unfold pushSeedIntents idsOfAll
    rw [List.map_append, seedIntents_eq t first, pushSeedIntents_eq t rest]

end

/-- The intents of one draw. -/
def drawIntents (t : String) (draw : DrawDefinition) : List ProjectionIntent :=
  (match nonEmpty draw.drawId with
    | none => []
    | some drawId => [.flattenDraw t drawId, .draw t drawId]) ++
  pushSeedIntents t draw.structures

/-- The intent of one venue. -/
def venueIntent (t : String) (venue : Venue) : Option ProjectionIntent :=
  if venue.venueId = "" then none else some (.venue t venue)

/-- The intent of one participant that a person has claimed. -/
def claimIntent (t : String) (participant : Participant) : Option ProjectionIntent :=
  (nonEmpty participant.participantId).bind fun participantId =>
    (nonEmpty participant.canonicalPersonId).map fun personId =>
      .claimPerson t participantId personId

/-- `buildRebuildIntents`. -/
def buildRebuildIntents (factory : CompetitionFactory) (record : RecordTree) :
    List ProjectionIntent :=
  let t := record.tournamentId
  if t = "" then []
  else
    [.touchTournament t, .participants t, .events t, .orderOfPlay t, .participantPublish t,
      .schedulingProfile t (factory.resolveSchedulingProfile record)] ++
    (record.events.flatMap fun event => event.drawDefinitions.flatMap (drawIntents t)) ++
    record.venues.filterMap (venueIntent t) ++ record.participants.filterMap (claimIntent t)

theorem mem_drawIntents {t : String} {draw : DrawDefinition} {intent : ProjectionIntent}
    (h : intent ∈ drawIntents t draw) :
    (∃ drawId, draw.drawId = some drawId ∧
      (intent = .flattenDraw t drawId ∨ intent = .draw t drawId)) ∨
    ∃ id ∈ idsOfAll draw.structures, intent = .seeds t id := by
  unfold drawIntents at h
  rw [pushSeedIntents_eq] at h
  rcases List.mem_append.mp h with h | h
  · cases hid : nonEmpty draw.drawId with
    | none =>
      rw [hid] at h
      cases h
    | some drawId =>
      rw [hid] at h
      exact Or.inl ⟨drawId, (nonEmpty_eq_some.mp hid).1, by simpa using h⟩
  · obtain ⟨id, hid, rfl⟩ := List.mem_map.mp h
    exact Or.inr ⟨id, hid, rfl⟩

/-- What a rebuild names: the tournament, its draws and structures, its venues
and its claimed participants. -/
theorem mem_buildRebuildIntents {factory : CompetitionFactory} {record : RecordTree}
    {intent : ProjectionIntent} (h : intent ∈ buildRebuildIntents factory record) :
    intent ∈ [.touchTournament record.tournamentId, .participants record.tournamentId,
      .events record.tournamentId, .orderOfPlay record.tournamentId,
      .participantPublish record.tournamentId,
      .schedulingProfile record.tournamentId (factory.resolveSchedulingProfile record)] ∨
    (∃ event ∈ record.events, ∃ draw ∈ event.drawDefinitions,
      intent ∈ drawIntents record.tournamentId draw) ∨
    (∃ venue ∈ record.venues, intent = .venue record.tournamentId venue) ∨
    ∃ participantId personId, intent = .claimPerson record.tournamentId participantId personId := by
  unfold buildRebuildIntents at h
  dsimp only at h
  split_ifs at h
  · cases h
  · rcases List.mem_append.mp h with h | h
    · rcases List.mem_append.mp h with h | h
      · rcases List.mem_append.mp h with h | h
        · exact Or.inl h
        · obtain ⟨event, hevent, h⟩ := List.mem_flatMap.mp h
          obtain ⟨draw, hdraw, h⟩ := List.mem_flatMap.mp h
          exact Or.inr (Or.inl ⟨event, hevent, draw, hdraw, h⟩)
      · obtain ⟨venue, hvenue, h⟩ := List.mem_filterMap.mp h
        unfold venueIntent at h
        split_ifs at h
        exact Or.inr (Or.inr (Or.inl ⟨venue, hvenue, (Option.some.inj h).symm⟩))
    · obtain ⟨participant, -, h⟩ := List.mem_filterMap.mp h
      obtain ⟨participantId, -, h⟩ := Option.bind_eq_some_iff.mp h
      obtain ⟨personId, -, rfl⟩ := Option.map_eq_some_iff.mp h
      exact Or.inr (Or.inr (Or.inr ⟨participantId, personId, rfl⟩))

/-- Every intent of a rebuild is about the tournament. -/
theorem rebuild_tournament {factory : CompetitionFactory} {record : RecordTree}
    {intent : ProjectionIntent} (h : intent ∈ buildRebuildIntents factory record) :
    intent.tournamentId = record.tournamentId := by
  rcases mem_buildRebuildIntents h with h | ⟨event, -, draw, -, h⟩ | ⟨venue, -, rfl⟩ |
    ⟨participantId, personId, rfl⟩
  · simp only [List.mem_cons, List.not_mem_nil, or_false] at h
    rcases h with rfl | rfl | rfl | rfl | rfl | rfl <;> rfl
  · rcases mem_drawIntents h with ⟨drawId, -, rfl | rfl⟩ | ⟨id, -, rfl⟩ <;> rfl
  · rfl
  · rfl

/-- The arguments of a build for one record. -/
def finalOf (factory : CompetitionFactory) (record : RecordTree)
    (matchUps : String → List FlatMatchUp) (h : matchUps = factory.allDrawMatchUps record) :
    FinalState factory.toReadModel where
  records := recordsOf record
  flattenDraw := flattenOf record matchUps
  own := fun _ _ hr => by
    obtain ⟨rfl, rfl⟩ := recordsOf_eq_some hr
    rfl
  flattened := by
    subst h
    intro t drawId matchUp hm row hrow
    by_cases ht : t = record.tournamentId
    · subst ht
      obtain ⟨id, hid, hcell⟩ := factory.flattened_ids record drawId matchUp hm row hrow
      exact ⟨record, id, recordsOf_self record, hid, hcell⟩
    · have hnone : recordsOf record t = none := if_neg ht
      simp [flattenedMatchUps, flattenOf, ht, hnone] at hm

/-- The `flattenDraw` of `rebuildTournament` asks the engine for one draw. -/
def rebuildFinal (factory : CompetitionFactory) (record : RecordTree) :
    FinalState factory.toReadModel :=
  finalOf factory record (factory.allDrawMatchUps record) rfl

/-- `byDrawId.get(drawId) ?? []` in `buildSnapshotDeltas`. -/
def matchUpsOfDraw (factory : CompetitionFactory) (record : RecordTree) (drawId : String) :
    List FlatMatchUp :=
  (factory.allTournamentMatchUps record).filter fun matchUp => matchUp.drawId == some drawId

theorem matchUpsOfDraw_eq (factory : CompetitionFactory) (record : RecordTree) :
    matchUpsOfDraw factory record = factory.allDrawMatchUps record :=
  funext fun drawId => (factory.allDrawMatchUps_eq record drawId).symm

/-- The `flattenDraw` of `buildSnapshotDeltas` flattens the record once. -/
def snapshotFinal (factory : CompetitionFactory) (record : RecordTree) :
    FinalState factory.toReadModel :=
  finalOf factory record (matchUpsOfDraw factory record) (matchUpsOfDraw_eq factory record)

/-- `project` of the rebuild service: the deltas of a stored record. -/
def rebuildDeltas (factory : CompetitionFactory) (record : RecordTree) : List ProjectionDelta :=
  buildProjectionDeltas factory.toReadModel (rebuildFinal factory record)
    (buildRebuildIntents factory record)

/-- One flatten for all the draws gives what one flatten for each draw gives. -/
theorem snapshotFinal_eq (factory : CompetitionFactory) (record : RecordTree) :
    snapshotFinal factory record = rebuildFinal factory record := by
  unfold snapshotFinal rebuildFinal
  congr 1
  exact matchUpsOfDraw_eq factory record

/-- A read state without rows. -/
def emptyState : ReadState := fun _ => []

/-- The read rows of a record: its rebuild on an empty read state. -/
def projectionOf (factory : CompetitionFactory) (record : RecordTree) : ReadState :=
  applyDeltas ((rebuildDeltas factory record).map ProjectionDelta.change) emptyState

/-- The matchUps of a record, hydrated with the draw and event around them. -/
def plainMatchUps (record : RecordTree) : List FlatMatchUp :=
  record.events.flatMap fun event => event.drawDefinitions.flatMap fun draw =>
    (matchUpsOfAll draw.structures).map fun matchUp =>
      { matchUpId := matchUp.matchUpId
        collectionId := none
        eventId := event.eventId
        drawId := draw.drawId
        structureId := none
        stage := none
        roundNumber := none
        content := matchUp.content }

theorem plainMatchUps_ids {record : RecordTree} {matchUp : FlatMatchUp}
    (h : matchUp ∈ plainMatchUps record) : matchUp.matchUpId ∈ record.matchUpIds := by
  obtain ⟨event, hevent, h⟩ := List.mem_flatMap.mp h
  obtain ⟨draw, hdraw, h⟩ := List.mem_flatMap.mp h
  obtain ⟨source, hsource, rfl⟩ := List.mem_map.mp h
  refine List.mem_flatMap.mpr ⟨event, hevent, List.mem_flatMap.mpr ⟨draw, hdraw, ?_⟩⟩
  exact List.mem_flatMap.mpr ⟨source, hsource, List.mem_cons_self⟩

/-- A factory whose rows carry their key columns and little else. -/
def plainFactory : CompetitionFactory where
  toReadModel := plainModel
  allTournamentMatchUps := plainMatchUps
  allDrawMatchUps record drawId :=
    (plainMatchUps record).filter fun matchUp => matchUp.drawId == some drawId
  allDrawMatchUps_eq _ _ := rfl
  flattened_ids record drawId matchUp hm row hrow := by
    rw [flattenedMatchUps_plain] at hm
    have hflat := (List.mem_filter.mp hm).1
    rw [flattenOf, if_pos rfl] at hflat
    have hid := plainMatchUps_ids (List.mem_filter.mp hflat).1
    have hcell : row "match_up_id" = some (.text matchUp.matchUpId) := by
      rw [List.mem_singleton.mp hrow]
      rfl
    exact ⟨matchUp.matchUpId, hid, hcell⟩
  tournamentRow_keys _ := rfl
  tournamentDiscoveryRow_keys _ := rfl
  orderOfPlayRow_keys _ _ := rfl
  participantPublishRow_keys _ _ := rfl

end FactoryServer.RebuildIntents
