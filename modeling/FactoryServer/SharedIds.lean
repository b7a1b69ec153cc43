import FactoryServer.DeletedMatchUps

/-!
# One batch over several tournaments

A batch may hold intents of several tournaments. Some groups are keyed by the
tournament and the id, others by the id alone, so an intent of one tournament
can take the place of another's before any delta is built. This module states
when the deltas of one tournament are those of its intents alone.
-/

namespace FactoryServer.SharedIds

open JsonValue TournamentTree KeyedTables InsertionMaps ReadModelRows ProjectionDeltas
open IntentGroups ProjectionLogs DeletedMatchUps

/-- The intents of one tournament. -/
def intentsOf (t : String) (intents : List ProjectionIntent) : List ProjectionIntent :=
  intents.filter fun intent => intent.tournamentId = t

/-- The deltas that carry one tournament. -/
def deltasOf (t : String) (deltas : List ProjectionDelta) : List ProjectionDelta :=
  deltas.filter fun d => d.tournamentId = t

/-- Rows that a reader of one tournament sees; venues belong to no tournament. -/
def readRow (t : String) (table : ReadTable) (row : ReadRow) : Bool :=
  table = .venues || row "tournament_id" == some (.text t)

/-- The deltas of one tournament leave its rows as its intents alone would. -/
def AsIfAlone (model : ReadModel) (final : FinalState model) (intents : List ProjectionIntent)
    (t : String) : Prop :=
  ∀ state table,
    (applyDeltas ((deltasOf t (buildProjectionDeltas model final intents)).map
      ProjectionDelta.change) state table).filter (readRow t table) =
    (project model final (intentsOf t intents) state table).filter (readRow t table)

/-- No key of the tournament is another tournament's key as well. -/
def Separate {A : Type} (t : String) (owner : A → String) (pairs : List (String × A)) : Prop :=
  ∀ a ∈ pairs, ∀ b ∈ pairs, a.1 = b.1 → (owner a.2 = t ↔ owner b.2 = t)

/-- The intents of other tournaments stay out of the tournament's groups: they
share no key with it, and neither their flattens nor their results cover a
matchUp that the tournament scores or deletes. -/
structure Undisturbed (model : ReadModel) (final : FinalState model)
    (intents : List ProjectionIntent) (t : String) : Prop where
  /-- Draws to flatten. -/
  flattens : Separate t Prod.fst (intents.flatMap (flattenPairs final.records))
  /-- Draws to re-project. -/
  draws : Separate t id (intents.flatMap drawPairs)
  /-- Structures whose seeds are refreshed. -/
  seeds : Separate t id (intents.flatMap seedPairs)
  /-- Scored matchUps. -/
  results : Separate t Prod.fst (intents.flatMap resultPairs)
  /-- Venues. -/
  venues : Separate t Prod.fst (intents.flatMap venuePairs)
  /-- Deleted matchUps. -/
  removedMatchUps : Separate t id (intents.flatMap deletedMatchUps)
  /-- Deleted events. -/
  removedEvents : Separate t id (intents.flatMap deletedEvents)
  /-- Claimed participants. -/
  claims : Separate t Claim.tournamentId (intents.flatMap claimPairs)
  /-- Renamed participants. -/
  names : Separate t NameChange.tournamentId (intents.flatMap namePairs)
  /-- Only flattens of the tournament rebuild the matchUps it scores or deletes. -/
  rebuilt : ∀ matchUpId,
    matchUpId ∈ ((intentsOf t intents).flatMap resultPairs).map Prod.fst ∨
      matchUpId ∈ ((intentsOf t intents).flatMap deletedMatchUps).map Prod.fst →
    Rebuilt model final intents matchUpId → Rebuilt model final (intentsOf t intents) matchUpId
  /-- Only results of the tournament cover the matchUps it deletes. -/
  scored : ∀ matchUpId ∈ ((intentsOf t intents).flatMap deletedMatchUps).map Prod.fst,
    matchUpId ∈ (intents.flatMap resultPairs).map Prod.fst →
      matchUpId ∈ ((intentsOf t intents).flatMap resultPairs).map Prod.fst

/-- What the items of one owner contribute is what the owner finds in the whole. -/
theorem filter_flatMap_owner {A B : Type} {items : List A} {f : A → List B} {p : A → Bool}
    {q : B → Bool} (h : ∀ item, ∀ b ∈ f item, q b = p item) :
    (items.flatMap f).filter q = (items.filter p).flatMap f := by
  induction items with
  | nil => rfl
  | cons item rest ih =>
    rw [List.flatMap_cons, List.filter_append, ih, List.filter_cons]
    by_cases hp : p item = true
    · have hall : (f item).filter q = f item :=
        List.filter_eq_self.mpr fun b hb => (h item b hb).trans hp
      rw [if_pos hp, List.flatMap_cons, hall]
    · have hnone : (f item).filter q = [] :=
        List.filter_eq_nil_iff.mpr fun b hb => by rw [h item b hb]; exact hp
      rw [if_neg hp, hnone, List.nil_append]

/-- The same where an item contributes at most one. -/
theorem filter_filterMap_owner {A B : Type} (items : List A) {f : A → Option B} {p : A → Bool}
    {q : B → Bool} (h : ∀ item b, f item = some b → q b = p item) :
    (items.filterMap f).filter q = (items.filter p).filterMap f := by
  rw [List.filterMap_eq_flatMap_toList, List.filterMap_eq_flatMap_toList]
  apply filter_flatMap_owner
  intro item b hb
  exact h item b (by simpa using hb)

/-- The part of the groups that carries one tournament. -/
def restrict (t : String) (g : Grouped) : Grouped where
  flattenDraws := g.flattenDraws.filter fun entry => entry.2.1 = t
  touched := g.touched.filter fun owner => owner = t
  participants := g.participants.filter fun owner => owner = t
  events := g.events.filter fun owner => owner = t
  draws := g.draws.filter fun entry => entry.2 = t
  seeds := g.seeds.filter fun entry => entry.2 = t
  orderOfPlay := g.orderOfPlay.filter fun owner => owner = t
  schedulingProfiles := g.schedulingProfiles.filter fun entry => entry.1 = t
  participantPublish := g.participantPublish.filter fun owner => owner = t
  matchUpResults := g.matchUpResults.filter fun entry => entry.2.1 = t
  venues := g.venues.filter fun entry => entry.2.1 = t
  deleteVenues := g.deleteVenues.filter fun entry => entry.1 = t
  deleteDraws := g.deleteDraws.filter fun entry => entry.1 = t
  deleteMatchUps := g.deleteMatchUps.filter fun entry => entry.2 = t
  deleteEvents := g.deleteEvents.filter fun entry => entry.2 = t
  deleteParticipants := g.deleteParticipants.filter fun entry => entry.1 = t
  claims := g.claims.filter fun entry => entry.2.tournamentId = t
  participantNames := g.participantNames.filter fun entry => entry.2.tournamentId = t

section Group

variable {t : String} {intents : List ProjectionIntent}

/-- A map over a tournament's intents is the tournament's part of the whole map. -/
theorem mapOf_intentsOf {A : Type} {f : ProjectionIntent → List (String × A)} {owner : A → String}
    (hf : ∀ intent, ∀ pair ∈ f intent, owner pair.2 = intent.tournamentId)
    (h : Separate t owner (intents.flatMap f)) :
    mapOf ((intentsOf t intents).flatMap f) =
      (mapOf (intents.flatMap f)).filter fun entry => owner entry.2 = t := by
  have hpairs : (intents.flatMap f).filter (fun entry => owner entry.2 = t) =
      (intentsOf t intents).flatMap f := by
    apply filter_flatMap_owner
    intro intent pair hpair
    rw [hf intent pair hpair]
  rw [← hpairs, filter_mapOf]
  intro a ha b hb hkey
  have hsame := h a ha b hb hkey
  simpa using hsame

/-- A set over a tournament's intents is the tournament's part of the whole set. -/
theorem setOf_intentsOf {f : ProjectionIntent → List String}
    (hf : ∀ intent, ∀ owner ∈ f intent, owner = intent.tournamentId) :
    setOf ((intentsOf t intents).flatMap f) =
      (setOf (intents.flatMap f)).filter fun owner => owner = t := by
  have hitems : (intents.flatMap f).filter (fun owner => owner = t) =
      (intentsOf t intents).flatMap f := by
    apply filter_flatMap_owner
    intro intent owner howner
    rw [hf intent owner howner]
  rw [← hitems, filter_setOf]

/-- A list over a tournament's intents is the tournament's part of the whole list. -/
theorem flatMap_intentsOf {A : Type} {f : ProjectionIntent → List (String × A)}
    (hf : ∀ intent, ∀ entry ∈ f intent, entry.1 = intent.tournamentId) :
    (intentsOf t intents).flatMap f =
      (intents.flatMap f).filter fun entry => entry.1 = t := by
  symm
  apply filter_flatMap_owner
  intro intent entry hentry
  rw [hf intent entry hentry]

/-- The groups of a tournament's intents are the tournament's part of the groups. -/
theorem group_intentsOf {model : ReadModel} {final : FinalState model}
    (h : Undisturbed model final intents t) :
    group (intentsOf t intents) final.records = restrict t (group intents final.records) := by
  rw [group_eq, group_eq]
  simp only [restrict, Grouped.mk.injEq]
  refine ⟨mapOf_intentsOf ?_ h.flattens, setOf_intentsOf ?_, setOf_intentsOf ?_, setOf_intentsOf ?_,
    mapOf_intentsOf ?_ h.draws, mapOf_intentsOf ?_ h.seeds, setOf_intentsOf ?_, ?_,
    setOf_intentsOf ?_, mapOf_intentsOf ?_ h.results, mapOf_intentsOf ?_ h.venues,
    flatMap_intentsOf ?_, flatMap_intentsOf ?_, mapOf_intentsOf ?_ h.removedMatchUps,
    mapOf_intentsOf ?_ h.removedEvents, flatMap_intentsOf ?_, mapOf_intentsOf ?_ h.claims,
    mapOf_intentsOf ?_ h.names⟩
  case refine_8 =>
    have hpairs := @flatMap_intentsOf t intents _ profilePairs (by
      intro intent pair hpair
      cases intent <;> simp_all [profilePairs, ProjectionIntent.tournamentId])
    rw [hpairs, filter_mapOf]
    intro a _ b _ hkey
    rw [hkey]
  all_goals
    intro intent item hitem
    cases intent <;>
      simp_all [flattenPairs, touches, entryRefreshes, eventRefreshes, drawPairs, seedPairs,
        orderOfPlayRefreshes, participantPublishRefreshes, resultPairs, venuePairs, deletedVenues,
        deletedDraws, deletedMatchUps, deletedEvents, deletedParticipants, claimPairs, namePairs,
        ProjectionIntent.tournamentId]
    all_goals
      obtain ⟨_, -, rfl⟩ := hitem
      rfl

end Group

section Builders

variable (model : ReadModel) (final : FinalState model) (t : String) (g : Grouped)

@[simp] theorem deltasOf_append (a b : List ProjectionDelta) :
    deltasOf t (a ++ b) = deltasOf t a ++ deltasOf t b :=
  List.filter_append ..

theorem deltasOf_tournamentDeltas :
    deltasOf t (tournamentDeltas model final.records g) =
      tournamentDeltas model final.records (restrict t g) := by
  apply filter_filterMap_owner
  intro owner d hd
  obtain ⟨record, -, rfl⟩ := Option.map_eq_some_iff.mp hd
  rfl

theorem deltasOf_discoveryDeltas :
    deltasOf t (discoveryDeltas model final.records g) =
      discoveryDeltas model final.records (restrict t g) := by
  have hfilter := filter_filterMap_owner (setOf (g.touched ++ g.participants ++ g.events ++
    g.orderOfPlay ++ g.participantPublish ++ g.draws.map Prod.snd ++ g.seeds.map Prod.snd ++
    g.deleteMatchUps.map Prod.snd ++ g.deleteEvents.map Prod.snd ++
    g.schedulingProfiles.map Prod.fst ++ g.flattenDraws.map (fun e => e.2.1) ++
    g.matchUpResults.map (fun e => e.2.1) ++ g.venues.map (fun e => e.2.1) ++
    g.claims.map (fun e => e.2.tournamentId) ++ g.participantNames.map (fun e => e.2.tournamentId) ++
    g.deleteVenues.map Prod.fst ++ g.deleteDraws.map Prod.fst ++ g.deleteParticipants.map Prod.fst))
    (f := fun owner => (final.records owner).map fun record =>
      upsert owner .tournamentDiscovery [("tournament_id", some (.text owner))]
        (model.tournamentDiscoveryRow record) "discovery")
    (p := fun owner => owner = t) (q := fun d => d.tournamentId = t) (by
      intro owner d hd
      obtain ⟨record, -, rfl⟩ := Option.map_eq_some_iff.mp hd
      rfl)
  unfold deltasOf discoveryDeltas
  rw [hfilter, filter_setOf]
  simp only [List.filter_append, List.filter_map, restrict]
  rfl

theorem deltasOf_eventDeltas :
    deltasOf t (eventDeltas model final.records g) =
      eventDeltas model final.records (restrict t g) := by
  apply filter_flatMap_owner
  intro owner d hd
  cases hr : final.records owner with
  | none =>
    rw [hr] at hd
    cases hd
  | some record =>
    rw [hr] at hd
    obtain ⟨event, -, hevent⟩ := List.mem_filterMap.mp hd
    obtain ⟨id, -, rfl⟩ := Option.map_eq_some_iff.mp hevent
    rfl

mutual

theorem structureDeltas_owner (ctx : StructureContext) (s : Structure) :
    ∀ d ∈ structureDeltas model ctx s, d.tournamentId = ctx.tournamentId := by
  intro d hd
  cases s with
  | node structureId matchUps seedAssignments content structures =>
    unfold structureDeltas at hd
    cases hid : TournamentAccess.nonEmpty structureId with
    | none =>
      rw [hid] at hd
      cases hd
    | some id =>
      rw [hid] at hd
      rcases List.mem_cons.mp hd with rfl | hd
      · rfl
      · exact collectStructureDeltas_owner { ctx with parentStructureId := some id } structures d hd

theorem collectStructureDeltas_owner (ctx : StructureContext) (structures : List Structure) :
    ∀ d ∈ collectStructureDeltas model ctx structures, d.tournamentId = ctx.tournamentId := by
  intro d hd
  cases structures with
  | nil => cases hd
  | cons first rest =>
    unfold collectStructureDeltas at hd
    rcases List.mem_append.mp hd with hd | hd
    · exact structureDeltas_owner ctx first d hd
    · exact collectStructureDeltas_owner ctx rest d hd

end

theorem deltasOf_drawDeltas :
    deltasOf t (drawDeltas model final.records g) =
      drawDeltas model final.records (restrict t g) := by
  apply filter_flatMap_owner
  intro entry d hd
  have howner : d.tournamentId = entry.2 := by
    unfold drawDeltasOf at hd
    split at hd
    · cases hd
    · rcases List.mem_cons.mp hd with rfl | hd
      · rfl
      · rcases List.mem_cons.mp hd with rfl | hd
        · rfl
        · exact collectStructureDeltas_owner model _ _ d hd
  rw [howner]

theorem deltasOf_seedDeltas :
    deltasOf t (seedDeltas model final.records g) =
      seedDeltas model final.records (restrict t g) := by
  apply filter_flatMap_owner
  intro entry d hd
  have howner : d.tournamentId = entry.2 := by
    unfold seedDeltasOf at hd
    split at hd
    · cases hd
    · rcases List.mem_cons.mp hd with rfl | hd
      · rfl
      · split at hd
        · cases hd
        · obtain ⟨assignment, -, ha⟩ := List.mem_filterMap.mp hd
          obtain ⟨id, -, rfl⟩ := Option.map_eq_some_iff.mp ha
          rfl
  rw [howner]

theorem deltasOf_orderOfPlayDeltas :
    deltasOf t (orderOfPlayDeltas model final.records g) =
      orderOfPlayDeltas model final.records (restrict t g) := by
  apply filter_filterMap_owner
  intro owner d hd
  obtain ⟨record, -, rfl⟩ := Option.map_eq_some_iff.mp hd
  dsimp only
  split_ifs <;> rfl

theorem deltasOf_schedulingProfileDeltas :
    deltasOf t (schedulingProfileDeltas model g) =
      schedulingProfileDeltas model (restrict t g) := by
  apply filter_flatMap_owner
  intro entry d hd
  rcases List.mem_cons.mp hd with rfl | hd
  · rfl
  · obtain ⟨row, -, rfl⟩ := List.mem_map.mp hd
    rfl

theorem deltasOf_participantPublishDeltas :
    deltasOf t (participantPublishDeltas model final.records g) =
      participantPublishDeltas model final.records (restrict t g) := by
  apply filter_filterMap_owner
  intro owner d hd
  obtain ⟨record, -, rfl⟩ := Option.map_eq_some_iff.mp hd
  dsimp only
  split_ifs <;> rfl

theorem deltasOf_venueDeltas :
    deltasOf t (venueDeltas model final.records g) =
      venueDeltas model final.records (restrict t g) := by
  apply filter_flatMap_owner
  intro entry d hd
  have howner : d.tournamentId = entry.2.1 := by
    unfold venueDeltasOf at hd
    simp only [List.mem_cons] at hd
    rcases hd with rfl | rfl | rfl | hd
    · rfl
    · rfl
    · rfl
    · obtain ⟨court, -, hc⟩ := List.mem_filterMap.mp hd
      obtain ⟨id, -, rfl⟩ := Option.map_eq_some_iff.mp hc
      rfl
  rw [howner]

theorem deltasOf_flattenDrawDeltas :
    deltasOf t (flattenDrawDeltas model final.records final.flattenDraw g) =
      flattenDrawDeltas model final.records final.flattenDraw (restrict t g) := by
  apply filter_flatMap_owner
  intro entry d hd
  have howner : d.tournamentId = entry.2.1 := by
    obtain ⟨matchUp, -, hd⟩ := List.mem_flatMap.mp hd
    rcases List.mem_append.mp hd with hd | hd
    · obtain ⟨row, -, rfl⟩ := List.mem_map.mp hd
      rfl
    · obtain ⟨row, -, rfl⟩ := List.mem_map.mp hd
      rfl
  rw [howner]

theorem deltasOf_entryDeltas :
    deltasOf t (entryDeltas model final.records g) =
      entryDeltas model final.records (restrict t g) := by
  apply filter_flatMap_owner
  intro owner d hd
  rcases List.mem_cons.mp hd with rfl | hd
  · rfl
  · obtain ⟨row, -, rfl⟩ := List.mem_map.mp hd
    rfl

theorem deltasOf_claimDeltas :
    deltasOf t (claimDeltas g) = claimDeltas (restrict t g) := by
  apply filter_flatMap_owner
  intro entry d hd
  simp only [List.mem_cons, List.not_mem_nil, or_false] at hd
  rcases hd with rfl | rfl <;> rfl

theorem deltasOf_participantNameDeltas :
    deltasOf t (participantNameDeltas g) = participantNameDeltas (restrict t g) := by
  apply filter_flatMap_owner
  intro entry d hd
  simp only [List.mem_cons, List.not_mem_nil, or_false] at hd
  rcases hd with rfl | rfl <;> rfl

/-- Deletes are emitted tournament by tournament, where the covered matchUps agree
on those that the tournament deletes. -/
theorem deltasOf_deleteDeltas {covered covered' : List (Option Cell)}
    (h : ∀ m ∈ g.deleteMatchUps, m.2 = t →
      (some (Cell.text m.1) ∈ covered ↔ some (Cell.text m.1) ∈ covered')) :
    deltasOf t (deleteDeltas g covered) = deleteDeltas (restrict t g) covered' := by
  have hvenues : deltasOf t (g.deleteVenues.map fun v =>
      del v.1 .tournamentVenues [("tournament_id", v.1), ("venue_id", v.2)] "deleteVenue") =
      ((restrict t g).deleteVenues.map fun v =>
        del v.1 .tournamentVenues [("tournament_id", v.1), ("venue_id", v.2)] "deleteVenue") :=
    List.filter_map ..
  have hdraws : deltasOf t (g.deleteDraws.flatMap fun d => deleteDrawDeltas d.1 d.2) =
      (restrict t g).deleteDraws.flatMap fun d => deleteDrawDeltas d.1 d.2 := by
    apply filter_flatMap_owner
    intro entry d hd
    simp only [deleteDrawDeltas, List.mem_cons, List.not_mem_nil, or_false] at hd
    rcases hd with rfl | rfl | rfl <;> rfl
  have hmatchUps : deltasOf t ((g.deleteMatchUps.filter fun m =>
        some (Cell.text m.1) ∉ covered).map fun m =>
          del m.2 .matchUps [("tournament_id", m.2), ("match_up_id", m.1)] "deletedMatchUpIds") =
      (((restrict t g).deleteMatchUps.filter fun m => some (Cell.text m.1) ∉ covered').map fun m =>
          del m.2 .matchUps [("tournament_id", m.2), ("match_up_id", m.1)]
            "deletedMatchUpIds") := by
    unfold deltasOf restrict
    rw [List.filter_map, List.filter_filter, List.filter_filter]
    congr 1
    apply List.filter_congr
    intro m hm
    by_cases ht : m.2 = t
    · simp [ht, del, h m hm ht]
    · simp [ht, del]
  have hevents : deltasOf t (g.deleteEvents.flatMap fun e => deleteEventDeltas e.2 e.1) =
      (restrict t g).deleteEvents.flatMap fun e => deleteEventDeltas e.2 e.1 := by
    apply filter_flatMap_owner
    intro entry d hd
    simp only [deleteEventDeltas, List.mem_cons, List.not_mem_nil, or_false] at hd
    rcases hd with rfl | rfl | rfl | rfl | rfl <;> rfl
  have hparticipants : deltasOf t (g.deleteParticipants.flatMap fun p => p.2.map
        fun participantId => del p.1 .entries
          [("tournament_id", p.1), ("participant_id", participantId)] "deleteParticipants") =
      (restrict t g).deleteParticipants.flatMap fun p => p.2.map
        fun participantId => del p.1 .entries
          [("tournament_id", p.1), ("participant_id", participantId)] "deleteParticipants" := by
    apply filter_flatMap_owner
    intro entry d hd
    obtain ⟨participantId, -, rfl⟩ := List.mem_map.mp hd
    rfl
  unfold deleteDeltas
  simp only [deltasOf_append, hvenues, hdraws, hmatchUps, hevents, hparticipants]

end Builders

section Alone

variable {model : ReadModel} {final : FinalState model} {intents : List ProjectionIntent}
  {t : String}

/-- What a tournament's own flattens rebuild, the batch rebuilds. -/
theorem rebuilt_of_intentsOf (h : Undisturbed model final intents t) {matchUpId : String}
    (hr : Rebuilt model final (intentsOf t intents) matchUpId) :
    Rebuilt model final intents matchUpId := by
  obtain ⟨row, hrow, hid⟩ := hr
  refine ⟨row, ?_, hid⟩
  rw [group_intentsOf h] at hrow
  obtain ⟨entry, hentry, hmem⟩ := List.mem_flatMap.mp hrow
  exact List.mem_flatMap.mpr ⟨entry, (List.mem_filter.mp hentry).1, hmem⟩

/-- The kept results of a tournament are those of its intents alone. -/
theorem slimResults_intentsOf (h : Undisturbed model final intents t) :
    (slimResults model final (group intents final.records)).filter (fun entry => entry.2.1 = t) =
      slimResults model final (group (intentsOf t intents) final.records) := by
  have hresults : (group (intentsOf t intents) final.records).matchUpResults =
      (group intents final.records).matchUpResults.filter fun entry => entry.2.1 = t := by
    rw [group_intentsOf h]
    rfl
  unfold slimResults keptResults
  rw [hresults, List.filter_filter, List.filter_filter]
  apply List.filter_congr
  intro entry hentry
  by_cases ht : entry.2.1 = t
  · have hkey : entry.1 ∈ ((intentsOf t intents).flatMap resultPairs).map Prod.fst := by
      have hmem : entry ∈ (group (intentsOf t intents) final.records).matchUpResults := by
        rw [hresults]
        exact List.mem_filter.mpr ⟨hentry, by simpa using ht⟩
      rw [group_eq] at hmem
      exact List.mem_map_of_mem (mem_pairs_of_mem_mapOf hmem)
    have hsame : Rebuilt model final intents entry.1 ↔
        Rebuilt model final (intentsOf t intents) entry.1 :=
      ⟨h.rebuilt entry.1 (Or.inl hkey), rebuilt_of_intentsOf h⟩
    rw [← mem_flattenedIds, ← mem_flattenedIds] at hsame
    simp only [hsame, ht, decide_true, Bool.true_and, Bool.and_true]
  · simp [ht]

/-- A batch covers the matchUps that a tournament deletes as its own intents do. -/
theorem covered_intentsOf (h : Undisturbed model final intents t) {m : String × String}
    (hm : m ∈ (group intents final.records).deleteMatchUps) (ht : m.2 = t) :
    some (Cell.text m.1) ∈ coveredIds model final (group intents final.records) ↔
      some (Cell.text m.1) ∈
        coveredIds model final (group (intentsOf t intents) final.records) := by
  have hdeleted : m.1 ∈ ((intentsOf t intents).flatMap deletedMatchUps).map Prod.fst := by
    have hmem : m ∈ (group (intentsOf t intents) final.records).deleteMatchUps := by
      rw [group_intentsOf h]
      exact List.mem_filter.mpr ⟨hm, by simpa using ht⟩
    rw [group_eq] at hmem
    exact List.mem_map_of_mem (mem_pairs_of_mem_mapOf hmem)
  have hscored : ∀ intents : List ProjectionIntent,
      (∃ entry ∈ (group intents final.records).matchUpResults, entry.1 = m.1) ↔
        m.1 ∈ (intents.flatMap resultPairs).map Prod.fst := by
    intro intents
    rw [group_eq]
    constructor
    · rintro ⟨entry, hentry, he⟩
      exact he ▸ List.mem_map_of_mem (mem_pairs_of_mem_mapOf hentry)
    · intro hkey
      cases hlast : lastOf m.1 (intents.flatMap resultPairs) with
      | none => exact absurd hkey (lastOf_eq_none.mp hlast)
      | some result => exact ⟨(m.1, result), mem_mapOf.mpr hlast, rfl⟩
  rw [mem_coveredIds, mem_coveredIds, hscored, hscored]
  constructor
  · rintro (hr | hs)
    · exact Or.inl (h.rebuilt m.1 (Or.inr hdeleted) hr)
    · exact Or.inr (h.scored m.1 hdeleted hs)
  · rintro (hr | hs)
    · exact Or.inl (rebuilt_of_intentsOf h hr)
    · right
      obtain ⟨pair, hpair, he⟩ := List.mem_map.mp hs
      obtain ⟨intent, hintent, hmem⟩ := List.mem_flatMap.mp hpair
      exact List.mem_map.mpr ⟨pair, List.mem_flatMap.mpr
        ⟨intent, (List.mem_filter.mp hintent).1, hmem⟩, he⟩

/-- The deltas of an undisturbed tournament are those of its intents alone. -/
theorem deltasOf_build (h : Undisturbed model final intents t) :
    deltasOf t (buildProjectionDeltas model final intents) =
      buildProjectionDeltas model final (intentsOf t intents) := by
  have hgroup := group_intentsOf h
  have hresults : deltasOf t (resultDeltas model final.records
      (flattenedIds model final.records final.flattenDraw (group intents final.records))
      (group intents final.records).matchUpResults).1 =
      (resultDeltas model final.records
        (flattenedIds model final.records final.flattenDraw
          (group (intentsOf t intents) final.records))
        (group (intentsOf t intents) final.records).matchUpResults).1 := by
    rw [results_eq, results_eq, ← slimResults_intentsOf h]
    exact List.filter_map ..
  have hdeletes := deltasOf_deleteDeltas t (group intents final.records)
    fun m hm ht => covered_intentsOf h hm ht
  unfold buildProjectionDeltas
  dsimp only
  rw [results_eq model final intents] at hresults ⊢
  rw [results_eq model final (intentsOf t intents)] at hresults ⊢
  simp only [deltasOf_append, deltasOf_tournamentDeltas, deltasOf_discoveryDeltas,
    deltasOf_eventDeltas, deltasOf_drawDeltas, deltasOf_seedDeltas, deltasOf_orderOfPlayDeltas,
    deltasOf_schedulingProfileDeltas, deltasOf_participantPublishDeltas, deltasOf_venueDeltas,
    deltasOf_flattenDrawDeltas, deltasOf_entryDeltas, deltasOf_claimDeltas,
    deltasOf_participantNameDeltas, hdeletes, hresults, ← hgroup]

/-- An undisturbed tournament is projected as if alone. -/
theorem projected_as_if_alone (h : Undisturbed model final intents t) :
    AsIfAlone model final intents t := by
  intro state table
  rw [deltasOf_build h]
  rfl

end Alone

/-- A tournament without events. -/
def bareRecord (t : String) : RecordTree := ⟨t, none, [], [], [], .null⟩

/-- Two linked tournaments. -/
def linkedState : FinalState plainModel where
  records t := if t = "t1" ∨ t = "t2" then some (bareRecord t) else none
  flattenDraw _ _ := []
  own t record h := by
    split_ifs at h
    rw [← Option.some.inj h]
    rfl
  flattened t drawId matchUp hm := by
    rw [flattenedMatchUps_plain] at hm
    cases hm

/-- Each tournament adds a venue. -/
def addedVenues (first second : String) : List ProjectionIntent :=
  [.venue "t1" ⟨first, [], .null⟩, .venue "t2" ⟨second, [], .null⟩]

/-- Two tournaments at different venues do not disturb each other. -/
theorem different_venues_undisturbed :
    Undisturbed plainModel linkedState (addedVenues "v1" "v2") "t1" where
  flattens := by simp [Separate, addedVenues, flattenPairs]
  draws := by simp [Separate, addedVenues, drawPairs]
  seeds := by simp [Separate, addedVenues, seedPairs]
  results := by simp [Separate, addedVenues, resultPairs]
  venues := by simp [Separate, addedVenues, venuePairs]
  removedMatchUps := by simp [Separate, addedVenues, deletedMatchUps]
  removedEvents := by simp [Separate, addedVenues, deletedEvents]
  claims := by simp [Separate, addedVenues, claimPairs]
  names := by simp [Separate, addedVenues, namePairs]
  rebuilt matchUpId h := by
    have hresults : (intentsOf "t1" (addedVenues "v1" "v2")).flatMap resultPairs = [] := rfl
    have hdeletes : (intentsOf "t1" (addedVenues "v1" "v2")).flatMap deletedMatchUps = [] := rfl
    rw [hresults, hdeletes] at h
    simp at h
  scored matchUpId h := by
    have hdeletes : (intentsOf "t1" (addedVenues "v1" "v2")).flatMap deletedMatchUps = [] := rfl
    rw [hdeletes] at h
    simp at h

theorem different_venues_as_if_alone :
    AsIfAlone plainModel linkedState (addedVenues "v1" "v2") "t1" :=
  projected_as_if_alone different_venues_undisturbed

/-- At one shared venue, the link of the first tournament is lost. -/
theorem shared_venue_replaced :
    ¬ ∀ (model : ReadModel) (final : FinalState model) (intents : List ProjectionIntent)
      (t : String), AsIfAlone model final intents t := by
  intro h
  have hsame := h plainModel linkedState (addedVenues "v1" "v1") "t1" (fun _ => [])
    .tournamentVenues
  have hbatch : applyDeltas ((deltasOf "t1" (buildProjectionDeltas plainModel linkedState
      (addedVenues "v1" "v1"))).map ProjectionDelta.change) (fun _ => []) .tournamentVenues =
      [] := rfl
  have halone : (project plainModel linkedState (intentsOf "t1" (addedVenues "v1" "v1"))
      (fun _ => []) .tournamentVenues).length = 1 := rfl
  rw [hbatch, List.filter_nil] at hsame
  have hnone := List.filter_eq_nil_iff.mp hsame.symm
  obtain ⟨row, hrow⟩ := List.length_eq_one_iff.mp halone
  have hread : readRow "t1" .tournamentVenues row = true := by
    have hhead : row = fun column => if column = "tournament_id" then some (Cell.text "t1")
        else if column = "venue_id" then some (Cell.text "v1") else none := by
      have hrows : [row] = [fun column => if column = "tournament_id" then some (Cell.text "t1")
          else if column = "venue_id" then some (Cell.text "v1") else none] := hrow.symm
      exact List.singleton_inj.mp hrows
    rw [hhead]
    rfl
  exact hnone row (by rw [hrow]; exact List.mem_singleton_self _) hread

end FactoryServer.SharedIds
