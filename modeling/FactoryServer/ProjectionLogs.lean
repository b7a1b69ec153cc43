import FactoryServer.IntentGroups

/-!
# The log of one table

A build's deltas interleave the tables in one fixed order of builders. This
module takes the part of each table out of the log: what is upserted into it,
what is refreshed in it and by which keys rows are deleted from it.
-/

namespace FactoryServer.ProjectionLogs

open JsonValue TournamentAccess TournamentTree KeyedTables InsertionMaps ReadModelRows
open ProjectionDeltas IntentGroups

/-- The statements of a log about one table. -/
def onTable (table : ReadTable) (deltas : List ProjectionDelta) : List ReadChange :=
  (deltas.map ProjectionDelta.change).filter fun change => change.table = table

@[simp] theorem onTable_nil (table : ReadTable) : onTable table [] = [] := rfl

@[simp] theorem onTable_append (table : ReadTable) (a b : List ProjectionDelta) :
    onTable table (a ++ b) = onTable table a ++ onTable table b := by
  simp [onTable]

@[simp] theorem onTable_cons (table : ReadTable) (d : ProjectionDelta)
    (rest : List ProjectionDelta) :
    onTable table (d :: rest) =
      (if d.change.table = table then [d.change] else []) ++ onTable table rest := by
  by_cases h : d.change.table = table <;> simp [onTable, h]

theorem onTable_flatMap {A : Type} (table : ReadTable) (items : List A)
    (f : A → List ProjectionDelta) :
    onTable table (items.flatMap f) = items.flatMap fun item => onTable table (f item) := by
  induction items with
  | nil => rfl
  | cons item rest ih => rw [List.flatMap_cons, List.flatMap_cons, onTable_append, ih]

/-- A builder of other tables leaves no statement. -/
theorem onTable_eq_nil {table : ReadTable} {deltas : List ProjectionDelta}
    (h : ∀ d ∈ deltas, d.change.table ≠ table) : onTable table deltas = [] := by
  unfold onTable
  rw [List.filter_eq_nil_iff]
  intro change hc
  obtain ⟨d, hd, rfl⟩ := List.mem_map.mp hc
  simpa using h d hd

/-- A builder of one table leaves all of its statements. -/
theorem onTable_eq_map {table : ReadTable} {deltas : List ProjectionDelta}
    (h : ∀ d ∈ deltas, d.change.table = table) :
    onTable table deltas = deltas.map ProjectionDelta.change := by
  unfold onTable
  rw [List.filter_eq_self]
  intro change hc
  obtain ⟨d, hd, rfl⟩ := List.mem_map.mp hc
  simpa using h d hd

/-- A statement of one table that leaves primary keys alone. -/
def Serves (table : ReadTable) (d : ProjectionDelta) : Prop :=
  d.change.table = table ∧ KeepsKeys primaryKey d.change

/-- A builder of one table leaves its statements in that table. -/
theorem onTable_of_table {target : ReadTable} {deltas : List ProjectionDelta}
    (h : ∀ d ∈ deltas, Serves target d) (table : ReadTable) :
    onTable table deltas =
      if target = table then deltas.map ProjectionDelta.change else [] := by
  split_ifs with ht
  · exact onTable_eq_map fun d hd => ht ▸ (h d hd).1
  · exact onTable_eq_nil fun d hd => by rw [(h d hd).1]; exact ht

section Tables

variable {model : ReadModel} {records : Records} {g : Grouped}

theorem serves_tournamentDeltas : ∀ d ∈ tournamentDeltas model records g,
    Serves .tournaments d := by
  intro d hd
  obtain ⟨t, -, ht⟩ := List.mem_filterMap.mp hd
  obtain ⟨record, -, rfl⟩ := Option.map_eq_some_iff.mp ht
  exact ⟨rfl, trivial⟩

theorem serves_discoveryDeltas : ∀ d ∈ discoveryDeltas model records g,
    Serves .tournamentDiscovery d := by
  intro d hd
  obtain ⟨t, -, ht⟩ := List.mem_filterMap.mp hd
  obtain ⟨record, -, rfl⟩ := Option.map_eq_some_iff.mp ht
  exact ⟨rfl, trivial⟩

theorem serves_eventDeltas : ∀ d ∈ eventDeltas model records g, Serves .events d := by
  intro d hd
  obtain ⟨t, -, ht⟩ := List.mem_flatMap.mp hd
  cases hr : records t with
  | none =>
    rw [hr] at ht
    cases ht
  | some record =>
    rw [hr] at ht
    obtain ⟨event, -, he⟩ := List.mem_filterMap.mp ht
    obtain ⟨id, -, rfl⟩ := Option.map_eq_some_iff.mp he
    exact ⟨rfl, trivial⟩

mutual

theorem serves_structureDeltas (ctx : StructureContext) (s : Structure) :
    ∀ d ∈ structureDeltas model ctx s, Serves .structures d := by
  intro d hd
  cases s with
  | node structureId matchUps seedAssignments content structures =>
    unfold structureDeltas at hd
    cases hid : nonEmpty structureId with
    | none =>
      rw [hid] at hd
      cases hd
    | some id =>
      rw [hid] at hd
      rcases List.mem_cons.mp hd with rfl | hd
      · exact ⟨rfl, trivial⟩
      · exact serves_collectStructureDeltas _ structures d hd

theorem serves_collectStructureDeltas (ctx : StructureContext) (structures : List Structure) :
    ∀ d ∈ collectStructureDeltas model ctx structures, Serves .structures d := by
  intro d hd
  cases structures with
  | nil => cases hd
  | cons first rest =>
    unfold collectStructureDeltas at hd
    rcases List.mem_append.mp hd with hd | hd
    · exact serves_structureDeltas ctx first d hd
    · exact serves_collectStructureDeltas ctx rest d hd

end

theorem serves_drawDeltas : ∀ d ∈ drawDeltas model records g,
    Serves .draws d ∨ Serves .structures d := by
  intro d hd
  obtain ⟨entry, -, hd⟩ := List.mem_flatMap.mp hd
  unfold drawDeltasOf at hd
  split at hd
  · cases hd
  · rcases List.mem_cons.mp hd with rfl | hd
    · exact Or.inl ⟨rfl, trivial⟩
    · rcases List.mem_cons.mp hd with rfl | hd
      · exact Or.inr ⟨rfl, trivial⟩
      · exact Or.inr (serves_collectStructureDeltas _ _ d hd)

theorem serves_seedDeltasOf (structureId t : String) :
    ∀ d ∈ seedDeltasOf model records structureId t, Serves .seeds d := by
  intro d hd
  unfold seedDeltasOf at hd
  split at hd
  · cases hd
  · rcases List.mem_cons.mp hd with rfl | hd
    · exact ⟨rfl, trivial⟩
    · split at hd
      · cases hd
      · obtain ⟨assignment, -, ha⟩ := List.mem_filterMap.mp hd
        obtain ⟨p, -, rfl⟩ := Option.map_eq_some_iff.mp ha
        exact ⟨rfl, trivial⟩

theorem serves_seedDeltas : ∀ d ∈ seedDeltas model records g, Serves .seeds d := by
  intro d hd
  obtain ⟨entry, -, hd⟩ := List.mem_flatMap.mp hd
  exact serves_seedDeltasOf _ _ d hd

theorem serves_orderOfPlayDeltas : ∀ d ∈ orderOfPlayDeltas model records g,
    Serves .orderOfPlay d := by
  intro d hd
  obtain ⟨t, -, ht⟩ := List.mem_filterMap.mp hd
  obtain ⟨record, -, rfl⟩ := Option.map_eq_some_iff.mp ht
  dsimp only
  split_ifs <;> exact ⟨rfl, trivial⟩

theorem serves_schedulingProfileDeltas : ∀ d ∈ schedulingProfileDeltas model g,
    Serves .schedulingProfile d := by
  intro d hd
  obtain ⟨entry, -, hd⟩ := List.mem_flatMap.mp hd
  rcases List.mem_cons.mp hd with rfl | hd
  · exact ⟨rfl, trivial⟩
  · obtain ⟨row, -, rfl⟩ := List.mem_map.mp hd
    exact ⟨rfl, trivial⟩

theorem serves_participantPublishDeltas : ∀ d ∈ participantPublishDeltas model records g,
    Serves .participantPublish d := by
  intro d hd
  obtain ⟨t, -, ht⟩ := List.mem_filterMap.mp hd
  obtain ⟨record, -, rfl⟩ := Option.map_eq_some_iff.mp ht
  dsimp only
  split_ifs <;> exact ⟨rfl, trivial⟩

theorem serves_venueDeltas : ∀ d ∈ venueDeltas model records g,
    Serves .venues d ∨ Serves .tournamentVenues d ∨ Serves .courts d := by
  intro d hd
  obtain ⟨entry, -, hd⟩ := List.mem_flatMap.mp hd
  unfold venueDeltasOf at hd
  simp only [List.mem_cons] at hd
  rcases hd with rfl | rfl | rfl | hd
  · exact Or.inl ⟨rfl, trivial⟩
  · exact Or.inr (Or.inl ⟨rfl, trivial⟩)
  · exact Or.inr (Or.inr ⟨rfl, trivial⟩)
  · obtain ⟨court, -, hc⟩ := List.mem_filterMap.mp hd
    obtain ⟨id, -, rfl⟩ := Option.map_eq_some_iff.mp hc
    exact Or.inr (Or.inr ⟨rfl, trivial⟩)

theorem serves_entryDeltas : ∀ d ∈ entryDeltas model records g, Serves .entries d := by
  intro d hd
  obtain ⟨t, -, hd⟩ := List.mem_flatMap.mp hd
  rcases List.mem_cons.mp hd with rfl | hd
  · exact ⟨rfl, trivial⟩
  · obtain ⟨row, -, rfl⟩ := List.mem_map.mp hd
    exact ⟨rfl, trivial⟩

theorem serves_resultDeltas (covered : List (Option Cell))
    (results : List (String × (String × ResultMatchUp))) :
    ∀ d ∈ (resultDeltas model records covered results).1, Serves .matchUps d := by
  induction results generalizing covered with
  | nil =>
    intro d hd
    cases hd
  | cons entry rest ih =>
    intro d hd
    unfold resultDeltas at hd
    split_ifs at hd
    · exact ih _ d hd
    · rcases List.mem_cons.mp hd with rfl | hd
      · exact ⟨rfl, trivial⟩
      · exact ih _ d hd

theorem serves_claimDeltas : ∀ d ∈ claimDeltas g,
    Serves .matchUpCompetitors d ∨ Serves .entries d := by
  intro d hd
  obtain ⟨entry, -, hd⟩ := List.mem_flatMap.mp hd
  simp only [List.mem_cons, List.not_mem_nil, or_false] at hd
  rcases hd with rfl | rfl
  · exact Or.inl ⟨rfl, by simp [update, KeepsKeys, rowOf, primaryKey]⟩
  · exact Or.inr ⟨rfl, by simp [update, KeepsKeys, rowOf, primaryKey]⟩

theorem serves_participantNameDeltas : ∀ d ∈ participantNameDeltas g,
    Serves .matchUpCompetitors d := by
  intro d hd
  obtain ⟨entry, -, hd⟩ := List.mem_flatMap.mp hd
  simp only [List.mem_cons, List.not_mem_nil, or_false] at hd
  rcases hd with rfl | rfl <;> exact ⟨rfl, by simp [update, KeepsKeys, rowOf, primaryKey]⟩

/-- The builders that serve one table. -/
theorem single_tables (table : ReadTable) :
    onTable table (tournamentDeltas model records g) =
        (if .tournaments = table then (tournamentDeltas model records g).map ProjectionDelta.change
        else []) ∧
      onTable table (discoveryDeltas model records g) =
        (if .tournamentDiscovery = table then
          (discoveryDeltas model records g).map ProjectionDelta.change else []) ∧
      onTable table (eventDeltas model records g) =
        (if .events = table then (eventDeltas model records g).map ProjectionDelta.change
        else []) ∧
      onTable table (seedDeltas model records g) =
        (if .seeds = table then (seedDeltas model records g).map ProjectionDelta.change else []) ∧
      onTable table (orderOfPlayDeltas model records g) =
        (if .orderOfPlay = table then (orderOfPlayDeltas model records g).map ProjectionDelta.change
        else []) ∧
      onTable table (participantPublishDeltas model records g) =
        (if .participantPublish = table then
          (participantPublishDeltas model records g).map ProjectionDelta.change else []) ∧
      onTable table (entryDeltas model records g) =
        (if .entries = table then (entryDeltas model records g).map ProjectionDelta.change
        else []) :=
  ⟨onTable_of_table serves_tournamentDeltas table, onTable_of_table serves_discoveryDeltas table,
    onTable_of_table serves_eventDeltas table, onTable_of_table serves_seedDeltas table,
    onTable_of_table serves_orderOfPlayDeltas table,
    onTable_of_table serves_participantPublishDeltas table,
    onTable_of_table serves_entryDeltas table⟩

theorem onTable_schedulingProfileDeltas (table : ReadTable) :
    onTable table (schedulingProfileDeltas model g) =
      if .schedulingProfile = table then
        (schedulingProfileDeltas model g).map ProjectionDelta.change else [] :=
  onTable_of_table serves_schedulingProfileDeltas table

theorem onTable_participantNameDeltas (table : ReadTable) :
    onTable table (participantNameDeltas g) =
      if .matchUpCompetitors = table then (participantNameDeltas g).map ProjectionDelta.change
      else [] :=
  onTable_of_table serves_participantNameDeltas table

theorem onTable_drawDeltas_of_ne {table : ReadTable} (hd : table ≠ .draws)
    (hs : table ≠ .structures) : onTable table (drawDeltas model records g) = [] := by
  apply onTable_eq_nil
  intro d hmem
  rcases serves_drawDeltas d hmem with h | h <;> rw [h.1]
  · exact hd.symm
  · exact hs.symm

theorem onTable_venueDeltas_of_ne {table : ReadTable} (hv : table ≠ .venues)
    (hl : table ≠ .tournamentVenues) (hc : table ≠ .courts) :
    onTable table (venueDeltas model records g) = [] := by
  apply onTable_eq_nil
  intro d hmem
  rcases serves_venueDeltas d hmem with h | h | h <;> rw [h.1]
  · exact hv.symm
  · exact hl.symm
  · exact hc.symm

theorem onTable_claimDeltas_of_ne {table : ReadTable} (hc : table ≠ .matchUpCompetitors)
    (he : table ≠ .entries) : onTable table (claimDeltas g) = [] := by
  apply onTable_eq_nil
  intro d hmem
  rcases serves_claimDeltas d hmem with h | h <;> rw [h.1]
  · exact hc.symm
  · exact he.symm

end Tables

/-- A key of ids, as `del` builds it. -/
def idKey (entries : List (String × String)) : Key String Cell :=
  entries.map fun entry => (entry.1, some (.text entry.2))

/-- The keys of the deleted draws. -/
def drawKeys (g : Grouped) : List (Key String Cell) :=
  g.deleteDraws.map fun d => idKey [("tournament_id", d.1), ("draw_id", d.2)]

/-- The keys of the deleted events. -/
def eventKeys (g : Grouped) : List (Key String Cell) :=
  g.deleteEvents.map fun e => idKey [("tournament_id", e.2), ("event_id", e.1)]

/-- The keys of the deleted matchUps that nothing covers. -/
def matchUpKeys (g : Grouped) (covered : List (Option Cell)) : List (Key String Cell) :=
  (g.deleteMatchUps.filter fun m => some (Cell.text m.1) ∉ covered).map
    fun m => idKey [("tournament_id", m.2), ("match_up_id", m.1)]

/-- The keys of the deleted venue links. -/
def venueKeys (g : Grouped) : List (Key String Cell) :=
  g.deleteVenues.map fun v => idKey [("tournament_id", v.1), ("venue_id", v.2)]

/-- The keys of the entries of deleted participants. -/
def participantKeys (g : Grouped) : List (Key String Cell) :=
  g.deleteParticipants.flatMap fun p => p.2.map
    fun participantId => idKey [("tournament_id", p.1), ("participant_id", participantId)]

/-- The keys by which the deletes at the end of a build reach a table. -/
def deleteKeys (g : Grouped) (covered : List (Option Cell)) : ReadTable → List (Key String Cell)
  | .tournamentVenues => venueKeys g
  | .matchUps => drawKeys g ++ matchUpKeys g covered ++ eventKeys g
  | .seeds => drawKeys g ++ eventKeys g
  | .draws => drawKeys g ++ eventKeys g
  | .events => eventKeys g
  | .entries => eventKeys g ++ participantKeys g
  | _ => []

/-- The deletes of one kind reach one table. -/
theorem onTable_map_del {A : Type} (table target : ReadTable) (items : List A) (t : A → String)
    (key : A → List (String × String)) (topic : String) :
    onTable table (items.map fun item => del (t item) target (key item) topic) =
      if target = table then items.map fun item => .delete table (idKey (key item)) else [] := by
  split_ifs with h
  · subst h
    rw [onTable_eq_map, List.map_map]
    · rfl
    · intro d hd
      obtain ⟨item, -, rfl⟩ := List.mem_map.mp hd
      rfl
  · apply onTable_eq_nil
    intro d hd
    obtain ⟨item, -, rfl⟩ := List.mem_map.mp hd
    exact h

/-- The deletes of draws reach the matchUps, the seeds and the draws. -/
theorem onTable_deleteDrawDeltas (table : ReadTable) (t drawId : String) :
    onTable table (deleteDrawDeltas t drawId) =
      if table = .matchUps ∨ table = .seeds ∨ table = .draws then
        [.delete table (idKey [("tournament_id", t), ("draw_id", drawId)])] else [] := by
  cases table <;> rfl

/-- The deletes of events reach five tables. -/
theorem onTable_deleteEventDeltas (table : ReadTable) (t eventId : String) :
    onTable table (deleteEventDeltas t eventId) =
      if table = .events ∨ table = .matchUps ∨ table = .entries ∨ table = .seeds ∨
          table = .draws then
        [.delete table (idKey [("tournament_id", t), ("event_id", eventId)])] else [] := by
  cases table <;> rfl

theorem flatMap_nothing {A B : Type} (l : List A) : l.flatMap (fun _ => ([] : List B)) = [] :=
  List.flatMap_eq_nil_iff.mpr fun _ _ => rfl

/-- The last builder only deletes, by the keys of the table. -/
theorem onTable_deleteDeltas (g : Grouped) (covered : List (Option Cell)) (table : ReadTable) :
    onTable table (deleteDeltas g covered) =
      (deleteKeys g covered table).map fun key => .delete table key := by
  unfold deleteDeltas
  simp only [onTable_append, onTable_flatMap, onTable_map_del, onTable_deleteDrawDeltas,
    onTable_deleteEventDeltas]
  cases table <;>
    simp [deleteKeys, drawKeys, eventKeys, matchUpKeys, venueKeys, participantKeys,
      ← List.map_eq_flatMap, List.map_flatMap, Function.comp_def, flatMap_nothing]

/-- The rows of matchUps that the flattens of a build produce. -/
def flattenRows (model : ReadModel) (final : FinalState model) (g : Grouped) : List ReadRow :=
  g.flattenDraws.flatMap fun entry =>
    (flattenedMatchUps model final.records final.flattenDraw entry.2.1 entry.2.2).flatMap
      fun matchUp => (matchUpRows model final.records entry.2.1 matchUp).1

/-- The rows of competitors that the flattens of a build produce. -/
def competitorRows (model : ReadModel) (final : FinalState model) (g : Grouped) : List ReadRow :=
  g.flattenDraws.flatMap fun entry =>
    (flattenedMatchUps model final.records final.flattenDraw entry.2.1 entry.2.2).flatMap
      fun matchUp => (matchUpRows model final.records entry.2.1 matchUp).2

/-- The results that no flatten covers. -/
def keptResults (covered : List (Option Cell)) (results : List (String × (String × ResultMatchUp))) :
    List (String × (String × ResultMatchUp)) :=
  results.filter fun entry => some (Cell.text entry.1) ∉ covered

/-- The slim row of a result. -/
def resultRow (model : ReadModel) (records : Records) (entry : String × (String × ResultMatchUp)) :
    ReadRow :=
  model.matchUpResultRow entry.2.2 entry.2.1 (providerIdOf records entry.2.1)

/-- With one result for a matchUp, the results that are kept are those that no
flatten covers, and every result ends up covered. -/
theorem resultDeltas_eq {model : ReadModel} {records : Records} {covered : List (Option Cell)}
    {results : List (String × (String × ResultMatchUp))}
    (hid : ∀ entry ∈ results, entry.1 = entry.2.2.matchUpId)
    (hn : (results.map Prod.fst).Nodup) :
    resultDeltas model records covered results =
      ((keptResults covered results).map fun entry => upsert entry.2.1 .matchUps
          (keyOf (resultRow model records entry) ["match_up_id"]) (resultRow model records entry)
          "modifyMatchUp",
        covered ++ (keptResults covered results).map fun entry => some (.text entry.1)) := by
  induction results generalizing covered with
  | nil => simp [resultDeltas, keptResults]
  | cons entry rest ih =>
    obtain ⟨id, t, matchUp⟩ := entry
    obtain rfl : id = matchUp.matchUpId := hid _ List.mem_cons_self
    have hrow := (model.matchUpResultRow_keys matchUp t (providerIdOf records t)).1
    obtain ⟨hfresh, hrest⟩ := List.nodup_cons.mp hn
    have ih' := fun c => @ih c (fun e he => hid e (List.mem_cons_of_mem _ he)) hrest
    unfold resultDeltas
    by_cases hc : some (Cell.text matchUp.matchUpId) ∈ covered
    · have hkept : keptResults covered ((matchUp.matchUpId, t, matchUp) :: rest) =
          keptResults covered rest :=
        List.filter_cons_of_neg (by simpa using hc)
      rw [if_pos hc, ih', hkept]
    · have hsame : keptResults (covered ++ [some (.text matchUp.matchUpId)]) rest =
          keptResults covered rest := by
        apply List.filter_congr
        intro e he
        have hne : e.1 ≠ matchUp.matchUpId := by
          intro heq
          exact hfresh (List.mem_map.mpr ⟨e, he, heq⟩)
        simp [hne]
      have hkept : keptResults covered ((matchUp.matchUpId, t, matchUp) :: rest) =
          (matchUp.matchUpId, t, matchUp) :: keptResults covered rest :=
        List.filter_cons_of_pos (by simpa using hc)
      rw [if_neg hc, hkept]
      simp only [hrow, ih', hsame, List.map_cons, resultRow, List.append_assoc,
        List.singleton_append]

/-- Every id of a matchUp that was flattened or has a result ends up covered. -/
def coveredIds (model : ReadModel) (final : FinalState model) (g : Grouped) :
    List (Option Cell) :=
  (resultDeltas model final.records (flattenedIds model final.records final.flattenDraw g)
    g.matchUpResults).2

/-- The results of a build that no flatten covers. -/
def slimResults (model : ReadModel) (final : FinalState model) (g : Grouped) :
    List (String × (String × ResultMatchUp)) :=
  keptResults (flattenedIds model final.records final.flattenDraw g) g.matchUpResults

theorem flattenedIds_eq (model : ReadModel) (final : FinalState model) (g : Grouped) :
    flattenedIds model final.records final.flattenDraw g =
      (flattenRows model final g).map fun row => row "match_up_id" := by
  simp only [flattenedIds, flattenRows, List.map_flatMap]

section Build

variable (model : ReadModel) (final : FinalState model) (intents : List ProjectionIntent)

theorem group_results :
    (∀ entry ∈ (group intents final.records).matchUpResults, entry.1 = entry.2.2.matchUpId) ∧
      ((group intents final.records).matchUpResults.map Prod.fst).Nodup := by
  rw [group_eq]
  constructor
  · intro entry he
    obtain ⟨intent, -, hi⟩ := List.mem_flatMap.mp (mem_pairs_of_mem_mapOf he)
    cases intent <;> simp only [resultPairs, List.mem_singleton, List.not_mem_nil] at hi
    rw [hi]
  · exact nodup_mapOf _

/-- The results of a build, as the builder emits them. -/
theorem results_eq :
    resultDeltas model final.records
        (flattenedIds model final.records final.flattenDraw (group intents final.records))
        (group intents final.records).matchUpResults =
      ((slimResults model final (group intents final.records)).map fun entry =>
          upsert entry.2.1 .matchUps (keyOf (resultRow model final.records entry) ["match_up_id"])
            (resultRow model final.records entry) "modifyMatchUp",
        coveredIds model final (group intents final.records)) := by
  obtain ⟨hid, hn⟩ := group_results model final intents
  unfold coveredIds slimResults
  rw [resultDeltas_eq hid hn]

/-- A matchUp is covered when it was flattened or has a result. -/
theorem mem_coveredIds {id : String} :
    some (Cell.text id) ∈ coveredIds model final (group intents final.records) ↔
      (∃ row ∈ flattenRows model final (group intents final.records),
          row "match_up_id" = some (.text id)) ∨
        ∃ entry ∈ (group intents final.records).matchUpResults, entry.1 = id := by
  obtain ⟨hid, hn⟩ := group_results model final intents
  unfold coveredIds
  rw [resultDeltas_eq hid hn, flattenedIds_eq]
  simp only [List.mem_append, List.mem_map]
  constructor
  · rintro (⟨row, hrow, he⟩ | ⟨entry, he, heq⟩)
    · exact Or.inl ⟨row, hrow, he⟩
    · right
      refine ⟨entry, (List.mem_filter.mp he).1, ?_⟩
      simpa using heq
  · rintro (⟨row, hrow, he⟩ | ⟨entry, he, rfl⟩)
    · exact Or.inl ⟨row, hrow, he⟩
    · by_cases hc : some (Cell.text entry.1) ∈
          (flattenRows model final (group intents final.records)).map fun row => row "match_up_id"
      · obtain ⟨row, hrow, heq⟩ := List.mem_map.mp hc
        exact Or.inl ⟨row, hrow, heq⟩
      · exact Or.inr ⟨entry, List.mem_filter.mpr ⟨he, by simpa using hc⟩, rfl⟩

theorem onTable_flatten (table : ReadTable) (g : Grouped) :
    onTable table (flattenDrawDeltas model final.records final.flattenDraw g) =
      if table = .matchUps then (flattenRows model final g).map
        fun row => .upsert table (keyOf row ["match_up_id"]) row
      else if table = .matchUpCompetitors then (competitorRows model final g).map
        fun row => .upsert table (keyOf row ["match_up_id", "side_number", "competitor_index"]) row
      else [] := by
  have hrows : ∀ (target : ReadTable) (columns : List String) (t : String) (rows : List ReadRow),
      onTable table (rows.map fun row => upsert t target (keyOf row columns) row "flattenDraw") =
        if target = table then rows.map fun row => .upsert table (keyOf row columns) row
        else [] := by
    intro target columns t rows
    split_ifs with h
    · subst h
      rw [onTable_eq_map, List.map_map]
      · rfl
      · intro d hd
        obtain ⟨row, -, rfl⟩ := List.mem_map.mp hd
        rfl
    · apply onTable_eq_nil
      intro d hd
      obtain ⟨row, -, rfl⟩ := List.mem_map.mp hd
      exact h
  unfold flattenDrawDeltas flattenDrawDeltasOf flattenRows competitorRows
  simp only [onTable_flatMap, onTable_append, hrows]
  cases table <;> simp [List.map_flatMap, flatMap_nothing]

theorem onTable_results (table : ReadTable) :
    onTable table (resultDeltas model final.records
        (flattenedIds model final.records final.flattenDraw (group intents final.records))
        (group intents final.records).matchUpResults).1 =
      if .matchUps = table then
        ((slimResults model final (group intents final.records)).map
          (resultRow model final.records)).map
            fun row => .upsert table (keyOf row ["match_up_id"]) row
      else [] := by
  rw [onTable_of_table (serves_resultDeltas _ _), results_eq]
  split_ifs with h
  · subst h
    simp [upsert]
  · rfl

/-- Everything a build does to the matchUps. -/
theorem onTable_matchUps :
    onTable .matchUps (buildProjectionDeltas model final intents) =
      (flattenRows model final (group intents final.records)).map
          (fun row => Change.upsert .matchUps (keyOf row ["match_up_id"]) row) ++
        ((slimResults model final (group intents final.records)).map
            (resultRow model final.records)).map
          (fun row => Change.upsert .matchUps (keyOf row ["match_up_id"]) row) ++
        (deleteKeys (group intents final.records)
          (coveredIds model final (group intents final.records)) .matchUps).map
          (fun key => Change.delete .matchUps key) := by
  unfold buildProjectionDeltas
  simp only [onTable_append, onTable_deleteDeltas, onTable_flatten, onTable_results, single_tables,
    onTable_schedulingProfileDeltas, onTable_participantNameDeltas, onTable_drawDeltas_of_ne,
    onTable_venueDeltas_of_ne, onTable_claimDeltas_of_ne, if_true, reduceCtorEq, if_false,
    List.nil_append, List.append_nil, ne_eq, not_false_eq_true]
  rfl

theorem keepsKeys_flattenDrawDeltas (g : Grouped) :
    ∀ d ∈ flattenDrawDeltas model final.records final.flattenDraw g,
      KeepsKeys primaryKey d.change := by
  intro d hd
  obtain ⟨entry, -, hd⟩ := List.mem_flatMap.mp hd
  obtain ⟨matchUp, -, hd⟩ := List.mem_flatMap.mp hd
  rcases List.mem_append.mp hd with hd | hd
  · obtain ⟨row, -, rfl⟩ := List.mem_map.mp hd
    trivial
  · obtain ⟨row, -, rfl⟩ := List.mem_map.mp hd
    trivial

theorem keepsKeys_deleteDeltas (g : Grouped) (covered : List (Option Cell)) :
    ∀ d ∈ deleteDeltas g covered, KeepsKeys primaryKey d.change := by
  intro d hd
  have hmem : d.change ∈ onTable d.change.table (deleteDeltas g covered) :=
    List.mem_filter.mpr ⟨List.mem_map_of_mem hd, by simp⟩
  rw [onTable_deleteDeltas] at hmem
  obtain ⟨key, -, hkey⟩ := List.mem_map.mp hmem
  rw [← hkey]
  trivial

/-- No update of a build touches a primary key. -/
theorem keepsKeys_build : ∀ change ∈
    (buildProjectionDeltas model final intents).map ProjectionDelta.change,
      KeepsKeys primaryKey change := by
  intro change hc
  obtain ⟨d, hd, rfl⟩ := List.mem_map.mp hc
  unfold buildProjectionDeltas at hd
  simp only [List.mem_append] at hd
  rcases hd with (((((((((((((( hd | hd) | hd) | hd) | hd) | hd) | hd) | hd) | hd) | hd) | hd) |
    hd) | hd) | hd) | hd)
  · exact (serves_tournamentDeltas d hd).2
  · exact (serves_discoveryDeltas d hd).2
  · exact (serves_eventDeltas d hd).2
  · exact (serves_drawDeltas d hd).elim And.right And.right
  · exact (serves_seedDeltas d hd).2
  · exact (serves_orderOfPlayDeltas d hd).2
  · exact (serves_schedulingProfileDeltas d hd).2
  · exact (serves_participantPublishDeltas d hd).2
  · exact (serves_venueDeltas d hd).elim And.right fun h => h.elim And.right And.right
  · exact keepsKeys_flattenDrawDeltas model final _ d hd
  · exact (serves_resultDeltas _ _ d hd).2
  · exact (serves_entryDeltas d hd).2
  · exact (serves_claimDeltas d hd).elim And.right And.right
  · exact (serves_participantNameDeltas d hd).2
  · exact keepsKeys_deleteDeltas _ _ d hd

/-- What a build leaves in a slot, before the sweep, is decided by the
statements of its table. -/
theorem slot_build (state : ReadState) (table : ReadTable) (key : ReadRow) :
    slot (primaryKey table) (applyChanges primaryKey
        ((buildProjectionDeltas model final intents).map ProjectionDelta.change) state table) key =
      (onTable table (buildProjectionDeltas model final intents)).foldl
        (actSlot primaryKey table key) (slot (primaryKey table) (state table) key) := by
  rw [slot_applyChanges (keepsKeys_build model final intents), foldl_actSlot_filter]
  rfl

/-- Tables without a parent are not swept. -/
theorem project_of_no_cascade (state : ReadState) {table : ReadTable}
    (h : cascade table = none) :
    project model final intents state table =
      applyChanges primaryKey
        ((buildProjectionDeltas model final intents).map ProjectionDelta.change) state table := by
  unfold project applyDeltas sweep
  rw [h]

end Build

end FactoryServer.ProjectionLogs
