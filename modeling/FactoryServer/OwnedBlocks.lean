import FactoryServer.TableBlocks

/-!
# The tournament behind a build's statements

Where all intents are about one tournament, every row that the build upserts
outside the venues carries the tournament, and every statement that finds rows
by a key asks for the tournament.
-/

namespace FactoryServer.OwnedBlocks

open JsonValue TournamentAccess TournamentTree KeyedTables InsertionMaps ReadModelRows
open ProjectionDeltas IntentGroups ProjectionLogs RebuiltRows RebuildIntents TableBlocks RowOrigins

/-- Every group is about one tournament. -/
structure OwnedBy (t : String) (g : Grouped) : Prop where
  /-- Draws to flatten. -/
  flattenDraws : ∀ e ∈ g.flattenDraws, e.2.1 = t
  /-- Tournament rows. -/
  touched : ∀ e ∈ g.touched, e = t
  /-- Entry refreshes. -/
  participants : ∀ e ∈ g.participants, e = t
  /-- Event refreshes. -/
  events : ∀ e ∈ g.events, e = t
  /-- Draws to re-project. -/
  draws : ∀ e ∈ g.draws, e.2 = t
  /-- Structures whose seeds are refreshed. -/
  seeds : ∀ e ∈ g.seeds, e.2 = t
  /-- Orders of play. -/
  orderOfPlay : ∀ e ∈ g.orderOfPlay, e = t
  /-- Scheduling plans. -/
  schedulingProfiles : ∀ e ∈ g.schedulingProfiles, e.1 = t
  /-- Participant lists. -/
  participantPublish : ∀ e ∈ g.participantPublish, e = t
  /-- Scored matchUps. -/
  matchUpResults : ∀ e ∈ g.matchUpResults, e.2.1 = t
  /-- Venues. -/
  venues : ∀ e ∈ g.venues, e.2.1 = t
  /-- Deleted venue links. -/
  deleteVenues : ∀ e ∈ g.deleteVenues, e.1 = t
  /-- Deleted draws. -/
  deleteDraws : ∀ e ∈ g.deleteDraws, e.1 = t
  /-- Deleted matchUps. -/
  deleteMatchUps : ∀ e ∈ g.deleteMatchUps, e.2 = t
  /-- Deleted events. -/
  deleteEvents : ∀ e ∈ g.deleteEvents, e.2 = t
  /-- Deleted participants. -/
  deleteParticipants : ∀ e ∈ g.deleteParticipants, e.1 = t
  /-- Claims. -/
  claims : ∀ e ∈ g.claims, e.2.tournamentId = t
  /-- Names. -/
  participantNames : ∀ e ∈ g.participantNames, e.2.tournamentId = t

/-- Whatever an intent contributes is about its tournament. -/
theorem contributes_own (records : Records) (intent : ProjectionIntent) :
    (∀ e ∈ flattenPairs records intent, e.2.1 = intent.tournamentId) ∧
    (∀ e ∈ touches intent, e = intent.tournamentId) ∧
    (∀ e ∈ entryRefreshes intent, e = intent.tournamentId) ∧
    (∀ e ∈ eventRefreshes intent, e = intent.tournamentId) ∧
    (∀ e ∈ drawPairs intent, e.2 = intent.tournamentId) ∧
    (∀ e ∈ seedPairs intent, e.2 = intent.tournamentId) ∧
    (∀ e ∈ orderOfPlayRefreshes intent, e = intent.tournamentId) ∧
    (∀ e ∈ profilePairs intent, e.1 = intent.tournamentId) ∧
    (∀ e ∈ participantPublishRefreshes intent, e = intent.tournamentId) ∧
    (∀ e ∈ resultPairs intent, e.2.1 = intent.tournamentId) ∧
    (∀ e ∈ venuePairs intent, e.2.1 = intent.tournamentId) ∧
    (∀ e ∈ deletedVenues intent, e.1 = intent.tournamentId) ∧
    (∀ e ∈ deletedDraws intent, e.1 = intent.tournamentId) ∧
    (∀ e ∈ deletedMatchUps intent, e.2 = intent.tournamentId) ∧
    (∀ e ∈ deletedEvents intent, e.2 = intent.tournamentId) ∧
    (∀ e ∈ deletedParticipants intent, e.1 = intent.tournamentId) ∧
    (∀ e ∈ claimPairs intent, e.2.tournamentId = intent.tournamentId) ∧
    (∀ e ∈ namePairs intent, e.2.tournamentId = intent.tournamentId) := by
  cases intent <;>
    simp [flattenPairs, touches, entryRefreshes, eventRefreshes, drawPairs, seedPairs,
      orderOfPlayRefreshes, profilePairs, participantPublishRefreshes, resultPairs, venuePairs,
      deletedVenues, deletedDraws, deletedMatchUps, deletedEvents, deletedParticipants,
      claimPairs, namePairs, ProjectionIntent.tournamentId]

theorem group_owned {t : String} {intents : List ProjectionIntent}
    (h : ∀ intent ∈ intents, intent.tournamentId = t) (records : Records) :
    OwnedBy t (group intents records) := by
  rw [group_eq]
  have hlist : ∀ {A : Type} (f : ProjectionIntent → List A) (owner : A → String),
      (∀ intent, ∀ e ∈ f intent, owner e = intent.tournamentId) →
      ∀ e ∈ intents.flatMap f, owner e = t := by
    intro A f owner hf e he
    obtain ⟨intent, hintent, he⟩ := List.mem_flatMap.mp he
    rw [hf intent e he, h intent hintent]
  have hmap : ∀ {A : Type} (f : ProjectionIntent → List (String × A)) (owner : String × A → String),
      (∀ intent, ∀ e ∈ f intent, owner e = intent.tournamentId) →
      ∀ e ∈ mapOf (intents.flatMap f), owner e = t := by
    intro A f owner hf e he
    exact hlist f owner hf e (mem_pairs_of_mem_mapOf he)
  have hset : ∀ f : ProjectionIntent → List String,
      (∀ intent, ∀ e ∈ f intent, e = intent.tournamentId) →
      ∀ e ∈ setOf (intents.flatMap f), e = t := by
    intro f hf e he
    exact hlist f (fun e => e) hf e (mem_setOf.mp he)
  have hown := contributes_own records
  simp only [forall_and] at hown
  obtain ⟨hflattens, htouches, hparticipants, hevents, hdraws, hseeds, horders, hprofiles,
    hlists, hresults, hvenues, hgoneVenues, hgoneDraws, hgoneMatchUps, hgoneEvents,
    hgoneParticipants, hclaims, hnames⟩ := hown
  constructor
  case flattenDraws => exact hmap (flattenPairs records) (fun e => e.2.1) hflattens
  case touched => exact hset touches htouches
  case participants => exact hset entryRefreshes hparticipants
  case events => exact hset eventRefreshes hevents
  case draws => exact hmap drawPairs (fun e => e.2) hdraws
  case seeds => exact hmap seedPairs (fun e => e.2) hseeds
  case orderOfPlay => exact hset orderOfPlayRefreshes horders
  case schedulingProfiles => exact hmap profilePairs (fun e => e.1) hprofiles
  case participantPublish => exact hset participantPublishRefreshes hlists
  case matchUpResults => exact hmap resultPairs (fun e => e.2.1) hresults
  case venues => exact hmap venuePairs (fun e => e.2.1) hvenues
  case deleteVenues => exact hlist deletedVenues (fun e => e.1) hgoneVenues
  case deleteDraws => exact hlist deletedDraws (fun e => e.1) hgoneDraws
  case deleteMatchUps => exact hmap deletedMatchUps (fun e => e.2) hgoneMatchUps
  case deleteEvents => exact hmap deletedEvents (fun e => e.2) hgoneEvents
  case deleteParticipants => exact hlist deletedParticipants (fun e => e.1) hgoneParticipants
  case claims => exact hmap claimPairs (fun e => e.2.tournamentId) hclaims
  case participantNames => exact hmap namePairs (fun e => e.2.tournamentId) hnames

/-- A statement asks for the tournament. -/
def AsksFor (t : String) (key : Key String Cell) : Prop := ("tournament_id", some (.text t)) ∈ key

theorem asksFor_idKey (t : String) (rest : List (String × String)) :
    AsksFor t (idKey (("tournament_id", t) :: rest)) := List.mem_cons_self

/-- A row that matches a key of the tournament carries it. -/
theorem carries_of_matches {t : String} {key : Key String Cell} {row : ReadRow}
    (h : AsksFor t key) (hmatch : matchesKey row key = true) :
    row "tournament_id" = some (.text t) :=
  matchesKey_iff.mp hmatch _ h

section Blocks

variable {factory : CompetitionFactory} {final : FinalState factory.toReadModel} {t : String}
  {g : Grouped}

theorem discovered_owned (h : OwnedBy t g) : ∀ e ∈ discovered g, e = t := by
  intro e he
  unfold discovered at he
  simp only [mem_setOf, List.mem_append, List.mem_map] at he
  rcases he with ((((((((((((((((( he | he) | he) | he) | he) | he) | he) | he) | he) | he) | he) |
    he) | he) | he) | he) | he) | he) | he)
  · exact h.touched e he
  · exact h.participants e he
  · exact h.events e he
  · exact h.orderOfPlay e he
  · exact h.participantPublish e he
  · obtain ⟨x, hx, rfl⟩ := he
    exact h.draws x hx
  · obtain ⟨x, hx, rfl⟩ := he
    exact h.seeds x hx
  · obtain ⟨x, hx, rfl⟩ := he
    exact h.deleteMatchUps x hx
  · obtain ⟨x, hx, rfl⟩ := he
    exact h.deleteEvents x hx
  · obtain ⟨x, hx, rfl⟩ := he
    exact h.schedulingProfiles x hx
  · obtain ⟨x, hx, rfl⟩ := he
    exact h.flattenDraws x hx
  · obtain ⟨x, hx, rfl⟩ := he
    exact h.matchUpResults x hx
  · obtain ⟨x, hx, rfl⟩ := he
    exact h.venues x hx
  · obtain ⟨x, hx, rfl⟩ := he
    exact h.claims x hx
  · obtain ⟨x, hx, rfl⟩ := he
    exact h.participantNames x hx
  · obtain ⟨x, hx, rfl⟩ := he
    exact h.deleteVenues x hx
  · obtain ⟨x, hx, rfl⟩ := he
    exact h.deleteDraws x hx
  · obtain ⟨x, hx, rfl⟩ := he
    exact h.deleteParticipants x hx

/-- A row of the final record of a tournament carries it. -/
theorem recordRow_owned {row : ReadRow} {items : List String} {build : RecordTree → ReadRow}
    (hitems : ∀ e ∈ items, e = t)
    (hbuild : ∀ record, build record "tournament_id" = some (.text record.tournamentId))
    (hrow : row ∈ items.filterMap fun e => (final.records e).map build) :
    row "tournament_id" = some (.text t) := by
  obtain ⟨e, he, hrow⟩ := List.mem_filterMap.mp hrow
  obtain ⟨record, hrecord, rfl⟩ := Option.map_eq_some_iff.mp hrow
  rw [hbuild, final.own e record hrecord, hitems e he]

/-- What a block deletes and upserts, outside the venues, is of the tournament. -/
def OwnedBlock (t : String) (table : ReadTable) (block : Block) : Prop :=
  (∀ key ∈ block.keys, AsksFor t key) ∧
    (table ≠ .venues → ∀ row ∈ block.rows, row "tournament_id" = some (.text t))

theorem owned_upserts {table : ReadTable} {rows : List ReadRow}
    (h : ∀ row ∈ rows, row "tournament_id" = some (.text t)) :
    OwnedBlock t table (upserts rows) :=
  ⟨nofun, fun _ => h⟩

theorem owned_refresh {table : ReadTable} {rows : List ReadRow} (rest : List (String × String))
    (h : ∀ row ∈ rows, row "tournament_id" = some (.text t)) :
    OwnedBlock t table ⟨[idKey (("tournament_id", t) :: rest)], rows⟩ := by
  refine ⟨fun key hkey => ?_, fun _ => h⟩
  rw [List.mem_singleton.mp hkey]
  exact asksFor_idKey t rest

theorem owned_structureBlock {drawId : String} {block : Block}
    (h : structureBlock factory.toReadModel final.records drawId t = some block) :
    OwnedBlock t .structures block := by
  obtain ⟨found, -, rfl⟩ := Option.map_eq_some_iff.mp h
  exact owned_refresh _ fun row hrow => (rowsOfAll_cells _ _ row hrow).2.2

theorem owned_seedBlock {structureId : String} {block : Block}
    (h : seedBlock factory.toReadModel final.records structureId t = some block) :
    OwnedBlock t .seeds block := by
  obtain ⟨found, -, rfl⟩ := Option.map_eq_some_iff.mp h
  apply owned_refresh
  intro row hrow
  obtain ⟨ctx, seed, rfl, -, ht⟩ := seedRowsOf_row _ hrow
  rw [(factory.seedRow_keys seed ctx).2.2.2.2, ht]

theorem owned_entryBlock : OwnedBlock t .entries
    (entryBlock factory.toReadModel final.records t) := by
  apply owned_refresh
  intro row hrow
  cases hrecord : final.records t with
  | none =>
    rw [hrecord, factory.entryRows_none] at hrow
    cases hrow
  | some record =>
    rw [hrecord] at hrow
    rw [(factory.entryRow_keys record row hrow).1, final.own t record hrecord]

theorem owned_courtBlock (venue : Venue) : OwnedBlock t .courts
    (courtBlock factory.toReadModel final.records t venue) := by
  apply owned_refresh
  intro row hrow
  obtain ⟨court, -, hrow⟩ := List.mem_filterMap.mp hrow
  obtain ⟨id, -, rfl⟩ := Option.map_eq_some_iff.mp hrow
  exact (factory.courtRow_keys _ _).2.2

theorem owned_orderOfPlayBlock {block : Block}
    (h : orderOfPlayBlock factory.toReadModel final.records t = some block) :
    OwnedBlock t .orderOfPlay block := by
  obtain ⟨record, -, rfl⟩ := Option.map_eq_some_iff.mp h
  dsimp only
  split_ifs
  · apply owned_upserts
    intro row hrow
    rw [List.mem_singleton.mp hrow, factory.orderOfPlayRow_keys]
  · exact owned_refresh [] nofun

theorem owned_participantPublishBlock {block : Block}
    (h : participantPublishBlock factory.toReadModel final.records t = some block) :
    OwnedBlock t .participantPublish block := by
  obtain ⟨record, -, rfl⟩ := Option.map_eq_some_iff.mp h
  dsimp only
  split_ifs
  · apply owned_upserts
    intro row hrow
    rw [List.mem_singleton.mp hrow, factory.participantPublishRow_keys]
  · exact owned_refresh [] nofun

theorem owned_matchUpRows (h : OwnedBy t g) {row : ReadRow}
    (hrow : row ∈ flattenRows factory.toReadModel final g ++
      (slimResults factory.toReadModel final g).map
        (resultRow factory.toReadModel final.records)) :
    row "tournament_id" = some (.text t) := by
  rcases List.mem_append.mp hrow with hrow | hrow
  · obtain ⟨e, he, hrow⟩ := List.mem_flatMap.mp hrow
    obtain ⟨matchUp, -, hrow⟩ := List.mem_flatMap.mp hrow
    have hctx : row "tournament_id" = some (.text e.2.1) :=
      (factory.matchUpRow_keys _ _ row hrow).2
    rw [hctx, h.flattenDraws e he]
  · obtain ⟨e, he, rfl⟩ := List.mem_map.mp hrow
    have hkept : e ∈ g.matchUpResults := (List.mem_filter.mp he).1
    rw [resultRow, (factory.matchUpResultRow_keys _ _ _).2, h.matchUpResults e hkept]

theorem owned_competitorRows (h : OwnedBy t g) {row : ReadRow}
    (hrow : row ∈ competitorRows factory.toReadModel final g) :
    row "tournament_id" = some (.text t) := by
  obtain ⟨e, he, hrow⟩ := List.mem_flatMap.mp hrow
  obtain ⟨matchUp, -, hrow⟩ := List.mem_flatMap.mp hrow
  have hctx : row "tournament_id" = some (.text e.2.1) :=
    (factory.competitorRow_keys _ _ row hrow).2.2.2
  rw [hctx, h.flattenDraws e he]

theorem owned_eventRows (h : OwnedBy t g) {row : ReadRow}
    (hrow : row ∈ g.events.flatMap (eventRowsOf factory.toReadModel final.records)) :
    row "tournament_id" = some (.text t) := by
  obtain ⟨e, he, hrow⟩ := List.mem_flatMap.mp hrow
  obtain ⟨event, -, hrow⟩ := List.mem_filterMap.mp hrow
  obtain ⟨id, -, rfl⟩ := Option.map_eq_some_iff.mp hrow
  rw [(factory.eventRow_keys _ _ _ _).2, h.events e he]

theorem blocks_owned (h : OwnedBy t g) {table : ReadTable} {block : Block}
    (hblock : block ∈ blocks factory.toReadModel final g table) : OwnedBlock t table block := by
  cases table <;> simp only [blocks, List.mem_singleton, List.mem_map, List.mem_filterMap] at hblock
  case tournaments =>
    rw [hblock]
    exact owned_upserts fun row => recordRow_owned h.touched factory.tournamentRow_keys
  case tournamentDiscovery =>
    rw [hblock]
    exact owned_upserts fun row =>
      recordRow_owned (discovered_owned h) factory.tournamentDiscoveryRow_keys
  case events =>
    rw [hblock]
    exact owned_upserts fun row => owned_eventRows h
  case draws =>
    rw [hblock]
    apply owned_upserts
    intro row hrow
    obtain ⟨e, he, hrow⟩ := List.mem_filterMap.mp hrow
    rw [(drawRowOf_drawId _ hrow).2, h.draws e he]
  case structures =>
    obtain ⟨e, he, hblock⟩ := hblock
    exact owned_structureBlock (h.draws e he ▸ hblock)
  case seeds =>
    obtain ⟨e, he, hblock⟩ := hblock
    exact owned_seedBlock (h.seeds e he ▸ hblock)
  case matchUps =>
    rw [hblock]
    exact owned_upserts fun row => owned_matchUpRows h
  case matchUpCompetitors =>
    rw [hblock]
    exact owned_upserts fun row => owned_competitorRows h
  case entries =>
    obtain ⟨e, he, rfl⟩ := hblock
    rw [h.participants e he]
    exact owned_entryBlock
  case venues =>
    rw [hblock]
    exact ⟨fun key hkey => absurd hkey List.not_mem_nil, fun hne => absurd rfl hne⟩
  case courts =>
    obtain ⟨e, he, rfl⟩ := hblock
    rw [h.venues e he]
    exact owned_courtBlock e.2.2
  case tournamentVenues =>
    rw [hblock]
    apply owned_upserts
    intro row hrow
    obtain ⟨e, he, rfl⟩ := List.mem_map.mp hrow
    rw [linkRow, if_pos rfl, h.venues e he]
  case orderOfPlay =>
    obtain ⟨e, he, hblock⟩ := hblock
    exact owned_orderOfPlayBlock (h.orderOfPlay e he ▸ hblock)
  case schedulingProfile =>
    obtain ⟨e, he, rfl⟩ := hblock
    rw [h.schedulingProfiles e he]
    exact owned_refresh [] (factory.schedulingProfileRow_keys t e.2)
  case participantPublish =>
    obtain ⟨e, he, hblock⟩ := hblock
    exact owned_participantPublishBlock (h.participantPublish e he ▸ hblock)

/-- The edits ask for the tournament. -/
theorem edits_owned (h : OwnedBy t g) {table : ReadTable} {change : ReadChange}
    (hchange : change ∈ edits g table) :
    ∃ key row, change = .update table key row ∧ AsksFor t key := by
  rcases List.mem_append.mp hchange with hchange | hchange
  · obtain ⟨hmem, ht⟩ := List.mem_filter.mp hchange
    obtain ⟨d, hd, rfl⟩ := List.mem_map.mp hmem
    obtain ⟨entry, hentry, hd⟩ := List.mem_flatMap.mp hd
    obtain rfl := h.claims entry hentry
    simp only [List.mem_cons, List.not_mem_nil, or_false] at hd
    rcases hd with rfl | rfl
    · obtain rfl : ReadTable.matchUpCompetitors = table := of_decide_eq_true ht
      exact ⟨_, _, rfl, List.mem_cons_self⟩
    · obtain rfl : ReadTable.entries = table := of_decide_eq_true ht
      exact ⟨_, _, rfl, List.mem_cons_self⟩
  · obtain ⟨hmem, ht⟩ := List.mem_filter.mp hchange
    obtain ⟨d, hd, rfl⟩ := List.mem_map.mp hmem
    obtain ⟨entry, hentry, hd⟩ := List.mem_flatMap.mp hd
    obtain rfl := h.participantNames entry hentry
    simp only [List.mem_cons, List.not_mem_nil, or_false] at hd
    rcases hd with rfl | rfl
    · obtain rfl : ReadTable.matchUpCompetitors = table := of_decide_eq_true ht
      exact ⟨_, _, rfl, List.mem_cons_self⟩
    · obtain rfl : ReadTable.matchUpCompetitors = table := of_decide_eq_true ht
      exact ⟨_, _, rfl, List.mem_cons_self⟩

/-- The last deletes ask for the tournament. -/
theorem deleteKeys_owned (h : OwnedBy t g) {covered : List (Option Cell)} {table : ReadTable}
    {key : Key String Cell} (hkey : key ∈ deleteKeys g covered table) : AsksFor t key := by
  have hdraws : key ∈ drawKeys g → AsksFor t key := by
    intro hmem
    obtain ⟨e, he, rfl⟩ := List.mem_map.mp hmem
    rw [← h.deleteDraws e he]
    exact asksFor_idKey _ _
  have hevents : key ∈ eventKeys g → AsksFor t key := by
    intro hmem
    obtain ⟨e, he, rfl⟩ := List.mem_map.mp hmem
    rw [← h.deleteEvents e he]
    exact asksFor_idKey _ _
  have hmatchUps : key ∈ matchUpKeys g covered → AsksFor t key := by
    intro hmem
    obtain ⟨e, he, rfl⟩ := List.mem_map.mp hmem
    rw [← h.deleteMatchUps e (List.mem_filter.mp he).1]
    exact asksFor_idKey _ _
  have hvenues : key ∈ venueKeys g → AsksFor t key := by
    intro hmem
    obtain ⟨e, he, rfl⟩ := List.mem_map.mp hmem
    rw [← h.deleteVenues e he]
    exact asksFor_idKey _ _
  have hparticipants : key ∈ participantKeys g → AsksFor t key := by
    intro hmem
    obtain ⟨e, he, hmem⟩ := List.mem_flatMap.mp hmem
    obtain ⟨participantId, -, rfl⟩ := List.mem_map.mp hmem
    rw [← h.deleteParticipants e he]
    exact asksFor_idKey _ _
  cases table <;> simp only [deleteKeys, List.mem_append, List.not_mem_nil] at hkey
  case tournamentVenues => exact hvenues hkey
  case matchUps => exact hkey.elim (fun hk => hk.elim hdraws hmatchUps) hevents
  case seeds | draws => exact hkey.elim hdraws hevents
  case events => exact hevents hkey
  case entries => exact hkey.elim hevents hparticipants

end Blocks

end FactoryServer.OwnedBlocks
