import FactoryServer.RowFrames
import FactoryServer.SnapshotSpans

/-!
# Projecting one tournament beside another

Rows of courts, draws, structures, matchUps, competitors, entries, seeds and
venue links belong to one tournament each, but most of their primary keys do not
contain it. This module says exactly when what is projected for one tournament
leaves the rows of another alone.
-/

namespace FactoryServer.TournamentFrames

open JsonValue TournamentAccess TournamentTree KeyedTables InsertionMaps ReadModelRows
open ProjectionDeltas IntentGroups ProjectionLogs RebuiltRows RebuildIntents TableBlocks
open OwnedBlocks RowOrigins RefreshedSlots RowFrames RebuildLogs SnapshotSpans

/-- The tables whose rows belong to one tournament. -/
def tournamentTables : List ReadTable :=
  [.courts, .tournamentVenues, .matchUps, .matchUpCompetitors, .entries, .seeds, .draws,
    .structures]

/-- The row belongs to the tournament. -/
def ofTournament (t : String) (row : ReadRow) : Bool := row "tournament_id" == some (.text t)

/-- What is projected for one tournament alone. -/
inductive Span (factory : CompetitionFactory) (t : String) where
  /-- The deltas of a mutation whose intents are about the tournament. -/
  | incremental (final : FinalState factory.toReadModel) (intents : List ProjectionIntent)
      (own : ∀ intent ∈ intents, intent.tournamentId = t)
  /-- A snapshot of the tournament's record. -/
  | snapshot (record : RecordTree) (snapshotId source : String) (own : record.tournamentId = t)
      (named : t ≠ "")

/-- The rebuild of a record. -/
def Span.rebuild (factory : CompetitionFactory) (record : RecordTree) :
    Span factory record.tournamentId :=
  .incremental (rebuildFinal factory record) (buildRebuildIntents factory record)
    fun _ => rebuild_tournament

section Spans

variable {factory : CompetitionFactory} {t : String}

/-- The consumer applies a span. -/
def Span.applied : Span factory t → ReadState → ReadState
  | .incremental final intents _, state => applyDeltas (changesOf factory final intents) state
  | .snapshot record snapshotId source _ _, state =>
    applySpan (buildSnapshotDeltas factory record snapshotId source) state

/-- The span leaves every row of another tournament as it is. -/
def LeavesAlone (span : Span factory t) (state : ReadState) (other : String) : Prop :=
  ∀ table ∈ tournamentTables, (span.applied state table).filter (ofTournament other) =
    (state table).filter (ofTournament other)

/-- The rows that a span writes into a table. -/
def Span.Writes (span : Span factory t) (table : ReadTable) (row : ReadRow) : Prop :=
  match span with
  | .incremental final intents _ =>
    ∃ block ∈ blocks factory.toReadModel final (group intents final.records) table,
      row ∈ block.rows
  | .snapshot record _ _ _ _ => ∃ block ∈ rebuildBlocks factory record table, row ∈ block.rows

/-- The row that a child hangs under is still there: with what a mutation writes
into it, it matches no key by which the mutation deletes; a snapshot purges the
tournament's own rows. -/
def Span.KeepsParent (span : Span factory t) (state : ReadState) (parent : ReadTable)
    (row : ReadRow) : Prop :=
  match span with
  | .incremental final intents _ =>
    ∃ p ∈ putAll (written (primaryKey parent) row
        (blocks factory.toReadModel final (group intents final.records) parent))
        (slot (primaryKey parent) (state parent) row),
      ∀ key ∈ deleteKeys (group intents final.records)
        (coveredIds factory.toReadModel final (group intents final.records)) parent,
        matchesKey p key = false
  | .snapshot _ _ _ _ _ => ∃ p ∈ state parent, agree (primaryKey parent) p row = true ∧
      (parent ∈ SNAPSHOT_OWNED_TABLES → ofTournament t p = false)

/-- No row of the other tournament has the primary key of a row that the span
writes, and none loses the row that it hangs under. -/
def Clear (span : Span factory t) (state : ReadState) (other : String) : Prop :=
  ∀ table ∈ tournamentTables, ∀ row ∈ state table, ofTournament other row = true →
    (∀ new, span.Writes table new → agree (primaryKey table) row new = false) ∧
      ∀ parent column, cascade table = some (parent, column) →
        (row column).all Cell.isNull = true ∨ span.KeepsParent state parent row

end Spans

section Frames

variable {factory : CompetitionFactory} {t other : String}

/-- A row that carries one tournament is not of another. -/
theorem ofTournament_merge {new : ReadRow} (hne : t ≠ other)
    (h : new "tournament_id" = some (.text t)) (old : ReadRow) :
    ofTournament other (merge old new) = false := by
  have hcell : merge old new "tournament_id" = some (.text t) := by
    simp [merge, h]
  unfold ofTournament
  rw [hcell]
  simpa using hne

/-- A key of one tournament matches no row of another. -/
theorem not_matches_other {key : Key String Cell} (hne : t ≠ other) (h : AsksFor t key)
    {row : ReadRow} (hrow : ofTournament other row = true) : matchesKey row key = false := by
  rw [Bool.eq_false_iff]
  intro hmatch
  have hcarries := carries_of_matches h hmatch
  unfold ofTournament at hrow
  rw [hcarries] at hrow
  exact hne (by simpa using hrow)

/-- The statements of one tournament's mutation have no business with another's rows. -/
theorem build_frames {final : FinalState factory.toReadModel} {intents : List ProjectionIntent}
    (hown : ∀ intent ∈ intents, intent.tournamentId = t) (hne : t ≠ other) {table : ReadTable}
    (hv : table ≠ .venues) :
    Frames table (changesOf factory final intents) (ofTournament other) := by
  have hg := group_owned hown final.records
  have hmem : ∀ change, change ∈ changesOf factory final intents → change.table = table →
      change ∈ (blocks factory.toReadModel final (group intents final.records) table).flatMap
          (Block.log table) ∨
        change ∈ edits (group intents final.records) table ∨
        change ∈ dropKeys table (deleteKeys (group intents final.records)
          (coveredIds factory.toReadModel final (group intents final.records)) table) := by
    intro change hchange htable
    have hlog := mem_onTable hchange htable
    rw [onTable_build, List.mem_append, List.mem_append] at hlog
    exact or_assoc.mp hlog
  constructor
  · intro key row hrow
    obtain ⟨block, hblock, hmemrow⟩ := (upserts_iff factory final intents).mp ⟨key, hrow⟩
    exact ofTournament_merge hne ((blocks_owned hg hblock).2 hv row hmemrow)
  · intro key row hrow old hold
    rcases hmem _ hrow rfl with hlog | hlog | hlog
    · obtain ⟨block, -, hlog⟩ := List.mem_flatMap.mp hlog
      rcases List.mem_append.mp hlog with hlog | hlog
      · obtain ⟨k, -, he⟩ := List.mem_map.mp hlog
        cases he
      · obtain ⟨r, -, he⟩ := List.mem_map.mp hlog
        cases he
    · obtain ⟨k, r, he, hasks⟩ := edits_owned hg hlog
      simp only [Change.update.injEq] at he
      obtain ⟨-, rfl, -⟩ := he
      exact not_matches_other hne hasks hold
    · obtain ⟨k, -, he⟩ := List.mem_map.mp hlog
      cases he
  · intro key row hrow old hold
    rcases hmem _ hrow rfl with hlog | hlog | hlog
    · obtain ⟨block, -, hlog⟩ := List.mem_flatMap.mp hlog
      rcases List.mem_append.mp hlog with hlog | hlog
      · obtain ⟨k, -, he⟩ := List.mem_map.mp hlog
        cases he
      · obtain ⟨r, -, he⟩ := List.mem_map.mp hlog
        cases he
    · obtain ⟨k, r, he, -, hnone⟩ := edits_updates hlog
      simp only [Change.update.injEq] at he
      obtain ⟨-, -, rfl⟩ := he
      have hcell : merge old row "tournament_id" = old "tournament_id" := by
        simp [merge, hnone "tournament_id" (by simp)]
      unfold ofTournament
      rw [hcell]
      exact hold
    · obtain ⟨k, -, he⟩ := List.mem_map.mp hlog
      cases he
  · intro key hrow old hold
    rcases hmem _ hrow rfl with hlog | hlog | hlog
    · obtain ⟨block, hblock, hlog⟩ := List.mem_flatMap.mp hlog
      rcases List.mem_append.mp hlog with hlog | hlog
      · obtain ⟨k, hk, he⟩ := List.mem_map.mp hlog
        simp only [Change.delete.injEq, true_and] at he
        obtain rfl := he
        exact not_matches_other hne ((blocks_owned hg hblock).1 k hk) hold
      · obtain ⟨r, -, he⟩ := List.mem_map.mp hlog
        cases he
    · obtain ⟨k, r, he, -⟩ := edits_owned hg hlog
      cases he
    · obtain ⟨k, hk, he⟩ := List.mem_map.mp hlog
      simp only [Change.delete.injEq, true_and] at he
      obtain rfl := he
      exact not_matches_other hne (deleteKeys_owned hg hk) hold

/-- What a mutation leaves of a parent slot. -/
theorem slot_parent (final : FinalState factory.toReadModel) (intents : List ProjectionIntent)
    (state : ReadState) {table parent : ReadTable} {column : String}
    (hc : cascade table = some (parent, column)) (row : ReadRow) :
    slot (primaryKey parent) (applyChanges primaryKey (changesOf factory final intents) state
        parent) row =
      (putAll (written (primaryKey parent) row
        (blocks factory.toReadModel final (group intents final.records) parent))
        (slot (primaryKey parent) (state parent) row)).filter fun p =>
          (deleteKeys (group intents final.records)
            (coveredIds factory.toReadModel final (group intents final.records)) parent).all
              fun key => !matchesKey p key := by
  have hlog : (changesOf factory final intents).filter (fun change => change.table = parent) =
      onTable parent (buildProjectionDeltas factory.toReadModel final intents) := rfl
  have hkeeps : ∀ change ∈ changesOf factory final intents, KeepsKeys primaryKey change :=
    keepsKeys_build factory.toReadModel final intents
  have hblocks : ∃ rows, blocks factory.toReadModel final (group intents final.records) parent =
      [upserts rows] := by
    cases table <;> simp only [cascade, reduceCtorEq, Option.some.injEq, Prod.mk.injEq] at hc
    all_goals
      obtain ⟨rfl, -⟩ := hc
      exact ⟨_, rfl⟩
  have hedits : edits (group intents final.records) parent = [] := by
    rw [List.eq_nil_iff_forall_not_mem]
    intro change hchange
    obtain ⟨-, -, -, htable, -⟩ := edits_updates hchange
    have hnot := (cascade_parent hc).2
    rcases htable with rfl | rfl
    · cases hnot
    · cases table <;> cases hc
  obtain ⟨rows, hblocks⟩ := hblocks
  rw [slot_applyChanges hkeeps, foldl_actSlot_filter, hlog, onTable_build, hedits, hblocks,
    List.append_nil, List.flatMap_singleton, log_upserts, List.foldl_append]
  unfold putRows dropKeys
  rw [foldl_actSlot_upserts, foldl_actSlot_deletes]
  simp [written, news, upserts]

/-- A child row has its parent after a mutation exactly when the mutation keeps it. -/
theorem parented_build (final : FinalState factory.toReadModel)
    (intents : List ProjectionIntent) (own : ∀ intent ∈ intents, intent.tournamentId = t)
    (state : ReadState) (table : ReadTable) (row : ReadRow) :
    parented cascade Cell.isNull
        (applyChanges primaryKey (changesOf factory final intents) state) table row = true ↔
      ∀ parent column, cascade table = some (parent, column) →
        (row column).all Cell.isNull = true ∨
          (Span.incremental final intents own).KeepsParent state parent row := by
  unfold parented
  cases hc : cascade table with
  | none =>
    constructor
    · intro _ parent column h
      cases h
    · exact fun _ => rfl
  | some link =>
    obtain ⟨parent, column⟩ := link
    have hpk := (cascade_parent hc).1
    have hany : ((applyChanges primaryKey (changesOf factory final intents) state parent).any
        fun p => p column == row column) = true ↔
        (Span.incremental final intents own).KeepsParent state parent row := by
      have hslot := slot_parent final intents state hc row
      unfold Span.KeepsParent
      rw [List.any_eq_true]
      constructor
      · rintro ⟨p, hp, hsame⟩
        have hmem : p ∈ slot (primaryKey parent) (applyChanges primaryKey
            (changesOf factory final intents) state parent) row := by
          rw [slot, List.mem_filter]
          exact ⟨hp, by simpa [agree, hpk] using hsame⟩
        rw [hslot, List.mem_filter, List.all_eq_true] at hmem
        exact ⟨p, hmem.1, fun key hkey => by simpa using hmem.2 key hkey⟩
      · rintro ⟨p, hp, hkeys⟩
        have hmem : p ∈ slot (primaryKey parent) (applyChanges primaryKey
            (changesOf factory final intents) state parent) row := by
          rw [hslot, List.mem_filter, List.all_eq_true]
          exact ⟨hp, fun key hkey => by simp [hkeys key hkey]⟩
        obtain ⟨hfound, hsame⟩ := List.mem_filter.mp hmem
        exact ⟨p, hfound, by simpa [agree, hpk] using hsame⟩
    dsimp only
    rw [Bool.or_eq_true, hany]
    constructor
    · intro h parent' column' he
      simp only [Option.some.injEq, Prod.mk.injEq] at he
      obtain ⟨rfl, rfl⟩ := he
      exact h
    · exact fun h => h parent column rfl

theorem tournamentTables_ne {table : ReadTable} (h : table ∈ tournamentTables) :
    table ≠ .venues := by
  rintro rfl
  revert h
  decide

/-- The condition on one table, as a filter. -/
theorem filter_eq_iff {rows : List ReadRow} {keep untouched parented : ReadRow → Bool}
    {P Q : ReadRow → Prop} (hp : ∀ row, untouched row = true ↔ P row)
    (hq : ∀ row, parented row = true ↔ Q row) :
    (((rows.filter keep).filter untouched).filter parented) = rows.filter keep ↔
      ∀ row ∈ rows, keep row = true → P row ∧ Q row := by
  rw [List.filter_filter, List.filter_eq_self]
  constructor
  · intro h row hrow hkeep
    have hboth := h row (List.mem_filter.mpr ⟨hrow, hkeep⟩)
    rw [Bool.and_eq_true] at hboth
    exact ⟨(hp row).mp hboth.2, (hq row).mp hboth.1⟩
  · intro h row hrow
    obtain ⟨hmem, hkeep⟩ := List.mem_filter.mp hrow
    obtain ⟨hone, htwo⟩ := h row hmem hkeep
    rw [Bool.and_eq_true]
    exact ⟨(hq row).mpr htwo, (hp row).mpr hone⟩

theorem filter_swap (rows : List ReadRow) (p q : ReadRow → Bool) :
    (rows.filter p).filter q = (rows.filter q).filter p := by
  rw [List.filter_filter, List.filter_filter]
  apply List.filter_congr
  intro row _
  exact Bool.and_comm _ _

/-- A mutation leaves the rows of another tournament that it neither overwrites
nor orphans. -/
theorem filter_incremental (final : FinalState factory.toReadModel)
    (intents : List ProjectionIntent) (own : ∀ intent ∈ intents, intent.tournamentId = t)
    (hne : t ≠ other) (state : ReadState) {table : ReadTable} (ht : table ∈ tournamentTables) :
    ((Span.incremental final intents own).applied state table).filter (ofTournament other) =
      (((state table).filter (ofTournament other)).filter
        (untouched (primaryKey table) table (changesOf factory final intents))).filter
          (parented cascade Cell.isNull
            (applyChanges primaryKey (changesOf factory final intents) state) table) := by
  have hframes : Frames table (changesOf factory final intents) (ofTournament other) :=
    build_frames own hne (tournamentTables_ne ht)
  have hlog := filter_foldl_act primaryKey hframes (state table)
  simp only [Span.applied, applyDeltas]
  rw [sweep_eq_filter, filter_swap]
  unfold applyChanges at hlog ⊢
  rw [hlog]

/-- The purge of one tournament leaves the rows of another. -/
theorem filter_purge (hne : t ≠ other) (tables : List ReadTable) (state : ReadState)
    (table : ReadTable) :
    (purge t tables state table).filter (ofTournament other) =
      (state table).filter (ofTournament other) := by
  unfold purge
  split_ifs
  · rw [List.filter_filter]
    apply List.filter_congr
    intro row _
    cases hrow : ofTournament other row with
    | false => rfl
    | true =>
      have hcell : row "tournament_id" = some (.text other) := by simpa [ofTournament] using hrow
      simp [hcell, Ne.symm hne]
  · rfl

/-- A child row has its parent after a purge exactly when the parent is not purged. -/
theorem parented_purge (record : RecordTree) (snapshotId source : String)
    (own : record.tournamentId = t) (named : t ≠ "") (state : ReadState) {table : ReadTable}
    (ht : table ∈ tournamentTables) (row : ReadRow) :
    parented snapshotCascade Cell.isNull (purge t SNAPSHOT_OWNED_TABLES state) table row = true ↔
      ∀ parent column, cascade table = some (parent, column) →
        (row column).all Cell.isNull = true ∨
          Span.KeepsParent (.snapshot record snapshotId source own named : Span factory t) state
            parent row := by
  have hsame : snapshotCascade table = cascade table := by
    cases table <;> first | rfl | exact absurd ht (by decide)
  unfold parented
  rw [hsame]
  cases hc : cascade table with
  | none =>
    constructor
    · intro _ parent column h
      cases h
    · exact fun _ => rfl
  | some link =>
    obtain ⟨parent, column⟩ := link
    have hpk := (cascade_parent hc).1
    have hagree : ∀ p : ReadRow, (p column == row column) = agree (primaryKey parent) p row := by
      intro p
      simp [agree, hpk]
    have hany : ((purge t SNAPSHOT_OWNED_TABLES state parent).any
        fun p => p column == row column) = true ↔
        Span.KeepsParent (.snapshot record snapshotId source own named : Span factory t) state
          parent row := by
      simp only [Span.KeepsParent, List.any_eq_true, hagree]
      unfold purge
      split_ifs with hin
      · simp only [List.mem_filter, hin, true_imp_iff, ofTournament, Bool.not_eq_true']
        constructor
        · rintro ⟨p, ⟨hp, hout⟩, hsame⟩
          exact ⟨p, hp, hsame, hout⟩
        · rintro ⟨p, hp, hsame, hout⟩
          exact ⟨p, ⟨hp, hout⟩, hsame⟩
      · simp only [hin, false_imp_iff, and_true]
    dsimp only
    rw [Bool.or_eq_true, hany]
    constructor
    · intro h parent' column' he
      simp only [Option.some.injEq, Prod.mk.injEq] at he
      obtain ⟨rfl, rfl⟩ := he
      exact h
    · exact fun h => h parent column rfl

/-- A snapshot leaves the rows of another tournament that it neither overwrites
nor orphans. -/
theorem filter_snapshot (record : RecordTree) (snapshotId source : String)
    (own : record.tournamentId = t) (named : t ≠ "") (hne : t ≠ other) (state : ReadState)
    {table : ReadTable} (ht : table ∈ tournamentTables) :
    (Span.applied (.snapshot record snapshotId source own named : Span factory t) state
        table).filter (ofTournament other) =
      (((state table).filter (ofTournament other)).filter
        (untouched (primaryKey table) table (rebuildChanges factory record))).filter
          (parented snapshotCascade Cell.isNull (purge t SNAPSHOT_OWNED_TABLES state) table) := by
  subst own
  have hframes : Frames table (rebuildChanges factory record) (ofTournament other) :=
    build_frames (fun _ => rebuild_tournament) hne (tournamentTables_ne ht)
  have hkeys := foreignKeys_cleared record.tournamentId SNAPSHOT_OWNED_TABLES state
  have hlog := filter_foldl_act primaryKey hframes
    (cleared record.tournamentId SNAPSHOT_OWNED_TABLES state table)
  have hcleared : (cleared record.tournamentId SNAPSHOT_OWNED_TABLES state table).filter
      (ofTournament other) = ((state table).filter (ofTournament other)).filter
        (parented snapshotCascade Cell.isNull
          (purge record.tournamentId SNAPSHOT_OWNED_TABLES state) table) := by
    unfold cleared
    rw [sweep_eq_filter, filter_swap, filter_purge hne]
  simp only [Span.applied]
  rw [applySpan_snapshot named, applyDeltas_rebuild hkeys]
  unfold applyChanges
  rw [hlog, hcleared, filter_swap]

end Frames

/-- What is projected for one tournament leaves the rows of another alone exactly
when it writes none of their primary keys and takes no row that they hang under. -/
theorem leavesAlone_iff (factory : CompetitionFactory) (t other : String) (span : Span factory t)
    (state : ReadState) (hne : t ≠ other) :
    LeavesAlone span state other ↔ Clear span state other := by
  unfold LeavesAlone Clear
  refine forall_congr' fun table => forall_congr' fun ht => ?_
  cases span with
  | incremental final intents own =>
    rw [filter_incremental final intents own hne state ht]
    refine filter_eq_iff (fun row => ?_) (parented_build final intents own state table)
    rw [untouched_iff]
    refine forall_congr' fun new => ?_
    rw [upserts_iff]
    rfl
  | snapshot record snapshotId source own named =>
    rw [filter_snapshot record snapshotId source own named hne state ht]
    refine filter_eq_iff (fun row => ?_)
      (parented_purge record snapshotId source own named state ht)
    rw [untouched_iff]
    refine forall_congr' fun new => ?_
    rw [rebuild_upserts]
    rfl

/-- The record of a tournament at a venue, with one court of it. -/
def atVenue (t court : String) : RecordTree :=
  ⟨t, none, [], [⟨"v1", [⟨some court, .null⟩], .null⟩], [], .null⟩

/-- The first tournament plays on court 1 of the shared venue. -/
def sharedVenue : ReadState := projectionOf plainFactory (atVenue "t1" "c1")

/-- A second tournament on another court of the venue leaves the first one alone. -/
theorem other_court_leavesAlone :
    LeavesAlone (Span.rebuild plainFactory (atVenue "t2" "c2")) sharedVenue "t1" ∧
      Clear (Span.rebuild plainFactory (atVenue "t2" "c2")) sharedVenue "t1" := by
  have hleaves : LeavesAlone (Span.rebuild plainFactory (atVenue "t2" "c2")) sharedVenue "t1" := by
    intro table _
    cases table <;> rfl
  exact ⟨hleaves, (leavesAlone_iff plainFactory _ "t1" _ _ (by decide)).mp hleaves⟩

/-- A second tournament on the same court takes the court row of the first. -/
theorem same_court_taken :
    ¬ ∀ (factory : CompetitionFactory) (t other : String) (span : Span factory t)
      (state : ReadState), t ≠ other → LeavesAlone span state other := by
  intro h
  have hcourts := h plainFactory _ "t1" (Span.rebuild plainFactory (atVenue "t2" "c1"))
    sharedVenue (by decide) .courts (by decide)
  have hbefore : (sharedVenue .courts).filter (ofTournament "t1") =
      [plainModel.courtRow ⟨some "c1", .null⟩ ⟨some (.text "v1"), "t1", none⟩] := rfl
  have hafter : ((Span.rebuild plainFactory (atVenue "t2" "c1")).applied sharedVenue
      .courts).filter (ofTournament "t1") = [] := rfl
  rw [hbefore, hafter] at hcourts
  cases hcourts

end FactoryServer.TournamentFrames
