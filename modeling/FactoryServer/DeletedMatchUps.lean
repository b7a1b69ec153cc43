import FactoryServer.ProjectionLogs

/-!
# Deleted matchUps leave the read model

A batch names the matchUps it deleted, and its deletes come last. A delete is
skipped for a matchUp that a flatten rebuilt from the final record, and also
for one that merely had a result notice, which says nothing about the final
record. This module states when the delete of a matchUp takes its row away and
when a rebuilt row survives.
-/

namespace FactoryServer.DeletedMatchUps

open TournamentTree KeyedTables InsertionMaps ReadModelRows ProjectionDeltas IntentGroups
open ProjectionLogs

/-- A delete intent of the tournament names the matchUp. -/
def Named (intents : List ProjectionIntent) (t id : String) : Prop :=
  ∃ ids, .deleteMatchUps t ids ∈ intents ∧ id ∈ ids

/-- The final record has the matchUp. -/
def InRecord {model : ReadModel} (final : FinalState model) (t id : String) : Prop :=
  ∃ record, final.records t = some record ∧ id ∈ record.matchUpIds

/-- A row of the matchUp with an id. -/
def HasId (id : String) (row : ReadRow) : Prop := row "match_up_id" = some (.text id)

/-- A flatten of the batch rebuilds the matchUp's row. -/
def Rebuilt (model : ReadModel) (final : FinalState model) (intents : List ProjectionIntent)
    (id : String) : Prop :=
  ∃ row ∈ flattenRows model final (group intents final.records), HasId id row

/-- No row of the tournament's matchUp remains, whatever the read model held. -/
def Removed (model : ReadModel) (final : FinalState model) (intents : List ProjectionIntent)
    (t id : String) : Prop :=
  ∀ state, ∀ row ∈ project model final intents state .matchUps,
    ¬ (HasId id row ∧ row "tournament_id" = some (.text t))

/-- A row of the matchUp remains, whatever the read model held. -/
def Survives (model : ReadModel) (final : FinalState model) (intents : List ProjectionIntent)
    (id : String) : Prop :=
  ∀ state, ∃ row ∈ project model final intents state .matchUps, HasId id row

/-- The keys of the draws and events that the batch deletes. -/
def sweepKeys (intents : List ProjectionIntent) : List (Key String Cell) :=
  (intents.flatMap deletedDraws).map
      (fun d => idKey [("tournament_id", d.1), ("draw_id", d.2)]) ++
    (mapOf (intents.flatMap deletedEvents)).map
      fun e => idKey [("tournament_id", e.2), ("event_id", e.1)]

/-- The matchUp is rebuilt (in another tournament), or its last result is
another tournament's or belongs to a deleted draw or event, or it has no result
and the last delete that names it is this tournament's. -/
def RemovalClear (model : ReadModel) (final : FinalState model) (intents : List ProjectionIntent)
    (t id : String) : Prop :=
  Rebuilt model final intents id ∨
    match lastOf id (intents.flatMap resultPairs) with
    | some result => result.1 ≠ t ∨ ∃ key ∈ sweepKeys intents,
        matchesKey (resultRow model final.records (id, result)) key = true
    | none => lastOf id (intents.flatMap deletedMatchUps) = some t

/-- No deleted draw or event can be that of the rebuilt row. -/
def RebuildClear (model : ReadModel) (final : FinalState model) (intents : List ProjectionIntent)
    (id : String) : Prop :=
  ∀ key ∈ sweepKeys intents, ¬ Compatible (mergeAll
    ((flattenRows model final (group intents final.records)).filter
      fun row => row "match_up_id" = some (.text id))) key

/-- The primary key of a matchUp. -/
def matchUpKey (id : String) : ReadRow := fun column =>
  if column = "match_up_id" then some (.text id) else none

theorem agree_matchUpKey {row : ReadRow} {id : String} :
    agree (primaryKey .matchUps) row (matchUpKey id) = true ↔ HasId id row := by
  simp [agree_iff, primaryKey, matchUpKey, HasId]

theorem filter_matchUpKey (rows : List ReadRow) (id : String) :
    rows.filter (agree (primaryKey .matchUps) · (matchUpKey id)) =
      rows.filter fun row => row "match_up_id" = some (.text id) := by
  apply List.filter_congr
  intro row _
  rw [Bool.eq_iff_iff, agree_matchUpKey, decide_eq_true_iff]
  rfl

section Batch

variable (model : ReadModel) (final : FinalState model) (intents : List ProjectionIntent)
  (id : String)

/-- The rows of one matchUp that the flattens of a batch build. -/
def flatNews : List ReadRow :=
  (flattenRows model final (group intents final.records)).filter
    fun row => row "match_up_id" = some (.text id)

/-- The slim rows of one matchUp that the results of a batch build. -/
def slimNews : List ReadRow :=
  ((slimResults model final (group intents final.records)).map
    (resultRow model final.records)).filter fun row => row "match_up_id" = some (.text id)

/-- The keys of all deletes that reach the matchUps. -/
def allKeys : List (Key String Cell) :=
  deleteKeys (group intents final.records)
    (coveredIds model final (group intents final.records)) .matchUps

/-- The rows of one matchUp after a batch: flattens, then results, then deletes. -/
theorem slot_matchUps (state : ReadState) :
    slot (primaryKey .matchUps) (project model final intents state .matchUps) (matchUpKey id) =
      (putAll (slimNews model final intents id) (putAll (flatNews model final intents id)
        (slot (primaryKey .matchUps) (state .matchUps) (matchUpKey id)))).filter
          fun row => (allKeys model final intents).all fun key => !matchesKey row key := by
  rw [project_of_no_cascade model final intents state rfl, slot_build, onTable_matchUps,
    List.foldl_append, List.foldl_append, foldl_actSlot_upserts, foldl_actSlot_upserts,
    foldl_actSlot_deletes, filter_matchUpKey, filter_matchUpKey]
  rfl

/-- The rows of a matchUp after a batch are the merged rows that no delete matches. -/
theorem mem_project {state : ReadState} {row : ReadRow} (h : HasId id row) :
    row ∈ project model final intents state .matchUps ↔
      row ∈ putAll (slimNews model final intents id) (putAll (flatNews model final intents id)
          (slot (primaryKey .matchUps) (state .matchUps) (matchUpKey id))) ∧
        ∀ key ∈ allKeys model final intents, matchesKey row key = false := by
  have hslot : row ∈ project model final intents state .matchUps ↔
      row ∈ slot (primaryKey .matchUps) (project model final intents state .matchUps)
        (matchUpKey id) := by
    unfold slot
    rw [List.mem_filter]
    constructor
    · exact fun hm => ⟨hm, agree_matchUpKey.mpr h⟩
    · exact And.left
  rw [hslot, slot_matchUps, List.mem_filter]
  simp

theorem flatNews_ne_nil_iff :
    flatNews model final intents id ≠ [] ↔ Rebuilt model final intents id := by
  unfold flatNews Rebuilt
  constructor
  · intro h
    obtain ⟨row, hrow⟩ := List.exists_mem_of_ne_nil _ h
    obtain ⟨hmem, hid⟩ := List.mem_filter.mp hrow
    have hcell : row "match_up_id" = some (.text id) := of_decide_eq_true hid
    exact ⟨row, hmem, hcell⟩
  · rintro ⟨row, hmem, hid⟩
    have hcell : row "match_up_id" = some (.text id) := hid
    exact List.ne_nil_of_mem (List.mem_filter.mpr ⟨hmem, by simpa using hcell⟩)

/-- The results of one matchUp that no flatten covers. -/
theorem slimNews_eq : slimNews model final intents id =
    if some (Cell.text id) ∈ flattenedIds model final.records final.flattenDraw
        (group intents final.records) then []
    else ((lastOf id (intents.flatMap resultPairs)).map
      fun result => resultRow model final.records (id, result)).toList := by
  have hgroup : (group intents final.records).matchUpResults =
      mapOf (intents.flatMap resultPairs) := by rw [group_eq]
  have hrow : ∀ entry ∈ slimResults model final (group intents final.records),
      (resultRow model final.records entry "match_up_id" = some (.text id) ↔ entry.1 = id) := by
    intro entry he
    have hmem : entry ∈ (group intents final.records).matchUpResults := (List.mem_filter.mp he).1
    have hkey := (group_results model final intents).1 entry hmem
    unfold resultRow
    rw [(model.matchUpResultRow_keys _ _ _).1, ← hkey]
    simp
  have hfilter : slimNews model final intents id =
      ((slimResults model final (group intents final.records)).filter
        fun entry => entry.1 = id).map (resultRow model final.records) := by
    unfold slimNews
    rw [List.filter_map]
    congr 1
    apply List.filter_congr
    intro entry he
    simp only [Function.comp_apply, hrow entry he]
  have hslim : (slimResults model final (group intents final.records)).filter
      (fun entry => entry.1 = id) =
      ((mapOf (intents.flatMap resultPairs)).filter fun entry => entry.1 = id).filter
        fun entry => some (Cell.text entry.1) ∉ flattenedIds model final.records
          final.flattenDraw (group intents final.records) := by
    unfold slimResults keptResults
    rw [hgroup, List.filter_filter, List.filter_filter]
    apply List.filter_congr
    intro entry _
    exact Bool.and_comm _ _
  rw [hfilter, hslim, filter_key_mapOf]
  cases lastOf id (intents.flatMap resultPairs) with
  | none => simp
  | some result =>
    split_ifs with hc <;> simp [hc]

theorem mem_flattenedIds :
    some (Cell.text id) ∈ flattenedIds model final.records final.flattenDraw
        (group intents final.records) ↔ Rebuilt model final intents id := by
  rw [flattenedIds_eq, List.mem_map]
  rfl

/-- A delete by matchUp id that can reach the matchUp is the last one that names
it, and nothing covers it. -/
theorem matchUpKeys_reach {key : Key String Cell} {row : ReadRow} (hid : HasId id row)
    (hk : key ∈ matchUpKeys (group intents final.records)
      (coveredIds model final (group intents final.records)))
    (hc : Compatible row key) :
    ∃ t, lastOf id (intents.flatMap deletedMatchUps) = some t ∧
      key = idKey [("tournament_id", t), ("match_up_id", id)] ∧
      ¬ Rebuilt model final intents id ∧ lastOf id (intents.flatMap resultPairs) = none := by
  obtain ⟨entry, he, rfl⟩ := List.mem_map.mp hk
  obtain ⟨hmem, hcovered⟩ := List.mem_filter.mp he
  have hentry : entry.1 = id := by
    have hcell := hc ("match_up_id", some (.text entry.1)) (by simp [idKey])
    unfold HasId at hid
    rw [hid] at hcell
    rcases hcell with hcell | hcell
    · cases hcell
    · simpa using hcell.symm
  have hdeleted : (group intents final.records).deleteMatchUps =
      mapOf (intents.flatMap deletedMatchUps) := by rw [group_eq]
  have hresults : (group intents final.records).matchUpResults =
      mapOf (intents.flatMap resultPairs) := by rw [group_eq]
  rw [hdeleted] at hmem
  have hlast : lastOf entry.1 (intents.flatMap deletedMatchUps) = some entry.2 := mem_mapOf.mp hmem
  rw [hentry] at hlast
  have hnot : ¬ some (Cell.text id) ∈ coveredIds model final (group intents final.records) := by
    simpa [hentry] using hcovered
  rw [mem_coveredIds, not_or] at hnot
  refine ⟨entry.2, hlast, by rw [hentry], hnot.1, ?_⟩
  rw [lastOf_eq_none]
  intro hkey
  apply hnot.2
  cases hresult : lastOf id (intents.flatMap resultPairs) with
  | none => exact absurd hkey (lastOf_eq_none.mp hresult)
  | some result => exact ⟨(id, result), by rw [hresults]; exact mem_mapOf.mpr hresult, rfl⟩

/-- The last delete of a matchUp that nothing covers is emitted. -/
theorem matchUpKeys_of_last (hflat : ¬ Rebuilt model final intents id)
    (hresult : lastOf id (intents.flatMap resultPairs) = none) {t : String}
    (hlast : lastOf id (intents.flatMap deletedMatchUps) = some t) :
    idKey [("tournament_id", t), ("match_up_id", id)] ∈
      matchUpKeys (group intents final.records)
        (coveredIds model final (group intents final.records)) := by
  have hdeleted : (id, t) ∈ (group intents final.records).deleteMatchUps := by
    rw [group_eq]
    exact mem_mapOf.mpr hlast
  have hcovered : some (Cell.text id) ∉ coveredIds model final (group intents final.records) := by
    rw [mem_coveredIds, not_or]
    refine ⟨hflat, ?_⟩
    rintro ⟨entry, he, rfl⟩
    rw [group_eq] at he
    have hsome : lastOf entry.1 (intents.flatMap resultPairs) = some entry.2 := mem_mapOf.mp he
    rw [hresult] at hsome
    cases hsome
  exact List.mem_map.mpr ⟨(id, t), List.mem_filter.mpr ⟨hdeleted, by simpa using hcovered⟩, rfl⟩

/-- The keys of deletes name their columns once and ask for a value in each. -/
theorem allKeys_ids : ∀ key ∈ allKeys model final intents,
    (key.map Prod.fst).Nodup ∧ ∀ entry ∈ key, entry.2 ≠ none := by
  intro key hkey
  simp only [allKeys, deleteKeys, List.mem_append] at hkey
  rcases hkey with (hkey | hkey) | hkey
  · obtain ⟨d, -, rfl⟩ := List.mem_map.mp hkey
    simp [idKey]
  · obtain ⟨m, -, rfl⟩ := List.mem_map.mp hkey
    simp [idKey]
  · obtain ⟨e, -, rfl⟩ := List.mem_map.mp hkey
    simp [idKey]

variable {model final intents id} in
theorem mergedRow_hasId (hne : flatNews model final intents id ≠ []) :
    HasId id (mergeAll (flatNews model final intents id)) := by
  have hrows : ∀ row ∈ flatNews model final intents id,
      ∃ value, row "match_up_id" = some value ∧ value = .text id := by
    intro row hrow
    exact ⟨_, of_decide_eq_true (List.mem_filter.mp hrow).2, rfl⟩
  obtain ⟨value, hvalue, rfl⟩ := mergeAll_cell hne hrows
  exact hvalue

theorem sweepKeys_eq (records : Records) :
    sweepKeys intents = drawKeys (group intents records) ++ eventKeys (group intents records) := by
  rw [group_eq]
  rfl

theorem mem_allKeys {key : Key String Cell} :
    key ∈ allKeys model final intents ↔ key ∈ sweepKeys intents ∨
      key ∈ matchUpKeys (group intents final.records)
        (coveredIds model final (group intents final.records)) := by
  rw [sweepKeys_eq intents final.records]
  simp only [allKeys, deleteKeys, List.mem_append]
  tauto

/-- A row that a flatten built is filed under a tournament whose record has the
matchUp. -/
theorem flatNews_tournament {row : ReadRow} (h : row ∈ flatNews model final intents id) :
    ∃ t, row "tournament_id" = some (.text t) ∧ InRecord final t id := by
  obtain ⟨hmem, hid⟩ := List.mem_filter.mp h
  have hid' : row "match_up_id" = some (.text id) := of_decide_eq_true hid
  obtain ⟨entry, -, hmem⟩ := List.mem_flatMap.mp hmem
  obtain ⟨matchUp, hm, hrow⟩ := List.mem_flatMap.mp hmem
  refine ⟨entry.2.1, (model.matchUpRow_keys _ _ row hrow).2, ?_⟩
  obtain ⟨record, found, hrecord, hin, hcell⟩ := final.flattened _ _ matchUp hm row hrow
  rw [hid'] at hcell
  obtain rfl : id = found := by simpa using hcell
  exact ⟨record, hrecord, hin⟩

/-- A result of the matchUp that no flatten covers is what the results upsert. -/
theorem slimNews_of_result (h : ¬ Rebuilt model final intents id) {result : String × ResultMatchUp}
    (hresult : lastOf id (intents.flatMap resultPairs) = some result) :
    slimNews model final intents id = [resultRow model final.records (id, result)] := by
  rw [slimNews_eq, if_neg (mt (mem_flattenedIds model final intents id).mp h), hresult]
  rfl

theorem slimNews_of_none (hresult : lastOf id (intents.flatMap resultPairs) = none) :
    slimNews model final intents id = [] := by
  rw [slimNews_eq, hresult]
  simp

theorem slimNews_of_rebuilt (h : Rebuilt model final intents id) :
    slimNews model final intents id = [] := by
  rw [slimNews_eq, if_pos ((mem_flattenedIds model final intents id).mpr h)]

theorem flatNews_of_not_rebuilt (h : ¬ Rebuilt model final intents id) :
    flatNews model final intents id = [] := by
  by_contra hne
  exact h ((flatNews_ne_nil_iff model final intents id).mp hne)

/-- The cells of a result row that name the matchUp and its tournament. -/
theorem resultRow_cells {result : String × ResultMatchUp}
    (hresult : lastOf id (intents.flatMap resultPairs) = some result) :
    HasId id (resultRow model final.records (id, result)) ∧
      resultRow model final.records (id, result) "tournament_id" = some (.text result.1) := by
  have hmem : (id, result) ∈ (group intents final.records).matchUpResults := by
    rw [group_eq]
    exact mem_mapOf.mpr hresult
  have hid : id = result.2.matchUpId := (group_results model final intents).1 _ hmem
  have hkeys := model.matchUpResultRow_keys result.2 result.1 (providerIdOf final.records result.1)
  refine ⟨?_, hkeys.2⟩
  unfold HasId
  rw [hid]
  exact hkeys.1

end Batch

section Leaving

variable {model : ReadModel} {final : FinalState model} {intents : List ProjectionIntent}
  {t id : String}

/-- A delete of the batch names a tournament and its matchUp, or its draw or event. -/
theorem sweepKeys_cell {key : Key String Cell} (h : key ∈ sweepKeys intents) :
    ∃ column value, (column = "draw_id" ∨ column = "event_id") ∧
      (column, some (Cell.text value)) ∈ key := by
  rcases List.mem_append.mp h with h | h
  · obtain ⟨d, -, rfl⟩ := List.mem_map.mp h
    exact ⟨"draw_id", d.2, Or.inl rfl, by simp [idKey]⟩
  · obtain ⟨e, -, rfl⟩ := List.mem_map.mp h
    exact ⟨"event_id", e.1, Or.inr rfl, by simp [idKey]⟩

theorem sweepKeys_some {key : Key String Cell} (h : key ∈ sweepKeys intents) :
    ∀ entry ∈ key, entry.2 ≠ none := by
  rcases List.mem_append.mp h with h | h
  · obtain ⟨d, -, rfl⟩ := List.mem_map.mp h
    simp [idKey]
  · obtain ⟨e, -, rfl⟩ := List.mem_map.mp h
    simp [idKey]

/-- A row that holds nothing but the matchUp and its tournament. -/
def bareRow (t id : String) : ReadRow := fun column =>
  if column = "match_up_id" then some (.text id)
  else if column = "tournament_id" then some (.text t) else none

theorem bareRow_not_swept {key : Key String Cell} (h : key ∈ sweepKeys intents) :
    matchesKey (bareRow t id) key = false := by
  obtain ⟨column, value, hcolumn, hmem⟩ := sweepKeys_cell h
  rw [Bool.eq_false_iff]
  intro hmatch
  have hcell := matchesKey_iff.mp hmatch _ hmem
  rcases hcolumn with rfl | rfl <;> simp [bareRow] at hcell

/-- A result of the tournament that no draw or event delete matches stays. -/
theorem result_stays (hremoved : Removed model final intents t id)
    (hflat : ¬ Rebuilt model final intents id) {result : String × ResultMatchUp}
    (hresult : lastOf id (intents.flatMap resultPairs) = some result) (ht : result.1 = t) :
    ∃ key ∈ sweepKeys intents,
      matchesKey (resultRow model final.records (id, result)) key = true := by
  obtain ⟨hid, htournament⟩ := resultRow_cells model final intents id hresult
  by_contra hnone
  push Not at hnone
  refine hremoved (fun _ => []) (resultRow model final.records (id, result)) ?_ ⟨hid, by
    rw [htournament, ht]⟩
  rw [mem_project model final intents id hid, slimNews_of_result model final intents id hflat
    hresult, flatNews_of_not_rebuilt model final intents id hflat]
  refine ⟨by simp [putAll, slot], fun key hkey => ?_⟩
  rw [Bool.eq_false_iff]
  intro hmatch
  rcases (mem_allKeys model final intents).mp hkey with hsweep | hreach
  · exact hnone key hsweep hmatch
  · have hcompatible : Compatible (resultRow model final.records (id, result)) key :=
      fun entry he => Or.inr (matchesKey_iff.mp hmatch entry he)
    obtain ⟨-, -, -, -, hno⟩ := matchUpKeys_reach model final intents id hid hreach hcompatible
    rw [hresult] at hno
    cases hno

/-- Without a result, a row stays unless the last delete is the tournament's. -/
theorem bare_stays (hremoved : Removed model final intents t id)
    (hflat : ¬ Rebuilt model final intents id)
    (hresult : lastOf id (intents.flatMap resultPairs) = none) :
    lastOf id (intents.flatMap deletedMatchUps) = some t := by
  have hid : HasId id (bareRow t id) := by simp [HasId, bareRow]
  by_contra hlast
  refine hremoved (fun _ => [bareRow t id]) (bareRow t id) ?_ ⟨hid, by simp [bareRow]⟩
  rw [mem_project model final intents id hid, slimNews_of_none model final intents id hresult,
    flatNews_of_not_rebuilt model final intents id hflat]
  refine ⟨by simp [putAll, slot, agree_matchUpKey, hid], fun key hkey => ?_⟩
  rcases (mem_allKeys model final intents).mp hkey with hsweep | hreach
  · exact bareRow_not_swept hsweep
  · rw [Bool.eq_false_iff]
    intro hmatch
    have hcompatible : Compatible (bareRow t id) key :=
      fun entry he => Or.inr (matchesKey_iff.mp hmatch entry he)
    obtain ⟨other, hother, rfl, -⟩ :=
      matchUpKeys_reach model final intents id hid hreach hcompatible
    have hcell := matchesKey_iff.mp hmatch ("tournament_id", some (.text other)) (by simp [idKey])
    have heq : t = other := by simpa [bareRow] using hcell
    exact hlast (by rw [hother, heq])

/-- A key that a cell-wise smaller row matches is matched. -/
theorem matchesKey_of_extends {row part : ReadRow} {key : Key String Cell}
    (h : Extends row part) (hkey : ∀ entry ∈ key, entry.2 ≠ none)
    (hm : matchesKey part key = true) : matchesKey row key = true := by
  rw [matchesKey_iff] at hm ⊢
  intro entry he
  cases hv : entry.2 with
  | none => exact absurd hv (hkey entry he)
  | some v => exact h entry.1 v (by rw [hm entry he, hv])

theorem removed_iff (habsent : ¬ InRecord final t id) :
    Removed model final intents t id ↔ RemovalClear model final intents t id := by
  constructor
  · intro hremoved
    by_cases hflat : Rebuilt model final intents id
    · exact Or.inl hflat
    · right
      cases hresult : lastOf id (intents.flatMap resultPairs) with
      | none => exact bare_stays hremoved hflat hresult
      | some result =>
        by_cases ht : result.1 = t
        · exact Or.inr (result_stays hremoved hflat hresult ht)
        · exact Or.inl ht
  · rintro hclear state row hrow ⟨hid, ht⟩
    obtain ⟨hput, hkeys⟩ := (mem_project model final intents id hid).mp hrow
    by_cases hflat : Rebuilt model final intents id
    · rw [slimNews_of_rebuilt model final intents id hflat] at hput
      have hne := (flatNews_ne_nil_iff model final intents id).mpr hflat
      have hother : ∀ news ∈ flatNews model final intents id,
          ∃ value, news "tournament_id" = some value ∧ value ≠ .text t := by
        intro news hnews
        obtain ⟨t', hcell, hin⟩ := flatNews_tournament model final intents id hnews
        refine ⟨_, hcell, ?_⟩
        rintro he
        obtain rfl : t' = t := by simpa using he
        exact habsent hin
      obtain ⟨value, hvalue, hvalue'⟩ := mergeAll_cell hne hother
      have hcell := extends_of_mem_putAll hne hput "tournament_id" value hvalue
      rw [ht] at hcell
      exact hvalue' (Option.some.inj hcell).symm
    · rcases hclear with hclear | hclear
      · exact hflat hclear
      · cases hresult : lastOf id (intents.flatMap resultPairs) with
        | some result =>
          rw [hresult] at hclear
          rw [slimNews_of_result model final intents id hflat hresult] at hput
          have hextends := extends_of_mem_putAll (List.cons_ne_nil _ _) hput
          rw [mergeAll_singleton] at hextends
          rcases hclear with hne | ⟨key, hkey, hmatch⟩
          · have hcell := hextends _ _ (resultRow_cells model final intents id hresult).2
            rw [ht] at hcell
            exact hne (by simpa using hcell.symm)
          · have hfalse := hkeys key ((mem_allKeys model final intents).mpr (Or.inl hkey))
            rw [matchesKey_of_extends hextends (sweepKeys_some hkey) hmatch] at hfalse
            cases hfalse
        | none =>
          rw [hresult] at hclear
          have hkey := matchUpKeys_of_last model final intents id hflat hresult hclear
          have hfalse := hkeys _ ((mem_allKeys model final intents).mpr (Or.inr hkey))
          have hmatch : matchesKey row (idKey [("tournament_id", t), ("match_up_id", id)]) =
              true := by
            rw [matchesKey_iff]
            unfold HasId at hid
            simp [idKey, ht, hid]
          rw [hmatch] at hfalse
          cases hfalse

theorem survives_iff_clear (hflat : Rebuilt model final intents id) :
    Survives model final intents id ↔ RebuildClear model final intents id := by
  have hkey : ∀ column ∈ primaryKey .matchUps, matchUpKey id column ≠ none := by
    simp [primaryKey, matchUpKey]
  have hnews : ∀ row ∈ flatNews model final intents id,
      agree (primaryKey .matchUps) row (matchUpKey id) = true := by
    intro row hrow
    have hcell : row "match_up_id" = some (.text id) :=
      of_decide_eq_true (List.mem_filter.mp hrow).2
    exact agree_matchUpKey.mpr hcell
  have hslots := survives_iff hkey hnews (allKeys_ids model final intents)
  have hne := (flatNews_ne_nil_iff model final intents id).mpr hflat
  have hid := mergedRow_hasId hne
  have hclear : RebuildClear model final intents id ↔
      ∀ key ∈ allKeys model final intents,
        ¬ Compatible (mergeAll (flatNews model final intents id)) key := by
    constructor
    · intro h key hmem
      rcases (mem_allKeys model final intents).mp hmem with hsweep | hreach
      · exact h key hsweep
      · intro hc
        obtain ⟨-, -, -, hnot, -⟩ := matchUpKeys_reach model final intents id hid hreach hc
        exact hnot hflat
    · intro h key hmem
      exact h key ((mem_allKeys model final intents).mpr (Or.inl hmem))
  rw [hclear]
  constructor
  · intro h
    refine (hslots.mp fun rows hrows hnil => ?_).2
    obtain ⟨row, hrow, hrowid⟩ := h fun _ => rows
    rw [mem_project model final intents id hrowid,
      slimNews_of_rebuilt model final intents id hflat] at hrow
    have hslot : slot (primaryKey .matchUps) rows (matchUpKey id) = rows :=
      List.filter_eq_self.mpr hrows
    rw [hslot] at hrow
    exact List.filter_eq_nil_iff.mp hnil row hrow.1 (by simpa using hrow.2)
  · intro h state
    have hrows : ∀ row ∈ slot (primaryKey .matchUps) (state .matchUps) (matchUpKey id),
        agree (primaryKey .matchUps) row (matchUpKey id) = true :=
      fun row hrow => (List.mem_filter.mp hrow).2
    obtain ⟨row, hrow⟩ := List.exists_mem_of_ne_nil _ (hslots.mpr ⟨hne, h⟩ _ hrows)
    obtain ⟨hput, hkeep⟩ := List.mem_filter.mp hrow
    have hrowid : HasId id row := extends_of_mem_putAll hne hput "match_up_id" _ hid
    refine ⟨row, ?_, hrowid⟩
    rw [mem_project model final intents id hrowid,
      slimNews_of_rebuilt model final intents id hflat]
    exact ⟨hput, by simpa using hkeep⟩

/-- What a batch owes a matchUp: gone when it was deleted and the final record
lacks it, there when the final record has it and a flatten rebuilt it. -/
def MatchUpSettled (model : ReadModel) (final : FinalState model)
    (intents : List ProjectionIntent) (t id : String) : Prop :=
  (Named intents t id → ¬ InRecord final t id → Removed model final intents t id) ∧
    (InRecord final t id → Rebuilt model final intents id → Survives model final intents id)

/-- A batch settles a matchUp exactly when no result notice covers its deletion
and no draw or event delete catches its rebuilt row. -/
theorem matchUp_settled_iff (model : ReadModel) (final : FinalState model)
    (intents : List ProjectionIntent) (t id : String) :
    MatchUpSettled model final intents t id ↔
      (Named intents t id → ¬ InRecord final t id → RemovalClear model final intents t id) ∧
        (InRecord final t id → Rebuilt model final intents id →
          RebuildClear model final intents id) := by
  unfold MatchUpSettled
  apply and_congr
  · exact imp_congr_right fun _ => imp_congr_right fun habsent => removed_iff habsent
  · exact imp_congr_right fun _ => imp_congr_right fun hflat => survives_iff_clear hflat

end Leaving

/-- A tournament whose last matchUp is gone. -/
def emptied : RecordTree := ⟨"t1", none, [], [], [], .null⟩

/-- The state after the removal: nothing is left to flatten. -/
def emptiedState : FinalState plainModel where
  records t := if t = "t1" then some emptied else none
  flattenDraw _ _ := []
  own t record h := by
    split_ifs at h with ht
    rw [← Option.some.inj h, ht]
    rfl
  flattened t drawId matchUp hm := by
    rw [flattenedMatchUps_plain] at hm
    cases hm

/-- A matchUp is scored and then removed within one batch. -/
def scoredAndRemoved : List ProjectionIntent :=
  [.matchUpResult "t1" ⟨"m1", .null⟩, .deleteMatchUps "t1" ["m1"]]

/-- The row of the removed matchUp stays. -/
theorem removed_matchUp_stays :
    ¬ ∀ (model : ReadModel) (final : FinalState model) (intents : List ProjectionIntent)
      (t id : String), MatchUpSettled model final intents t id := by
  intro h
  have hremoved := (h plainModel emptiedState scoredAndRemoved "t1" "m1").1
    ⟨["m1"], by simp [scoredAndRemoved], by simp⟩ (by
      rintro ⟨record, hrecord, hin⟩
      have hsame : emptied = record := by simpa [emptiedState] using hrecord
      rw [← hsame] at hin
      simp [RecordTree.matchUpIds, emptied] at hin)
  have hmem : plainModel.matchUpResultRow ⟨"m1", .null⟩ "t1" none ∈
      project plainModel emptiedState scoredAndRemoved (fun _ => []) .matchUps := by
    have hrows : project plainModel emptiedState scoredAndRemoved (fun _ => []) .matchUps =
        [plainModel.matchUpResultRow ⟨"m1", .null⟩ "t1" none] := rfl
    rw [hrows]
    exact List.mem_singleton_self _
  exact hremoved _ _ hmem ⟨rfl, rfl⟩

end FactoryServer.DeletedMatchUps
