import FactoryServer.JsonbValues
import FactoryServer.PrimaryKeys

/-!
# Sharded tournament records

A tournament in the `sharded` layout keeps, beside its record, a shell without the
participants and draws, a row for each of these by position, and an index of its
matchUps. Every write of the record rewrites them in the same transaction. Whatever
they were before, the record that is reassembled from them is the one last written.
-/

namespace FactoryServer.RecordShards

open JsonbValues PrimaryKeys

/-! ## The tables -/

/-- `event_ord` and `ord`, from zero. -/
abbrev Position := ℕ × ℕ

/-- The position comes no later. -/
def Position.atMost (p q : Position) : Bool := p.1 < q.1 || (p.1 == q.1 && p.2 ≤ q.2)

/-- The columns of `draw_definitions`. -/
structure DrawRow where
  /-- `event_id`. -/
  eventId : Option String
  /-- `draw_id`. -/
  drawId : Option String
  /-- `draw`. -/
  draw : Jsonb
  deriving DecidableEq

/-- The columns of `tournament_participants`. -/
structure ParticipantRow where
  /-- `participant_id`. -/
  participantId : Option String
  /-- `participant`. -/
  participant : Jsonb
  deriving DecidableEq

/-- The columns of `match_up_index`. -/
structure IndexRow where
  /-- `event_id`. -/
  eventId : Option String
  /-- `draw_id`. -/
  drawId : Option String
  deriving DecidableEq

/-- The rows of one tournament. -/
structure Shards where
  /-- `tournament_shells`. -/
  shell : Option Jsonb
  /-- `draw_definitions`. -/
  draws : Table Position DrawRow
  /-- `tournament_participants`. -/
  participants : Table ℕ ParticipantRow
  /-- `match_up_index`. -/
  matchUpIndex : Table String IndexRow

/-- `drop_tournament_shards`. -/
def Shards.none : Shards := ⟨Option.none, .empty, .empty, .empty⟩

/-! ## Sharding -/

section Sharding

variable (render : Jsonb → String)

/-- `tournament_draw_rows`. -/
def tournamentDrawRows (data : Jsonb) : List (Position × DrawRow) :=
  (withOrdinality (elements (data.get "events"))).flatMap fun (e, ev) =>
    (withOrdinality (elements (ev.get "drawDefinitions"))).map fun (d, dd) =>
      ((e, d), ⟨ev.getText render "eventId", dd.getText render "drawId", dd⟩)

/-- The columns of a participant. -/
def participantRow (p : Jsonb) : ParticipantRow := ⟨p.getText render "participantId", p⟩

/-- The participants of a record, by position. -/
def participantRows (data : Jsonb) : List (ℕ × ParticipantRow) :=
  (withOrdinality (elements (data.get "participants"))).map fun (o, p) =>
    (o, participantRow render p)

/-- The rows of the participants are rewritten. -/
def shardParticipants (t : Table ℕ ParticipantRow) (data : Jsonb) : Table ℕ ParticipantRow :=
  if isArray (data.get "participants") then
    (t.upsertAll (participantRows render data)).deleteWhere fun o =>
      (elements (data.get "participants")).length ≤ o
  else t.deleteWhere fun _ => true

/-- An event without its draws. -/
def shellEvent (ev : Jsonb) : Jsonb :=
  if isArray (ev.get "drawDefinitions") then ev.set "drawDefinitions" (.arr []) else ev

/-- A record without its participants and draws. -/
def shellOf (data : Jsonb) : Jsonb :=
  let shell := if isArray (data.get "participants") then data.set "participants" (.arr []) else data
  if isArray (data.get "events") then
    shell.set "events" (.arr ((elements (data.get "events")).map shellEvent))
  else shell

/-- The rows of the draws are rewritten. -/
def shardDraws (t : Table Position DrawRow) (data : Jsonb) : Table Position DrawRow :=
  let rows := tournamentDrawRows render data
  (t.upsertAll rows).deleteWhere fun position => position ∉ rows.map Prod.fst

/-- Every matchUp of every structure and every tieMatchUp of a draw. -/
def drawMatchUps (draw : Jsonb) : List Jsonb :=
  draw.path ["structures", "matchUps"] ++
    draw.path ["structures", "matchUps", "tieMatchUps"] ++
    draw.path ["structures", "structures", "matchUps"] ++
    draw.path ["structures", "structures", "matchUps", "tieMatchUps"]

/-- The matchUps of a record with their draws. -/
def matchUpRows (data : Jsonb) : List (String × Position × IndexRow) :=
  (tournamentDrawRows render data).flatMap fun (position, row) =>
    (drawMatchUps row.draw).filterMap fun m =>
      (m.getText render "matchUpId").map fun id => (id, position, ⟨row.eventId, row.drawId⟩)

/-- The rows of the index: each matchUp with the first draw by position. -/
def indexRows (data : Jsonb) : List (String × IndexRow) :=
  (distinctOn [] ((matchUpRows render data).mergeSort fun a b => a.2.1.atMost b.2.1)).map
    fun (id, _, row) => (id, row)

/-- The index is rewritten. -/
def shardIndex (t : Table String IndexRow) (data : Jsonb) : Table String IndexRow :=
  let rows := indexRows render data
  (t.upsertAll rows).deleteWhere fun id => id ∉ rows.map Prod.fst

/-- `shard_tournament`. -/
def shardTournament (s : Shards) (data : Jsonb) : Shards where
  shell := some (shellOf data)
  draws := shardDraws render s.draws data
  participants := shardParticipants render s.participants data
  matchUpIndex := shardIndex render s.matchUpIndex data

end Sharding

/-! ## Reassembly -/

/-- An event of the shell with its draws. -/
def reassembleEvent (s : Shards) (e : ℕ) (ev : Jsonb) : Jsonb :=
  if isArray (ev.get "drawDefinitions") then
    ev.set "drawDefinitions" (.arr
      ((s.draws.select (fun position => position.1 = e) Prod.snd).map fun d => d.2.draw))
  else ev

/-- `tournament_reassemble`. -/
def tournamentReassemble (s : Shards) : Option Jsonb :=
  s.shell.map fun shell =>
    (shell.concat
      (if isArray (shell.get "participants") then
        .obj [("participants", .arr
          ((s.participants.select (fun _ => true) id).map fun p => p.2.participant))]
      else .obj [])).concat
      (if isArray (shell.get "events") then
        .obj [("events", .arr
          ((withOrdinality (elements (shell.get "events"))).map fun (e, ev) =>
            reassembleEvent s e ev))]
      else .obj [])

/-! ## Writes of the record -/

/-- A JSON object as the column keeps it. -/
structure Document where
  /-- The value. -/
  value : Jsonb
  /-- It is an object. -/
  object : value.IsObject
  /-- Every object in it has its keys once and in order. -/
  canonical : value.Canonical

/-- The values of `tournament_storage_layout.layout`. -/
inductive Layout where
  | document
  | sharded
  deriving DecidableEq

/-- The tables, with the trigger `tournaments_shard_sync` installed. -/
structure Database where
  /-- `tournaments.data`. -/
  data : String → Option Document
  /-- `tournament_storage_layout`. -/
  layout : String → Option Layout
  /-- The shard tables. -/
  shards : String → Shards

/-- A statement that fires the trigger, or changes the layout. -/
inductive ShardAction where
  /-- An insert of a tournament, or an update of its `data`. -/
  | write (id : String) (d : Document)
  /-- A tournament is deleted. -/
  | delete (id : String)
  /-- `set_tournament_storage_layout`. -/
  | setLayout (id layout : String)

section Statements

variable (render : Jsonb → String)

/-- The insert or update branch of `tournaments_shard_sync`. -/
def shardSync (db : Database) (id : String) (d : Document) : Database :=
  if db.layout id = some .sharded then
    { db with shards := Function.update db.shards id (shardTournament render (db.shards id) d.value) }
  else db

/-- `set_tournament_storage_layout`; an exception leaves everything as it was. -/
def setTournamentStorageLayout (db : Database) (id layout : String) : Database :=
  if layout = "document" then
    { db with
      layout := Function.update db.layout id none
      shards := Function.update db.shards id .none }
  else if layout ≠ "sharded" then db
  else
    match db.data id with
    | none => db
    | some d =>
      let shards := shardTournament render (db.shards id) d.value
      if tournamentReassemble shards ≠ some d.value then db
      else { db with
        layout := Function.update db.layout id (some .sharded)
        shards := Function.update db.shards id shards }

/-- One statement. -/
def shardStep (db : Database) : ShardAction → Database
  | .write id d => shardSync render { db with data := Function.update db.data id (some d) } id d
  | .delete id =>
    { data := Function.update db.data id none
      layout := Function.update db.layout id none
      shards := Function.update db.shards id .none }
  | .setLayout id layout => setTournamentStorageLayout render db id layout

end Statements

/-! ## What is claimed -/

section Claims

variable (render : Jsonb → String)

/-- The draw at a position of the record, with its ids. -/
def DrawAt (data : Jsonb) (position : Position) (row : DrawRow) : Prop :=
  ∃ ev dd, (elements (data.get "events"))[position.1]? = some ev ∧
    (elements (ev.get "drawDefinitions"))[position.2]? = some dd ∧
    row = ⟨ev.getText render "eventId", dd.getText render "drawId", dd⟩

/-- A structure of a draw, or of a structure of it. -/
inductive StructureOf (draw : Jsonb) : Jsonb → Prop where
  | top {value : Jsonb} (h : value ∈ draw.step "structures") : StructureOf draw value
  | nested {group value : Jsonb} (h : group ∈ draw.step "structures")
      (h' : value ∈ group.step "structures") : StructureOf draw value

/-- A matchUp of one of the structures, or a tieMatchUp of one. -/
inductive MatchUpOf (draw : Jsonb) : Jsonb → Prop where
  | matchUp {value m : Jsonb} (h : StructureOf draw value) (h' : m ∈ value.step "matchUps") :
      MatchUpOf draw m
  | tieMatchUp {value m tie : Jsonb} (h : StructureOf draw value) (h' : m ∈ value.step "matchUps")
      (h'' : tie ∈ m.step "tieMatchUps") : MatchUpOf draw tie

/-- The draw has a matchUp of this id. -/
def Holds (draw : Jsonb) (matchUpId : String) : Prop :=
  ∃ m, MatchUpOf draw m ∧ m.getText render "matchUpId" = some matchUpId

/-- The shards are those of the record, and of nothing else. -/
structure Faithful (s : Shards) (data : Jsonb) : Prop where
  /-- The record is reassembled. -/
  reassembled : tournamentReassemble s = some data
  /-- A row for each participant. -/
  participants : ∀ o row, s.participants.find o = some row ↔
    ∃ p, (elements (data.get "participants"))[o]? = some p ∧ row = participantRow render p
  /-- A row for each draw. -/
  draws : ∀ position row, s.draws.find position = some row ↔ DrawAt render data position row
  /-- A row for each matchUp. -/
  indexed : ∀ id, (s.matchUpIndex.find id).isSome ↔
    ∃ position draw, DrawAt render data position draw ∧ Holds render draw.draw id
  /-- It names the first draw that holds the matchUp. -/
  first : ∀ id row, s.matchUpIndex.find id = some row →
    ∃ position draw, DrawAt render data position draw ∧ Holds render draw.draw id ∧
      row = ⟨draw.eventId, draw.drawId⟩ ∧
      ∀ position' draw', DrawAt render data position' draw' → Holds render draw'.draw id →
        position.atMost position' = true

/-- A sharded tournament has the shards of its record. -/
def InStep (db : Database) (id : String) : Prop :=
  ∀ d, db.layout id = some .sharded → db.data id = some d → Faithful render (db.shards id) d.value

end Claims

variable {render : Jsonb → String}

/-! ## Rows by position -/

theorem lookup_map_row {κ ρ σ : Type} [DecidableEq κ] (f : ρ → σ) (rows : List (κ × ρ)) (key : κ) :
    (rows.map fun entry => (entry.1, f entry.2)).lookup key = (rows.lookup key).map f := by
  induction rows with
  | nil => rfl
  | cons first rest ih =>
    rw [List.map_cons, lookup_cons_eq, lookup_cons_eq, ih]
    split_ifs <;> rfl

/-- The row of an item is found at its place. -/
theorem lookup_withOrdinality {α : Type} (items : List α) (i : ℕ) :
    (withOrdinality items).lookup i = items[i]? := by
  have hnodup : ((withOrdinality items).map Prod.fst).Nodup := by
    rw [keys_withOrdinality]
    exact List.nodup_range
  cases hitem : items[i]? with
  | none =>
    refine lookup_eq_none ?_
    rw [keys_withOrdinality, List.mem_range]
    exact Nat.not_lt.mpr (List.getElem?_eq_none_iff.mp hitem)
  | some item => exact (mem_iff_lookup hnodup (i, item)).mp (mem_withOrdinality.mpr hitem)

/-- The participants' rows have the places for keys. -/
theorem keys_participantRows (data : Jsonb) : (participantRows render data).map Prod.fst =
    List.range (elements (data.get "participants")).length := by
  rw [← keys_withOrdinality, participantRows, List.map_map]
  rfl

/-- What the participants' table holds afterwards. -/
theorem find_shardParticipants (t : Table ℕ ParticipantRow) (data : Jsonb) (o : ℕ) :
    (shardParticipants render t data).find o =
      (elements (data.get "participants"))[o]?.map (participantRow render) := by
  have hlookup : ∀ o, (participantRows render data).lookup o =
      (elements (data.get "participants"))[o]?.map (participantRow render) := by
    intro o
    rw [← lookup_withOrdinality]
    exact lookup_map_row (participantRow render) _ o
  unfold shardParticipants
  cases ha : isArray (data.get "participants") with
  | true =>
    rw [if_pos rfl, find_rewritten t ?_ ?_, hlookup]
    · rw [keys_participantRows]
      exact List.nodup_range
    · intro o
      rw [keys_participantRows, List.mem_range, Nat.not_lt, decide_eq_true_eq]
  | false =>
    rw [if_neg (by simp), find_deleteWhere, elements_of_not_isArray ha]
    simp

/-- The draws' rows are those at the positions. -/
theorem mem_tournamentDrawRows (data : Jsonb) (entry : Position × DrawRow) :
    entry ∈ tournamentDrawRows render data ↔ DrawAt render data entry.1 entry.2 := by
  obtain ⟨⟨e, d⟩, row⟩ := entry
  simp only [tournamentDrawRows, List.mem_flatMap, List.mem_map, Prod.exists, mem_withOrdinality,
    DrawAt, Prod.mk.injEq]
  constructor
  · rintro ⟨e', ev, hev, d', dd, hdd, ⟨rfl, rfl⟩, rfl⟩
    exact ⟨ev, dd, hev, hdd, rfl⟩
  · rintro ⟨ev, dd, hev, hdd, rfl⟩
    exact ⟨e, ev, hev, d, dd, hdd, ⟨rfl, rfl⟩, rfl⟩

/-- They come in the order of their positions, and no position twice. -/
theorem tournamentDrawRows_sorted (data : Jsonb) : (tournamentDrawRows render data).Pairwise
    fun a b => a.1.atMost b.1 = true ∧ a.1 ≠ b.1 := by
  unfold tournamentDrawRows
  refine List.pairwise_flatMap.mpr ⟨fun event _ => ?_, ?_⟩
  · refine List.pairwise_map.mpr ((withOrdinality_sorted _).imp fun {a b} hlt => ⟨?_, ?_⟩)
    · simp [Position.atMost, Nat.le_of_lt hlt]
    · simp [Nat.ne_of_lt hlt]
  · refine (withOrdinality_sorted _).imp fun {x y} hlt a ha b hb => ?_
    obtain ⟨_, -, rfl⟩ := List.mem_map.mp ha
    obtain ⟨_, -, rfl⟩ := List.mem_map.mp hb
    exact ⟨by simp [Position.atMost, hlt], by simp [Nat.ne_of_lt hlt]⟩

theorem tournamentDrawRows_keys (render : Jsonb → String) (data : Jsonb) :
    ((tournamentDrawRows render data).map Prod.fst).Nodup :=
  List.pairwise_map.mpr ((tournamentDrawRows_sorted data).imp fun h => h.2)

/-- What the draws' table holds afterwards. -/
theorem find_shardDraws (t : Table Position DrawRow) (data : Jsonb) (position : Position)
    (row : DrawRow) :
    (shardDraws render t data).find position = some row ↔ DrawAt render data position row := by
  unfold shardDraws
  dsimp only
  rw [find_rewritten t (tournamentDrawRows_keys render data) fun p => decide_eq_true_iff,
    ← mem_tournamentDrawRows data (position, row)]
  exact (mem_iff_lookup (tournamentDrawRows_keys render data) (position, row)).symm

/-! ## The record is reassembled -/

/-- The participants come back in their order. -/
theorem select_participants (t : Table ℕ ParticipantRow) (data : Jsonb) :
    (((shardParticipants render t data).select (fun _ => true) id).map fun p =>
      p.2.participant) = elements (data.get "participants") := by
  have hselect : (shardParticipants render t data).select (fun _ => true) id =
      participantRows render data := by
    refine select_eq _ (fun entry => ?_) ?_
    · obtain ⟨o, row⟩ := entry
      simp only [participantRows, List.mem_map, Prod.exists, mem_withOrdinality, Prod.mk.injEq,
        find_shardParticipants, Option.map_eq_some_iff, true_and]
      constructor
      · rintro ⟨_, p, hp, rfl, rfl⟩
        exact ⟨p, hp, rfl⟩
      · rintro ⟨p, hp, rfl⟩
        exact ⟨o, p, hp, rfl, rfl⟩
    · exact List.pairwise_map.mpr (withOrdinality_sorted _)
  rw [hselect, participantRows, List.map_map]
  exact map_withOrdinality rfl fun i item hitem => hitem

/-- So do the draws of an event. -/
theorem select_draws (t : Table Position DrawRow) {data ev : Jsonb} {e : ℕ}
    (hev : (elements (data.get "events"))[e]? = some ev) :
    (((shardDraws render t data).select (fun position => position.1 = e) Prod.snd).map fun d =>
      d.2.draw) = elements (ev.get "drawDefinitions") := by
  have hselect : (shardDraws render t data).select (fun position => position.1 = e) Prod.snd =
      (withOrdinality (elements (ev.get "drawDefinitions"))).map fun (d, dd) =>
        ((e, d), ⟨ev.getText render "eventId", dd.getText render "drawId", dd⟩) := by
    refine select_eq _ (fun entry => ?_) ?_
    · obtain ⟨⟨e', d⟩, row⟩ := entry
      simp only [List.mem_map, Prod.exists, mem_withOrdinality, Prod.mk.injEq, decide_eq_true_eq,
        find_shardDraws, DrawAt]
      constructor
      · rintro ⟨d', dd, hdd, ⟨rfl, rfl⟩, rfl⟩
        exact ⟨rfl, ev, dd, hev, hdd, rfl⟩
      · rintro ⟨rfl, ev', dd, hev', hdd, rfl⟩
        cases hev.symm.trans hev'
        exact ⟨d, dd, hdd, ⟨rfl, rfl⟩, rfl⟩
    · exact List.pairwise_map.mpr (withOrdinality_sorted _)
  rw [hselect, List.map_map]
  exact map_withOrdinality rfl fun i item hitem => hitem

/-- Two assignments of one field are the last. -/
theorem set_set_eq {value old new last : Jsonb} {key : String} (hc : value.Canonical)
    (hget : value.get key = some old) (hlast : last = old) :
    (value.set key new).set key last = value := by
  have ho : value.IsObject := hc.isObject hget
  refine ((ho.set key new).set key last).ext ho fun other => ?_
  rw [(ho.set key new).get_set, ho.get_set]
  by_cases hother : other = key
  · rw [if_pos hother, hother, hget, hlast]
  · rw [if_neg hother, if_neg hother]

/-- An event gets its draws back. -/
theorem reassembleEvent_eq (s : Shards) {t : Table Position DrawRow} {data ev : Jsonb} {e : ℕ}
    (hc : ev.Canonical)
    (hdraws : s.draws = shardDraws render t data)
    (hev : (elements (data.get "events"))[e]? = some ev) :
    reassembleEvent s e (shellEvent ev) = ev := by
  unfold shellEvent
  cases ha : isArray (ev.get "drawDefinitions") with
  | false => simp [reassembleEvent, ha]
  | true =>
    have hget := eq_of_isArray ha
    rw [if_pos rfl]
    unfold reassembleEvent
    rw [(hc.isObject hget).get_set, if_pos rfl, isArray, if_pos rfl, hdraws, select_draws _ hev]
    exact set_set_eq hc hget rfl

/-- The events get their draws back. -/
theorem reassembleEvents_eq (s : Shards) {data : Jsonb} {t : Table Position DrawRow}
    (hc : data.Canonical) (hdraws : s.draws = shardDraws render t data) :
    ((withOrdinality ((elements (data.get "events")).map shellEvent)).map fun (e, ev) =>
      reassembleEvent s e ev) = elements (data.get "events") := by
  refine map_withOrdinality (by simp) fun e ev hev => ?_
  rw [List.getElem?_map] at hev
  obtain ⟨original, horiginal, rfl⟩ := Option.map_eq_some_iff.mp hev
  have hcanonical : original.Canonical :=
    canonical_of_elements (fun v hv => hc.get hv) original (List.mem_of_getElem? horiginal)
  exact horiginal.trans (congrArg some (reassembleEvent_eq s hcanonical hdraws horiginal).symm)

/-- The shell is an object. -/
theorem shellOf_object {data : Jsonb} (ho : data.IsObject) : (shellOf data).IsObject :=
  (ho.setIf _ _ _).setIf _ _ _

/-- The shell has the fields of the record, but for the two arrays. -/
theorem get_shellOf {data : Jsonb} (ho : data.IsObject) (key : String) :
    (shellOf data).get key =
      if key = "events" ∧ isArray (data.get "events") = true then
        some (.arr ((elements (data.get "events")).map shellEvent))
      else if key = "participants" ∧ isArray (data.get "participants") = true then some (.arr [])
      else data.get key := by
  unfold shellOf
  dsimp only
  rw [(ho.setIf _ _ _).get_setIf, ho.get_setIf]

/-- Whatever the tables were, the record is reassembled from its shards. -/
theorem tournamentReassemble_shard (s : Shards) (d : Document) :
    tournamentReassemble (shardTournament render s d.value) = some d.value := by
  have hshell := shellOf_object d.object
  have hparticipants : isArray ((shellOf d.value).get "participants") =
      isArray (d.value.get "participants") := by
    rw [get_shellOf d.object]
    cases hp : isArray (d.value.get "participants") <;> simp [hp]
  have hevents : isArray ((shellOf d.value).get "events") = isArray (d.value.get "events") := by
    rw [get_shellOf d.object]
    cases he : isArray (d.value.get "events") <;> simp [he]
  unfold tournamentReassemble
  refine congrArg some ?_
  dsimp only [shardTournament]
  rw [hparticipants, hevents, select_participants, Jsonb.concat_ite, Jsonb.concat_ite]
  refine ((hshell.setIf _ _ _).setIf _ _ _).ext d.object fun key => ?_
  rw [(hshell.setIf _ _ _).get_setIf, hshell.get_setIf]
  by_cases he : key = "events" ∧ isArray (d.value.get "events") = true
  · rw [if_pos he, he.1, get_shellOf d.object, if_pos ⟨rfl, he.2⟩, elements_arr,
      eq_of_isArray he.2]
    exact congrArg (fun items => some (Jsonb.arr items))
      (reassembleEvents_eq (shardTournament render s d.value) d.canonical rfl)
  · rw [if_neg he]
    by_cases hp : key = "participants" ∧ isArray (d.value.get "participants") = true
    · rw [if_pos hp, hp.1, ← eq_of_isArray hp.2]
    · rw [if_neg hp, get_shellOf d.object, if_neg he, if_neg hp]

/-! ## The index -/

/-- The four paths reach the matchUps and tieMatchUps of the structures. -/
theorem mem_drawMatchUps (draw m : Jsonb) : m ∈ drawMatchUps draw ↔ MatchUpOf draw m := by
  simp only [drawMatchUps, Jsonb.path, List.foldl_cons, List.foldl_nil, List.flatMap_singleton,
    List.mem_append, List.mem_flatMap]
  constructor
  · rintro (((⟨value, hvalue, hm⟩ | ⟨m', ⟨value, hvalue, hm'⟩, hm⟩) |
      ⟨value, ⟨group, hgroup, hvalue⟩, hm⟩) | ⟨m', ⟨value, ⟨group, hgroup, hvalue⟩, hm'⟩, hm⟩)
    · exact .matchUp (.top hvalue) hm
    · exact .tieMatchUp (.top hvalue) hm' hm
    · exact .matchUp (.nested hgroup hvalue) hm
    · exact .tieMatchUp (.nested hgroup hvalue) hm' hm
  · rintro (⟨⟨hvalue⟩ | ⟨hgroup, hvalue⟩, hm⟩ | ⟨⟨hvalue⟩ | ⟨hgroup, hvalue⟩, hm', hm⟩)
    · exact Or.inl (Or.inl (Or.inl ⟨_, hvalue, hm⟩))
    · exact Or.inl (Or.inr ⟨_, ⟨_, hgroup, hvalue⟩, hm⟩)
    · exact Or.inl (Or.inl (Or.inr ⟨_, ⟨_, hvalue, hm'⟩, hm⟩))
    · exact Or.inr ⟨_, ⟨_, ⟨_, hgroup, hvalue⟩, hm'⟩, hm⟩

/-- A row for each matchUp of each draw. -/
theorem mem_matchUpRows (data : Jsonb) (id : String) (position : Position) (row : IndexRow) :
    (id, position, row) ∈ matchUpRows render data ↔
      ∃ draw, DrawAt render data position draw ∧ Holds render draw.draw id ∧
        row = ⟨draw.eventId, draw.drawId⟩ := by
  constructor
  · intro hin
    obtain ⟨⟨position', draw⟩, hentry, hrow⟩ := List.mem_flatMap.mp hin
    obtain ⟨m, hm, hid⟩ := List.mem_filterMap.mp hrow
    obtain ⟨_, htext, heq⟩ := Option.map_eq_some_iff.mp hid
    cases heq
    exact ⟨draw, (mem_tournamentDrawRows data _).mp hentry,
      ⟨m, (mem_drawMatchUps draw.draw m).mp hm, htext⟩, rfl⟩
  · rintro ⟨draw, hdraw, ⟨m, hm, htext⟩, rfl⟩
    refine List.mem_flatMap.mpr ⟨(position, draw), (mem_tournamentDrawRows data _).mpr hdraw, ?_⟩
    exact List.mem_filterMap.mpr ⟨m, (mem_drawMatchUps draw.draw m).mpr hm, by rw [htext]; rfl⟩

/-- They come in the order of their draws. -/
theorem matchUpRows_sorted (data : Jsonb) :
    (matchUpRows render data).Pairwise fun a b => a.2.1.atMost b.2.1 = true := by
  have hposition : ∀ {entry : Position × DrawRow} {a : String × Position × IndexRow},
      a ∈ ((drawMatchUps entry.2.draw).filterMap fun m => (m.getText render "matchUpId").map
        fun id => (id, entry.1, (⟨entry.2.eventId, entry.2.drawId⟩ : IndexRow))) →
        a.2.1 = entry.1 := by
    intro entry a ha
    obtain ⟨m, -, hid⟩ := List.mem_filterMap.mp ha
    obtain ⟨_, -, rfl⟩ := Option.map_eq_some_iff.mp hid
    rfl
  refine List.pairwise_flatMap.mpr ⟨fun entry _ => ?_, ?_⟩
  · refine List.pairwise_of_forall_mem_list fun a ha b hb => ?_
    rw [hposition ha, hposition hb]
    simp [Position.atMost]
  · refine (tournamentDrawRows_sorted data).imp fun {x y} hxy a ha b hb => ?_
    rw [hposition ha, hposition hb]
    exact hxy.1

/-- The index finds the first row of a matchUp. -/
theorem find_shardIndex (t : Table String IndexRow) (data : Jsonb) (id : String) :
    (shardIndex render t data).find id =
      ((matchUpRows render data).lookup id).map Prod.snd := by
  have hsorted : ((matchUpRows render data).mergeSort fun a b => a.2.1.atMost b.2.1) =
      matchUpRows render data := List.mergeSort_of_pairwise (matchUpRows_sorted data)
  have hnodup : ((indexRows render data).map Prod.fst).Nodup := by
    have hkeys := (distinctOn_keys [] (matchUpRows render data)).1
    rw [indexRows, hsorted, List.map_map]
    exact hkeys
  unfold shardIndex
  dsimp only
  rw [find_rewritten t hnodup fun _ => decide_eq_true_iff, indexRows, hsorted]
  refine (lookup_map_row Prod.snd (distinctOn [] (matchUpRows render data)) id).trans ?_
  rw [lookup_distinctOn, if_neg List.not_mem_nil]

/-- The shards of a record are its own, whatever the tables were. -/
theorem faithful_shard (s : Shards) (d : Document) :
    Faithful render (shardTournament render s d.value) d.value where
  reassembled := tournamentReassemble_shard s d
  participants o row := by
    refine (iff_of_eq (congrArg (· = some row)
      (find_shardParticipants s.participants d.value o))).trans ?_
    rw [Option.map_eq_some_iff]
    exact ⟨fun ⟨p, hp, hrow⟩ => ⟨p, hp, hrow.symm⟩, fun ⟨p, hp, hrow⟩ => ⟨p, hp, hrow.symm⟩⟩
  draws position row := find_shardDraws s.draws d.value position row
  indexed id := by
    change ((shardIndex render s.matchUpIndex d.value).find id).isSome = true ↔ _
    rw [find_shardIndex, Option.isSome_map]
    constructor
    · intro hsome
      obtain ⟨⟨position, row⟩, hrow⟩ := Option.isSome_iff_exists.mp hsome
      obtain ⟨before, after, hsplit, -⟩ := List.lookup_eq_some_iff.mp hrow
      have hin : (id, position, row) ∈ matchUpRows render d.value := by
        rw [hsplit]
        exact List.mem_append_right _ List.mem_cons_self
      obtain ⟨draw, hdraw, hholds, -⟩ := (mem_matchUpRows d.value id position row).mp hin
      exact ⟨position, draw, hdraw, hholds⟩
    · rintro ⟨position, draw, hdraw, hholds⟩
      have hin := (mem_matchUpRows d.value id position _).mpr ⟨draw, hdraw, hholds, rfl⟩
      rw [Option.isSome_iff_ne_none]
      intro hnone
      have habsent := List.lookup_eq_none_iff.mp hnone _ hin
      simp at habsent
  first id row hfind := by
    change (shardIndex render s.matchUpIndex d.value).find id = some row at hfind
    rw [find_shardIndex] at hfind
    obtain ⟨⟨position, _⟩, hrow, rfl⟩ := Option.map_eq_some_iff.mp hfind
    obtain ⟨before, after, hsplit, hbefore⟩ := List.lookup_eq_some_iff.mp hrow
    have hsorted : (matchUpRows render d.value).Pairwise fun a b =>
        a.2.1.atMost b.2.1 = true := matchUpRows_sorted d.value
    have hrows : ∀ position row, (id, position, row) ∈ matchUpRows render d.value ↔ _ :=
      mem_matchUpRows d.value id
    rw [hsplit] at hsorted hrows
    obtain ⟨draw, hdraw, hholds, rfl⟩ :=
      (hrows position _).mp (List.mem_append_right _ List.mem_cons_self)
    refine ⟨position, draw, hdraw, hholds, rfl, fun position' draw' hdraw' hholds' => ?_⟩
    rcases List.mem_append.mp ((hrows position' _).mpr ⟨draw', hdraw', hholds', rfl⟩) with
      hearlier | hlater
    · have hother := hbefore _ hearlier
      simp at hother
    · rcases List.mem_cons.mp hlater with hsame | hafter
      · have hposition : position' = position := congrArg (fun entry => entry.2.1) hsame
        simp [hposition, Position.atMost]
      · exact List.rel_of_pairwise_cons (List.pairwise_append.mp hsorted).2.1 hafter

/-! ## Whole histories -/

/-- A write brings the shards of its tournament in step. -/
theorem inStep_write (db : Database) (id : String) (d : Document) :
    InStep render (shardStep render db (.write id d)) id := by
  intro d' hlayout hdata
  unfold shardStep shardSync at *
  dsimp only at *
  split_ifs at hlayout hdata ⊢ with hsharded
  · dsimp only at hdata ⊢
    rw [Function.update_self] at hdata ⊢
    cases hdata
    exact faithful_shard _ d
  · exact absurd hlayout hsharded

/-- No statement takes the shards of a tournament out of step. -/
theorem inStep_step {db : Database} {id : String} (hstep : InStep render db id)
    (a : ShardAction) : InStep render (shardStep render db a) id := by
  cases a with
  | write other d =>
    by_cases hother : id = other
    · rw [hother]
      exact inStep_write db other d
    · intro d' hlayout hdata
      unfold shardStep shardSync at *
      dsimp only at *
      split_ifs at hlayout hdata ⊢ <;>
        simp only [Function.update_of_ne hother] at hlayout hdata ⊢ <;>
        exact hstep d' hlayout hdata
  | delete other =>
    intro d' hlayout hdata
    simp only [shardStep] at hlayout hdata ⊢
    by_cases hother : id = other
    · rw [hother, Function.update_self] at hdata
      cases hdata
    · rw [Function.update_of_ne hother] at hlayout hdata ⊢
      exact hstep d' hlayout hdata
  | setLayout other layout =>
    intro d' hlayout hdata
    simp only [shardStep, setTournamentStorageLayout] at hlayout hdata ⊢
    split_ifs at hlayout hdata ⊢ with hdocument hunknown
    · dsimp only at hlayout hdata ⊢
      by_cases hother : id = other
      · rw [hother, Function.update_self] at hlayout
        cases hlayout
      · rw [Function.update_of_ne hother] at hlayout ⊢
        exact hstep d' hlayout hdata
    · exact hstep d' hlayout hdata
    · cases hstored : db.data other with
      | none =>
        rw [hstored] at hlayout hdata
        exact hstep d' hlayout hdata
      | some d =>
        rw [hstored] at hlayout hdata
        dsimp only at hlayout hdata ⊢
        split_ifs at hlayout hdata ⊢ with hdrift
        · exact hstep d' hlayout hdata
        · dsimp only at hlayout hdata ⊢
          by_cases hother : id = other
          · subst hother
            rw [Function.update_self]
            cases hstored.symm.trans hdata
            exact faithful_shard _ _
          · rw [Function.update_of_ne hother] at hlayout ⊢
            exact hstep d' hlayout hdata

/-- Once in step, the shards of a tournament stay in step. -/
theorem inStep_run {db : Database} {id : String} (hstep : InStep render db id)
    (actions : List ShardAction) : InStep render (actions.foldl (shardStep render) db) id := by
  induction actions generalizing db with
  | nil => exact hstep
  | cons a rest ih => exact ih (inStep_step hstep a)

/-- Whatever the tables were: after any history of writes the shards are those of the
record last written, and among any other statements they stay so. -/
theorem shards_round_trip (render : Jsonb → String) :
    (∀ (s : Shards) (history : List Document) (last : Document),
      Faithful render ((history ++ [last]).foldl
        (fun s d => shardTournament render s d.value) s) last.value) ∧
    ∀ (db : Database) (actions : List ShardAction) (id : String),
      (InStep render db id ∨ ∃ d, .write id d ∈ actions) →
        InStep render (actions.foldl (shardStep render) db) id := by
  refine ⟨fun s history last => ?_, fun db actions id hwritten => ?_⟩
  · rw [List.foldl_append]
    exact faithful_shard _ last
  · rcases hwritten with hstart | ⟨d, hwrite⟩
    · exact inStep_run hstart actions
    · obtain ⟨before, after, rfl⟩ := List.append_of_mem hwrite
      rw [List.foldl_append, List.foldl_cons]
      exact inStep_run (inStep_write _ id d) after

/-! ## A tournament that is sharded and written again -/

/-- A record with one participant and one draw. -/
def oneDraw : Document where
  value := .obj [
    ("events", .arr [.obj [("eventId", .str "e"),
      ("drawDefinitions", .arr [.obj [("drawId", .str "d"),
        ("structures", .arr [.obj [("matchUps", .arr [.obj [("matchUpId", .str "m")]])]])]])]]),
    ("participants", .arr [.obj [("participantId", .str "p")]])]
  object := ⟨_, rfl, by unfold Ordered; decide⟩
  canonical := by
    simp only [Jsonb.Canonical, CanonicalItems, CanonicalFields, Ordered]
    decide

/-- A record whose draws and participants are gone. -/
def noDraws : Document where
  value := .obj [("events", .arr [.obj [("eventId", .str "e")]])]
  object := ⟨_, rfl, by unfold Ordered; decide⟩
  canonical := by
    simp only [Jsonb.Canonical, CanonicalItems, CanonicalFields, Ordered]
    decide

/-- The tables before the first write. -/
def emptyDatabase : Database where
  data _ := none
  layout _ := none
  shards _ := .none

/-- The tournament is written, sharded and written again. -/
theorem shards_round_trip_twice :
    Faithful (fun _ => "") ((([.write "t" oneDraw, .setLayout "t" "sharded", .write "t" noDraws] :
      List ShardAction).foldl (shardStep fun _ => "") emptyDatabase).shards "t") noDraws.value := by
  refine (shards_round_trip fun _ => "").2 emptyDatabase _ "t"
    (Or.inr ⟨noDraws, by simp⟩) noDraws ?_ ?_ <;>
    simp [shardStep, shardSync, setTournamentStorageLayout, tournamentReassemble_shard,
      emptyDatabase]

end FactoryServer.RecordShards
