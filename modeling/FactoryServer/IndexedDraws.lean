import Mathlib.Data.List.Dedup
import FactoryServer.DurableSave
import FactoryServer.RecordShards

/-!
# Draws of score entries from the index and from the record

A score entry that names its matchUp but no draw gets its draw from the index of a sharded
tournament, and what is left is looked up in the record. The index keeps ids as texts and a
draw with an empty id as well, where the record is compared as it is and an empty draw id is
not taken. The index resolves an entry as the record does where its id and those of its draw
are strings, the draw's not empty.
-/

namespace FactoryServer.IndexedDraws

open JsonValue JsonbValues RecordShards TournamentAccess StorageTables TournamentStorage
  ExecutionQueue CallbackOutcomes DurableSave

/-! ## The record and its index -/

/-- What `fetchMatchUpDraws` finds: the index of a sharded tournament, where it names a draw. -/
def storedIndex (db : Database) (tournamentId matchUpId : String) :
    Option (String × Option String) :=
  if db.layout tournamentId = some .sharded then
    ((db.shards tournamentId).matchUpIndex.find matchUpId).bind fun row =>
      row.drawId.map (·, row.eventId)
  else none

/-- The draw at a position of the record, and its event. -/
structure DrawOf (data : Jsonb) (position : Position) (ev dd : Jsonb) : Prop where
  /-- The event. -/
  event : (elements (data.get "events"))[position.1]? = some ev
  /-- The draw. -/
  draw : (elements (ev.get "drawDefinitions"))[position.2]? = some dd

/-- A structure of a draw, however deep. -/
inductive NestedStructure (draw : Jsonb) : Jsonb → Prop where
  | top {value : Jsonb} (h : value ∈ draw.step "structures") : NestedStructure draw value
  | nested {group value : Jsonb} (h : NestedStructure draw group)
      (h' : value ∈ group.step "structures") : NestedStructure draw value

/-- A matchUp of a draw, as the engine lists them. -/
inductive MatchUpIn (draw : Jsonb) : Jsonb → Prop where
  | matchUp {value m : Jsonb} (h : NestedStructure draw value) (h' : m ∈ value.step "matchUps") :
      MatchUpIn draw m
  | tieMatchUp {value m tie : Jsonb} (h : NestedStructure draw value)
      (h' : m ∈ value.step "matchUps") (h'' : tie ∈ m.step "tieMatchUps") : MatchUpIn draw tie

/-- The structures of a draw are nested at most one level. -/
def NestedOnce (draw : Jsonb) : Prop :=
  ∀ group ∈ draw.step "structures", ∀ value ∈ group.step "structures",
    value.step "structures" = []

/-- The draw has a matchUp of this very id. -/
def HasMatchUp (draw : Jsonb) (matchUpId : String) : Prop :=
  ∃ m, MatchUpIn draw m ∧ m.get "matchUpId" = some (.str matchUpId)

/-- A record as the claim takes it: structures nested at most one level, and no matchUp id in two
draws. -/
structure WellFormed (render : Jsonb → String) (data : Jsonb) : Prop where
  /-- Groups have no structures of their own. -/
  nested : ∀ position ev dd, DrawOf data position ev dd → NestedOnce dd
  /-- An id belongs to one draw. -/
  unique : ∀ id position ev dd position' ev' dd', DrawOf data position ev dd →
    Holds render dd id → DrawOf data position' ev' dd' → Holds render dd' id →
      position = position'

/-- `JSON.parse` of a column value. -/
structure Parses (parse : Jsonb → Json) : Prop where
  /-- A string is itself. -/
  str : ∀ s, parse (.str s) = .str s
  /-- Nothing else becomes a string. -/
  eq_str : ∀ {value s}, parse value = .str s → value = .str s
  /-- `null` is `null`. -/
  null : parse .null = .null

/-- The draw and the event that a matchUp is returned with. -/
def drawOf (parse : Jsonb → Json) (ev dd : Jsonb) : Option (Json × Option Json) :=
  ((dd.get "drawId").map parse).bind fun drawId =>
    if truthy (some drawId) then some (drawId, (ev.get "eventId").map parse) else none

/-- `findMatchUp` returns the matchUp of an id with its draw and its event. -/
structure Finds (engine : Engine) (parse : Jsonb → Json) (record : TournamentRecord)
    (data : Jsonb) : Prop where
  /-- A matchUp of the record. -/
  found : ∀ position ev dd id, DrawOf data position ev dd → HasMatchUp dd id →
    engine.findMatchUp record (.str id) = .ok (drawOf parse ev dd)
  /-- No matchUp of the record. -/
  missing : ∀ id, (∀ position ev dd, DrawOf data position ev dd → ¬ HasMatchUp dd id) →
    engine.findMatchUp record (.str id) = .ok none
  /-- An id must be a string. -/
  mistyped : ∀ id, id.str? = none → engine.findMatchUp record id = .ok none

/-! ## What is claimed -/

/-- The property key of the matchUp that an entry scores. -/
def matchUpKey (method : Json) : String := (scoredMatchUpId method).propertyKey

/-- The ids of an entry, of its matchUp and of its draw are strings, the draw's not empty. -/
structure Named (method : Json) (ev dd : Jsonb) : Prop where
  /-- The entry names its matchUp by a string. -/
  scored : scoredMatchUpId method = .str (matchUpKey method)
  /-- It is the id of a matchUp of the draw. -/
  matchUp : HasMatchUp dd (matchUpKey method)
  /-- The id of the draw. -/
  drawId : ∃ id, id ≠ "" ∧ dd.get "drawId" = some (.str id)
  /-- The id of the event. -/
  eventId : ∀ value, ev.get "eventId" = some value → value = .null ∨ ∃ id, value = .str id

/-- The draw has an empty id, its event has none, and the entry has the empty id already. -/
structure Blank (render : Jsonb → String) (method : Json) (ev dd : Jsonb) : Prop where
  /-- The id of the draw. -/
  drawId : dd.getText render "drawId" = some ""
  /-- The id of the event. -/
  eventId : (ev.getText render "eventId").getD "" = ""
  /-- Writing the id changes nothing. -/
  written : withDraw method (.str "") none = method

/-- The index and the record agree on a score entry, when its matchUp is among those asked for. -/
def EntryAgrees (render : Jsonb → String) (data : Jsonb) (texts : List String) (method : Json) :
    Prop :=
  isUnresolvedScore method = true → matchUpKey method ∈ texts →
    ∀ position ev dd, DrawOf data position ev dd → Holds render dd (matchUpKey method) →
      (dd.getText render "drawId").isSome = true →
        Named method ev dd ∨ Blank render method ev dd

/-- They agree on the queue: the index is not asked, or the driver sends the ids and they agree on
every entry. -/
def AgreeOn (x : External) (render : Jsonb → String) (data : Jsonb) (tournamentId : String)
    (methods : List Json) : Prop :=
  tournamentId = "" ∨ methods.filter isUnresolvedScore = [] ∨
    ∃ texts, x.pg.textArray (.arr ((methods.filter isUnresolvedScore).map scoredMatchUpId)) =
        some texts ∧ ∀ method ∈ methods, EntryAgrees render data texts method

/-! ## Writing a draw into an entry -/

/-- What makes a method a score entry without a draw. -/
structure Unresolved (method : Json) (fields params : List (String × Json)) : Prop where
  /-- The method is an object. -/
  object : method = .obj fields
  /-- So are its parameters. -/
  parameters : method.field? "params" = some (.obj params)
  /-- It is a score. -/
  name : method.field? "method" = some (.str "setMatchUpStatus")
  /-- It names its matchUp. -/
  matchUpId : truthy ((Json.obj params).field? "matchUpId") = true
  /-- It names no draw. -/
  drawId : truthy ((Json.obj params).field? "drawId") = false
  /-- It names no event. -/
  eventId : truthy ((Json.obj params).field? "eventId") = false

/-- A score entry without a draw is an object with parameters. -/
theorem unresolved_of {method : Json} (h : isUnresolvedScore method = true) :
    ∃ fields params, Unresolved method fields params := by
  simp only [isUnresolvedScore, Bool.and_eq_true, Bool.not_eq_true'] at h
  obtain ⟨⟨⟨hname, hmatchUp⟩, hdraw⟩, hevent⟩ := h
  cases hm : method.field? "method" with
  | none => rw [hm] at hname; cases hname
  | some name =>
    obtain ⟨fields, rfl⟩ := Json.obj_of_field hm
    rw [hm] at hname
    cases name with
    | str text =>
      have htext : text = "setMatchUpStatus" := beq_iff_eq.mp hname
      cases hp : (Json.obj fields).field? "params" with
      | none => rw [hp] at hmatchUp; cases hmatchUp
      | some value =>
        rw [hp] at hmatchUp hdraw hevent
        have hobject : truthy (value.field? "matchUpId") = true := hmatchUp
        obtain ⟨params, rfl⟩ := Json.obj_of_truthy_field hobject
        exact ⟨fields, params, rfl, hp, by rw [hm, htext], hmatchUp, hdraw, hevent⟩
    | null => cases hname
    | bool b => cases hname
    | num n => cases hname
    | arr items => cases hname
    | obj others => cases hname

section Written

variable {method : Json} {fields params : List (String × Json)}

/-- The parameters after a draw is written. -/
theorem params_withDraw (method drawId : Json) (eventId : Option Json) :
    (withDraw method drawId eventId).field? "params" = some (spread (method.field? "params")
      (("drawId", drawId) :: (eventId.filter fun e => truthy (some e)).toList.map
        (("eventId", ·)))) :=
  field_spread_assigned (some method) [] _ (by simp)

/-- The draw that is written. -/
theorem drawId_withDraw (method drawId : Json) (eventId : Option Json) :
    chain ((withDraw method drawId eventId).field? "params") "drawId" = some drawId := by
  rw [params_withDraw]
  refine field_spread_assigned (method.field? "params") [] drawId fun f hf => ?_
  obtain ⟨event, -, rfl⟩ := List.mem_map.mp hf
  simp

/-- The event that is written, when there is one. -/
theorem eventId_withDraw (h : Unresolved method fields params) (drawId : Json)
    (eventId : Option Json) :
    chain ((withDraw method drawId eventId).field? "params") "eventId" =
      if truthy eventId then eventId else (Json.obj params).field? "eventId" := by
  rw [params_withDraw]
  cases eventId with
  | none =>
    rw [h.parameters]
    exact field_spread_obj params (by simp)
  | some event =>
    cases htruthy : truthy (some event) with
    | true =>
      rw [Option.filter_some, if_pos htruthy]
      exact field_spread_assigned (method.field? "params") [("drawId", drawId)] event (by simp)
    | false =>
      rw [Option.filter_some, htruthy, h.parameters]
      exact field_spread_obj params (by simp)

/-- The name of the method stays. -/
theorem name_withDraw (h : Unresolved method fields params) (drawId : Json)
    (eventId : Option Json) :
    (withDraw method drawId eventId).field? "method" = some (.str "setMatchUpStatus") := by
  rw [← h.name, h.object]
  exact field_spread_obj fields (by simp)

/-- So does its matchUp. -/
theorem matchUpId_withDraw (h : Unresolved method fields params) (drawId : Json)
    (eventId : Option Json) :
    chain ((withDraw method drawId eventId).field? "params") "matchUpId" =
      (Json.obj params).field? "matchUpId" := by
  rw [params_withDraw, h.parameters]
  refine field_spread_obj params fun f hf => ?_
  rcases List.mem_cons.mp hf with rfl | hevent
  · simp
  · obtain ⟨event, -, rfl⟩ := List.mem_map.mp hevent
    simp

/-- The matchUp that is scored stays. -/
theorem scoredMatchUpId_withDraw (h : Unresolved method fields params) (drawId : Json)
    (eventId : Option Json) :
    scoredMatchUpId (withDraw method drawId eventId) = scoredMatchUpId method := by
  rw [scoredMatchUpId, matchUpId_withDraw h, scoredMatchUpId, h.parameters]
  rfl

/-- An entry is resolved by a draw or an event that is not falsy. -/
theorem isUnresolvedScore_withDraw (h : Unresolved method fields params) (drawId : Json)
    (eventId : Option Json) :
    isUnresolvedScore (withDraw method drawId eventId) =
      (!truthy (some drawId) && !truthy eventId) := by
  have hevent : truthy (if truthy eventId then eventId else (Json.obj params).field? "eventId") =
      truthy eventId := by
    split
    · rfl
    · rename_i hfalsy
      rw [h.eventId, Bool.eq_false_iff.mpr hfalsy]
  simp only [isUnresolvedScore, name_withDraw h, matchUpId_withDraw h, drawId_withDraw,
    eventId_withDraw h, h.matchUpId, hevent]
  simp

/-- What is written can be read. -/
theorem withDraw_inj (h : Unresolved method fields params) {drawId other : Json}
    {eventId otherEvent : Option Json}
    (heq : withDraw method drawId eventId = withDraw method other otherEvent) :
    drawId = other ∧ (eventId.filter fun e => truthy (some e)) =
      otherEvent.filter fun e => truthy (some e) := by
  have hdraw := drawId_withDraw method drawId eventId
  have hevent := eventId_withDraw h drawId eventId
  rw [heq, drawId_withDraw] at hdraw
  rw [heq, eventId_withDraw h] at hevent
  have hfilter : ∀ event : Option Json, (event.filter fun e => truthy (some e)) =
      (if truthy event then event else (Json.obj params).field? "eventId").filter
        fun e => truthy (some e) := by
    intro event
    cases htruthy : truthy event with
    | true => rfl
    | false =>
      have hparams := h.eventId
      have hnone : ∀ value : Option Json, truthy value = false →
          (value.filter fun e => truthy (some e)) = none := by
        intro value hvalue
        cases value with
        | none => rfl
        | some e => simp [hvalue]
      rw [hnone event htruthy]
      exact (hnone _ hparams).symm
  exact ⟨(Option.some.inj hdraw).symm, by rw [hfilter eventId, hfilter otherEvent, hevent]⟩

/-- Only an event that is not falsy is written. -/
theorem withDraw_congr (method drawId : Json) {eventId other : Option Json}
    (h : (eventId.filter fun e => truthy (some e)) = other.filter fun e => truthy (some e)) :
    withDraw method drawId eventId = withDraw method drawId other := by
  rw [withDraw, withDraw, h]

/-- An entry that is resolved has changed. -/
theorem withDraw_ne (hm : isUnresolvedScore method = true) {drawId : Json} {eventId : Option Json}
    (hwritten : truthy (some drawId) = true ∨ truthy eventId = true) :
    withDraw method drawId eventId ≠ method := by
  obtain ⟨fields, params, h⟩ := unresolved_of hm
  intro heq
  have hresolved := isUnresolvedScore_withDraw h drawId eventId
  rw [heq, hm] at hresolved
  obtain hdraw | hevent := hwritten
  · rw [hdraw] at hresolved
    cases hresolved
  · rw [hevent, Bool.not_true, Bool.and_false] at hresolved
    cases hresolved

end Written

/-! ## What the index holds -/

section Indexed

variable {render : Jsonb → String} {parse : Jsonb → Json}

/-- A draw of the record with its ids as texts. -/
theorem drawAt_iff (data : Jsonb) (position : Position) (row : DrawRow) :
    DrawAt render data position row ↔ ∃ ev dd, DrawOf data position ev dd ∧
      row = ⟨ev.getText render "eventId", dd.getText render "drawId", dd⟩ :=
  ⟨fun ⟨ev, dd, hev, hdd, hrow⟩ => ⟨ev, dd, ⟨hev, hdd⟩, hrow⟩,
    fun ⟨ev, dd, hof, hrow⟩ => ⟨ev, dd, hof.event, hof.draw, hrow⟩⟩

/-- A position has one draw. -/
theorem DrawOf.unique {data : Jsonb} {position : Position} {ev dd ev' dd' : Jsonb}
    (h : DrawOf data position ev dd) (h' : DrawOf data position ev' dd') : ev = ev' ∧ dd = dd' := by
  have hev : ev = ev' := Option.some.inj (h.event.symm.trans h'.event)
  subst hev
  exact ⟨rfl, Option.some.inj (h.draw.symm.trans h'.draw)⟩

/-- The index names the draw that holds a matchUp, when it has an id. -/
theorem storedIndex_iff {db : Database} {tournamentId : String} {d : Document}
    (hsharded : db.layout tournamentId = some .sharded) (hdata : db.data tournamentId = some d)
    (hstep : InStep render db tournamentId) (hformed : WellFormed render d.value)
    (matchUpId drawId : String) (eventId : Option String) :
    storedIndex db tournamentId matchUpId = some (drawId, eventId) ↔
      ∃ position ev dd, DrawOf d.value position ev dd ∧ Holds render dd matchUpId ∧
        dd.getText render "drawId" = some drawId ∧ ev.getText render "eventId" = eventId := by
  have hfaithful := hstep d hsharded hdata
  rw [storedIndex, if_pos hsharded]
  constructor
  · intro hfound
    obtain ⟨row, hrow, hid⟩ := Option.bind_eq_some_iff.mp hfound
    obtain ⟨position, draw, hdraw, hholds, rfl, -⟩ := hfaithful.first matchUpId row hrow
    obtain ⟨ev, dd, hof, rfl⟩ := (drawAt_iff d.value position draw).mp hdraw
    obtain ⟨text, htext, hpair⟩ := Option.map_eq_some_iff.mp hid
    cases hpair
    exact ⟨position, ev, dd, hof, hholds, htext, rfl⟩
  · rintro ⟨position, ev, dd, hof, hholds, hid, rfl⟩
    have hindexed := (hfaithful.indexed matchUpId).mpr
      ⟨position, _, (drawAt_iff d.value position _).mpr ⟨ev, dd, hof, rfl⟩, hholds⟩
    obtain ⟨row, hrow⟩ := Option.isSome_iff_exists.mp hindexed
    obtain ⟨position', draw, hdraw, hholds', rfl, -⟩ := hfaithful.first matchUpId row hrow
    obtain ⟨ev', dd', hof', rfl⟩ := (drawAt_iff d.value position' draw).mp hdraw
    have hposition := hformed.unique matchUpId position ev dd position' ev' dd' hof hholds hof'
      hholds'
    subst hposition
    obtain ⟨rfl, rfl⟩ := hof.unique hof'
    simp [hrow, hid]

/-- Looking up a key among the answers for the keys that are asked for. -/
theorem lookup_answers {α : Type} (f : String → Option α) (keys : List String) (key : String) :
    (keys.filterMap fun k => (f k).map (k, ·)).lookup key = if key ∈ keys then f key else none := by
  induction keys with
  | nil => rfl
  | cons first rest ih =>
    by_cases hkey : key = first
    · subst hkey
      cases hf : f key with
      | none => simp [hf, ih]
      | some value => simp [hf]
    · cases hf : f first with
      | none => simp [hf, ih, hkey]
      | some value => simp [hf, ih, hkey, List.lookup_cons, beq_false_of_ne hkey]

/-! ## What the record gives -/

/-- The engine walks no deeper than the index. -/
theorem matchUpIn_iff {draw : Jsonb} (h : NestedOnce draw) (m : Jsonb) :
    MatchUpIn draw m ↔ MatchUpOf draw m := by
  have hstructure : ∀ value, NestedStructure draw value → StructureOf draw value := by
    intro value hvalue
    induction hvalue with
    | top htop => exact .top htop
    | @nested group value hgroup hin ih =>
      cases ih with
      | top htop => exact .nested htop hin
      | @nested outer _ houter hinner =>
        rw [h outer houter group hinner] at hin
        cases hin
  have hback : ∀ value, StructureOf draw value → NestedStructure draw value := by
    intro value hvalue
    cases hvalue with
    | top htop => exact .top htop
    | nested hgroup hin => exact .nested (.top hgroup) hin
  constructor
  · intro hm
    cases hm with
    | matchUp hvalue hin => exact .matchUp (hstructure _ hvalue) hin
    | tieMatchUp hvalue hin htie => exact .tieMatchUp (hstructure _ hvalue) hin htie
  · intro hm
    cases hm with
    | matchUp hvalue hin => exact .matchUp (hback _ hvalue) hin
    | tieMatchUp hvalue hin htie => exact .tieMatchUp (hback _ hvalue) hin htie

/-- A matchUp of an id is one that the index lists under it. -/
theorem holds_of_hasMatchUp {draw : Jsonb} (h : NestedOnce draw) {id : String}
    (hm : HasMatchUp draw id) : Holds render draw id := by
  obtain ⟨m, hin, hid⟩ := hm
  exact ⟨m, (matchUpIn_iff h m).mp hin, by rw [Jsonb.getText, hid]⟩

/-- A score entry with the draw found for its matchUp. -/
def recordEntry (found : Json → Option (Json × Option Json)) (method : Json) : Json :=
  if isUnresolvedScore method then
    match found (scoredMatchUpId method) with
    | none => method
    | some (drawId, eventId) => withDraw method drawId eventId
  else method

/-- A score entry with the draw of the index. -/
def indexEntry (draws : List (String × String × Option String)) (method : Json) : Json :=
  if isUnresolvedScore method then
    match draws.lookup (matchUpKey method) with
    | none => method
    | some (drawId, eventId) => withDraw method (.str drawId) (eventId.map .str)
  else method

/-- The record resolves one entry after the other. -/
theorem resolveMatchUpReferences_eq {engine : Engine} {record : TournamentRecord}
    {found : Json → Option (Json × Option Json)}
    (hfound : ∀ id, engine.findMatchUp record id = .ok (found id)) (tournamentId : String)
    (methods : List Json) :
    resolveMatchUpReferences engine [(tournamentId, record)] methods =
      .ok (methods.map (recordEntry found)) := by
  have hone : ∀ method : Json, (if isUnresolvedScore method then
      (engine.findMatchUp record (scoredMatchUpId method)).map fun found =>
        match found with
        | none => method
        | some (drawId, eventId) => withDraw method drawId eventId
      else .ok method) = .ok (recordEntry found method) := by
    intro method
    rw [hfound, recordEntry]
    split <;> rfl
  refine (congrArg (fun f => List.mapM f methods) (funext hone)).trans ?_
  induction methods with
  | nil => rfl
  | cons method rest ih => rw [List.mapM_cons, ih]; rfl

/-- The engine answers for every id. -/
theorem Finds.answers {engine : Engine} {record : TournamentRecord} {data : Jsonb}
    (h : Finds engine parse record data) :
    ∃ found : Json → Option (Json × Option Json),
      ∀ id, engine.findMatchUp record id = .ok (found id) := by
  have hid : ∀ id, ∃ answer, engine.findMatchUp record id = .ok answer := by
    intro id
    cases hstr : id.str? with
    | none => exact ⟨none, h.mistyped id hstr⟩
    | some text =>
      have hid : id = .str text := by
        cases id with
        | str s => rw [Option.some.inj hstr]
        | _ => cases hstr
      subst hid
      by_cases hin : ∃ position ev dd, DrawOf data position ev dd ∧ HasMatchUp dd text
      · obtain ⟨position, ev, dd, hof, hm⟩ := hin
        exact ⟨_, h.found position ev dd text hof hm⟩
      · exact ⟨none, h.missing text fun position ev dd hof hm =>
          hin ⟨position, ev, dd, hof, hm⟩⟩
  exact ⟨fun id => (hid id).choose, fun id => (hid id).choose_spec⟩

/-! ## One entry -/

/-- A text is that of a string, or of a value that is rendered. -/
theorem getText_cases {value : Jsonb} {key text : String}
    (h : value.getText render key = some text) :
    value.get key = some (.str text) ∨
      ∃ found, value.get key = some found ∧ (∀ s, found ≠ .str s) ∧ text = render found := by
  rw [Jsonb.getText] at h
  cases hget : value.get key with
  | none => rw [hget] at h; cases h
  | some found =>
    rw [hget] at h
    cases found with
    | null => cases h
    | str s => exact .inl (by rw [Option.some.inj h])
    | bool b => exact .inr ⟨_, rfl, nofun, (Option.some.inj h).symm⟩
    | num q => exact .inr ⟨_, rfl, nofun, (Option.some.inj h).symm⟩
    | arr items => exact .inr ⟨_, rfl, nofun, (Option.some.inj h).symm⟩
    | obj fields => exact .inr ⟨_, rfl, nofun, (Option.some.inj h).symm⟩

/-- The index and the record write the same event when its id is absent, `null` or a string. -/
theorem event_iff (hrender : ∀ value, render value ≠ "") (hparse : Parses parse) (ev : Jsonb) :
    (((ev.getText render "eventId").map Json.str).filter fun e => truthy (some e)) =
        ((ev.get "eventId").map parse).filter (fun e => truthy (some e)) ↔
      ∀ value, ev.get "eventId" = some value → value = .null ∨ ∃ id, value = .str id := by
  cases hget : ev.get "eventId" with
  | none => simp [Jsonb.getText, hget]
  | some value =>
    have hcases : (∀ id, value ≠ .str id) → value ≠ .null →
        ev.getText render "eventId" = some (render value) →
        ((((ev.getText render "eventId").map Json.str).filter fun e => truthy (some e)) =
            ((some value).map parse).filter (fun e => truthy (some e)) ↔
          ∀ v, some value = some v → v = .null ∨ ∃ id, v = .str id) := by
      intro hstr hnull htext
      have hkept : truthy (some (Json.str (render value))) = true := by
        simpa [truthy] using hrender value
      refine iff_of_false (fun heq => ?_) fun hall => ?_
      · rw [htext, Option.map_some, Option.filter_some, if_pos hkept] at heq
        have hparsed := (Option.filter_eq_some_iff.mp heq.symm).1
        exact hstr _ (hparse.eq_str (Option.some.inj hparsed))
      · obtain hv | ⟨id, hid⟩ := hall value rfl
        · exact hnull hv
        · exact hstr id hid
    cases value with
    | null =>
      refine iff_of_true ?_ fun v hv => .inl (Option.some.inj hv).symm
      rw [Jsonb.getText, hget, Option.map_some, hparse.null]
      rfl
    | str s =>
      refine iff_of_true ?_ fun v hv => .inr ⟨s, (Option.some.inj hv).symm⟩
      simp [Jsonb.getText, hget, hparse.str]
    | bool b => exact hcases (by simp) (by simp) (by rw [Jsonb.getText, hget])
    | num q => exact hcases (by simp) (by simp) (by rw [Jsonb.getText, hget])
    | arr items => exact hcases (by simp) (by simp) (by rw [Jsonb.getText, hget])
    | obj fields => exact hcases (by simp) (by simp) (by rw [Jsonb.getText, hget])

section Entry

variable {found : Json → Option (Json × Option Json)} {method : Json} {ev dd : Jsonb}
  {drawId : String}

/-- An entry that the index resolves by an id that is not empty. -/
theorem entry_named (hrender : ∀ value, render value ≠ "") (hparse : Parses parse)
    (hm : isUnresolvedScore method = true) (hid : dd.getText render "drawId" = some drawId)
    (hne : drawId ≠ "")
    (hfound : scoredMatchUpId method = .str (matchUpKey method) →
      HasMatchUp dd (matchUpKey method) → found (scoredMatchUpId method) = drawOf parse ev dd)
    (hmissing : ¬ (scoredMatchUpId method = .str (matchUpKey method) ∧
      HasMatchUp dd (matchUpKey method)) → found (scoredMatchUpId method) = none) :
    recordEntry found (withDraw method (.str drawId)
        ((ev.getText render "eventId").map .str)) = recordEntry found method ↔
      Named method ev dd ∨ Blank render method ev dd := by
  obtain ⟨fields, params, h⟩ := unresolved_of hm
  have htruthy : truthy (some (Json.str drawId)) = true := by simpa [truthy] using hne
  have hresolved : isUnresolvedScore (withDraw method (.str drawId)
      ((ev.getText render "eventId").map .str)) = false := by
    rw [isUnresolvedScore_withDraw h, htruthy]
    rfl
  have hblank : ¬ Blank render method ev dd := by
    intro hb
    rw [hb.drawId] at hid
    exact hne (Option.some.inj hid).symm
  have hchanged : withDraw method (.str drawId) ((ev.getText render "eventId").map .str) ≠ method :=
    withDraw_ne hm (.inl htruthy)
  rw [or_iff_left hblank, recordEntry, hresolved, if_neg Bool.false_ne_true,
    recordEntry, if_pos hm]
  by_cases hn : scoredMatchUpId method = .str (matchUpKey method) ∧
      HasMatchUp dd (matchUpKey method)
  · rw [hfound hn.1 hn.2]
    obtain hget | ⟨value, hget, hstr, -⟩ := getText_cases hid
    · have hdraw : drawOf parse ev dd = some (.str drawId, (ev.get "eventId").map parse) := by
        rw [drawOf, hget, Option.map_some, hparse.str, Option.bind_some, if_pos htruthy]
      rw [hdraw]
      constructor
      · intro heq
        have hevent := (event_iff hrender hparse ev).mp (withDraw_inj h heq).2
        exact ⟨hn.1, hn.2, ⟨drawId, hne, hget⟩, hevent⟩
      · intro hnamed
        exact withDraw_congr method _ ((event_iff hrender hparse ev).mpr hnamed.eventId)
    · refine iff_of_false ?_ fun hnamed => ?_
      · cases hdraw : drawOf parse ev dd with
        | none => exact hchanged
        | some pair =>
          rw [drawOf, hget, Option.map_some, Option.bind_some] at hdraw
          split at hdraw
          · cases hdraw
            intro heq
            exact hstr _ (hparse.eq_str (withDraw_inj h heq).1.symm)
          · cases hdraw
      · obtain ⟨id, -, hother⟩ := hnamed.drawId
        rw [hget] at hother
        exact hstr id (Option.some.inj hother)
  · rw [hmissing hn]
    exact iff_of_false hchanged fun hnamed => hn ⟨hnamed.scored, hnamed.matchUp⟩

/-- An entry that the index gives an empty id. -/
theorem entry_blank (hrender : ∀ value, render value ≠ "") (hparse : Parses parse)
    (hm : isUnresolvedScore method = true) (hid : dd.getText render "drawId" = some "")
    (hfound : scoredMatchUpId method = .str (matchUpKey method) →
      HasMatchUp dd (matchUpKey method) → found (scoredMatchUpId method) = drawOf parse ev dd)
    (hmissing : ¬ (scoredMatchUpId method = .str (matchUpKey method) ∧
      HasMatchUp dd (matchUpKey method)) → found (scoredMatchUpId method) = none) :
    recordEntry found (withDraw method (.str "")
        ((ev.getText render "eventId").map .str)) = recordEntry found method ↔
      Named method ev dd ∨ Blank render method ev dd := by
  obtain ⟨fields, params, h⟩ := unresolved_of hm
  have hget : dd.get "drawId" = some (.str "") := by
    obtain hget | ⟨value, -, -, htext⟩ := getText_cases hid
    · exact hget
    · exact absurd htext.symm (hrender value)
  have hdraw : drawOf parse ev dd = none := by
    rw [drawOf, hget, Option.map_some, hparse.str]
    rfl
  have hnone : found (scoredMatchUpId method) = none := by
    by_cases hn : scoredMatchUpId method = .str (matchUpKey method) ∧
        HasMatchUp dd (matchUpKey method)
    · rw [hfound hn.1 hn.2, hdraw]
    · exact hmissing hn
  have hright : recordEntry found method = method := by
    rw [recordEntry, if_pos hm, hnone]
  have hnamed : ¬ Named method ev dd := by
    intro hnamed
    obtain ⟨id, hne, hother⟩ := hnamed.drawId
    rw [hget] at hother
    cases hother
    exact hne rfl
  rw [hright, or_iff_right hnamed]
  by_cases hblank : (ev.getText render "eventId").getD "" = ""
  · have hfilter : (((ev.getText render "eventId").map Json.str).filter
        fun e => truthy (some e)) = Option.filter (fun e => truthy (some e)) none := by
      cases htext : ev.getText render "eventId" with
      | none => rfl
      | some text =>
        rw [htext, Option.getD_some] at hblank
        rw [hblank]
        rfl
    have hopen := isUnresolvedScore_withDraw h (.str "") none
    have hleft : recordEntry found (withDraw method (.str "") none) =
        withDraw method (.str "") none := by
      rw [recordEntry, scoredMatchUpId_withDraw h, hnone]
      split <;> rfl
    rw [withDraw_congr method (.str "") hfilter, hleft]
    exact ⟨fun heq => ⟨hid, hblank, heq⟩, fun hb => hb.written⟩
  · have hevent : truthy ((ev.getText render "eventId").map Json.str) = true := by
      cases htext : ev.getText render "eventId" with
      | none => rw [htext] at hblank; exact absurd rfl hblank
      | some text =>
        rw [htext] at hblank
        simpa [truthy] using hblank
    have hresolved := isUnresolvedScore_withDraw h (.str "")
      ((ev.getText render "eventId").map .str)
    rw [hevent, Bool.not_true, Bool.and_false] at hresolved
    rw [recordEntry, hresolved]
    exact iff_of_false (withDraw_ne hm (.inr hevent)) fun hb => hblank hb.eventId

end Entry

/-! ## The queue -/

section Queue

variable {x : External} {engine : Engine} {db : Database} {tournamentId : String} {d : Document}
  {record : TournamentRecord} {found : Json → Option (Json × Option Json)}

/-- What the engine finds for an entry whose matchUp a draw holds. -/
theorem found_iff (hformed : WellFormed render d.value) (hfinds : Finds engine parse record d.value)
    (hanswers : ∀ id, engine.findMatchUp record id = .ok (found id)) {method : Json}
    {position : Position} {ev dd : Jsonb} (hof : DrawOf d.value position ev dd)
    (hholds : Holds render dd (matchUpKey method)) :
    (scoredMatchUpId method = .str (matchUpKey method) → HasMatchUp dd (matchUpKey method) →
      found (scoredMatchUpId method) = drawOf parse ev dd) ∧
    (¬ (scoredMatchUpId method = .str (matchUpKey method) ∧ HasMatchUp dd (matchUpKey method)) →
      found (scoredMatchUpId method) = none) := by
  constructor
  · intro hscored hm
    have hanswer := hanswers (.str (matchUpKey method))
    rw [hfinds.found position ev dd _ hof hm] at hanswer
    rw [hscored]
    exact (Except.ok.inj hanswer).symm
  · intro hnot
    have hnone : engine.findMatchUp record (scoredMatchUpId method) = .ok none := by
      by_cases hscored : scoredMatchUpId method = .str (matchUpKey method)
      · rw [hscored]
        refine hfinds.missing _ fun position' ev' dd' hof' hm' => hnot ⟨hscored, ?_⟩
        have hholds' : Holds render dd' (matchUpKey method) :=
          holds_of_hasMatchUp (hformed.nested position' ev' dd' hof') hm'
        have hposition := hformed.unique _ position ev dd position' ev' dd' hof hholds hof' hholds'
        subst hposition
        rw [(hof.unique hof').2]
        exact hm'
      · refine hfinds.mistyped _ ?_
        cases hid : scoredMatchUpId method with
        | str s =>
          refine absurd ?_ hscored
          rw [matchUpKey, hid, Json.propertyKey]
        | _ => rfl
    rw [hanswers] at hnone
    exact Except.ok.inj hnone

/-- One entry of the queue. -/
theorem entry_iff (hrender : ∀ value, render value ≠ "") (hparse : Parses parse)
    (hsharded : db.layout tournamentId = some .sharded) (hdata : db.data tournamentId = some d)
    (hstep : InStep render db tournamentId) (hformed : WellFormed render d.value)
    (hfinds : Finds engine parse record d.value)
    (hanswers : ∀ id, engine.findMatchUp record id = .ok (found id))
    {draws : List (String × String × Option String)} {texts : List String}
    (hdraws : ∀ key, draws.lookup key =
      if key ∈ texts then storedIndex db tournamentId key else none) (method : Json) :
    recordEntry found (indexEntry draws method) = recordEntry found method ↔
      EntryAgrees render d.value texts method := by
  rw [EntryAgrees]
  cases hm : isUnresolvedScore method with
  | false =>
    rw [indexEntry, hm]
    exact iff_of_true rfl nofun
  | true =>
    rw [indexEntry, if_pos hm, hdraws]
    by_cases hasked : matchUpKey method ∈ texts
    · rw [if_pos hasked]
      have hindex := storedIndex_iff hsharded hdata hstep hformed (matchUpKey method)
      cases hrow : storedIndex db tournamentId (matchUpKey method) with
      | none =>
        refine iff_of_true rfl fun _ _ position ev dd hof hholds hsome => ?_
        obtain ⟨drawId, hid⟩ := Option.isSome_iff_exists.mp hsome
        have hstored := (hindex drawId _).mpr ⟨position, ev, dd, hof, hholds, hid, rfl⟩
        rw [hrow] at hstored
        cases hstored
      | some row =>
        obtain ⟨position, ev, dd, hof, hholds, hid, hevent⟩ := (hindex row.1 row.2).mp hrow
        obtain ⟨hfound, hmissing⟩ := found_iff hformed hfinds hanswers hof hholds
        have hone : recordEntry found (withDraw method (.str row.1) (row.2.map .str)) =
            recordEntry found method ↔ Named method ev dd ∨ Blank render method ev dd := by
          rw [← hevent]
          by_cases hempty : row.1 = ""
          · rw [hempty] at hid ⊢
            exact entry_blank hrender hparse hm hid hfound hmissing
          · exact entry_named hrender hparse hm hid hempty hfound hmissing
        refine hone.trans ⟨fun hagreed _ _ position' ev' dd' hof' hholds' _ => ?_, fun hall => ?_⟩
        · have hposition := hformed.unique _ position ev dd position' ev' dd' hof hholds hof'
            hholds'
          subst hposition
          obtain ⟨rfl, rfl⟩ := hof.unique hof'
          exact hagreed
        · exact hall rfl hasked position ev dd hof hholds (by rw [hid]; rfl)
    · rw [if_neg hasked]
      exact iff_of_true rfl fun _ h => absurd h hasked

/-- The draws of the index, for the ids that are sent. -/
theorem storedDraws_eq (t : Tables) (hid : tournamentId ≠ "") {matchUpIds : List Json}
    (hids : matchUpIds ≠ []) :
    storedDraws x { t with matchUpIndex := storedIndex db } (some (.str tournamentId)) matchUpIds =
      (x.pg.textArray (.arr matchUpIds)).map fun texts => texts.dedup.filterMap fun key =>
        (storedIndex db tournamentId key).map (key, ·) := by
  have htruthy : truthy (some (Json.str tournamentId)) = true := by simpa [truthy] using hid
  have hempty : matchUpIds.isEmpty = false := List.isEmpty_eq_false_iff.mpr hids
  have hexec : ∀ id texts, (exec (.selectMatchUpDraws id texts)
      { t with matchUpIndex := storedIndex db }).2 =
        texts.dedup.filterMap fun key => (storedIndex db id key).map (key, ·) := fun _ _ => rfl
  rw [storedDraws]
  simp only [htruthy, hempty, Bool.not_true, Bool.or_false, Bool.false_eq_true, if_false, hexec,
    x.pg.text_str]

/-- **The index resolves the score entries of a sharded tournament as its record does exactly
when, for each entry that it answers, the ids of the entry, of its matchUp and of its draw are
strings and the draw's is not empty.** -/
theorem index_agrees (x : External) (t : Tables) (engine : Engine) {render : Jsonb → String}
    (hrender : ∀ value, render value ≠ "") {parse : Jsonb → Json} (hparse : Parses parse)
    {db : Database} {tournamentId : String} {d : Document}
    (hsharded : db.layout tournamentId = some .sharded) (hdata : db.data tournamentId = some d)
    (hstep : InStep render db tournamentId) (hformed : WellFormed render d.value)
    {record : TournamentRecord} (hfinds : Finds engine parse record d.value)
    (methods : List Json) :
    (indexedMethods x { t with matchUpIndex := storedIndex db } (strings [tournamentId])
        methods).map (resolveMatchUpReferences engine [(tournamentId, record)]) =
      some (resolveMatchUpReferences engine [(tournamentId, record)] methods) ↔
    AgreeOn x render d.value tournamentId methods := by
  obtain ⟨found, hanswers⟩ := hfinds.answers
  have hresolve := resolveMatchUpReferences_eq hanswers tournamentId
  rw [indexedMethods]
  by_cases hpending : methods.filter isUnresolvedScore = []
  · refine iff_of_true ?_ (.inr (.inl hpending))
    simp [hpending]
  have hnotEmpty : (methods.filter isUnresolvedScore).isEmpty = false :=
    List.isEmpty_eq_false_iff.mpr hpending
  simp only [iterate_strings, Option.getD_some, List.map_cons, List.map_nil, List.length_cons,
    List.length_nil, hnotEmpty, Bool.or_false, List.head?_cons]
  by_cases htid : tournamentId = ""
  · refine iff_of_true ?_ (.inl htid)
    have hdraws : ∀ matchUpIds, storedDraws x { t with matchUpIndex := storedIndex db }
        (some (.str tournamentId)) matchUpIds = some [] := by
      intro matchUpIds
      rw [htid]
      rfl
    have hnil : withDraws methods [] = methods := by simp [withDraws]
    simp [hdraws, hnil]
  · have hids : (methods.filter isUnresolvedScore).map scoredMatchUpId ≠ [] := by
      simpa using hpending
    rw [storedDraws_eq t htid hids, AgreeOn, or_iff_right htid, or_iff_right hpending]
    cases htexts : x.pg.textArray (.arr ((methods.filter isUnresolvedScore).map scoredMatchUpId)) with
    | none =>
      refine iff_of_false ?_ ?_
      · simp
      · rintro ⟨texts, hnone, -⟩
        cases hnone
    | some texts =>
      have hlookup := lookup_answers (storedIndex db tournamentId) texts.dedup
      simp only [List.mem_dedup] at hlookup
      have hentries := entry_iff hrender hparse hsharded hdata hstep hformed hfinds hanswers hlookup
      have hwith : ∀ draws, withDraws methods draws = methods.map (indexEntry draws) := fun _ => rfl
      have hlists : methods.map (recordEntry found ∘ indexEntry (texts.dedup.filterMap fun key =>
          (storedIndex db tournamentId key).map (key, ·))) = methods.map (recordEntry found) ↔
          ∀ method ∈ methods, EntryAgrees render d.value texts method := by
        rw [List.map_inj_left]
        exact forall₂_congr fun method _ => hentries method
      have hsent : (∃ sent, some texts = some sent ∧
          ∀ method ∈ methods, EntryAgrees render d.value sent method) ↔
          ∀ method ∈ methods, EntryAgrees render d.value texts method := by simp
      rw [hsent, ← hlists]
      simp [hwith, hresolve]

end Queue

end Indexed

/-! ## A record with one draw -/

/-- The matchUp of the draw. -/
def sampleMatchUp : Jsonb := .obj [("matchUpId", .str "m")]

/-- A draw with one matchUp. -/
def drawWith (drawId : String) : Jsonb :=
  .obj [("drawId", .str drawId),
    ("structures", .arr [.obj [("matchUps", .arr [sampleMatchUp])]])]

/-- Its event. -/
def eventWith (drawId : String) : Jsonb :=
  .obj [("eventId", .str "e"), ("drawDefinitions", .arr [drawWith drawId])]

/-- Its record. -/
def recordWith (drawId : String) : Document where
  value := .obj [("events", .arr [eventWith drawId])]
  object := ⟨_, rfl, List.pairwise_singleton _ _⟩
  canonical := by
    simp only [eventWith, drawWith, sampleMatchUp, Jsonb.Canonical, CanonicalItems,
      CanonicalFields, Ordered, List.map_cons, List.map_nil]
    decide

/-- Every value that is no string is rendered alike. -/
def sampleRender (_ : Jsonb) : String := "value"

/-- The ids of the record are strings. -/
def parseId : Jsonb → Json
  | .str s => .str s
  | .bool b => .bool b
  | .num q => .num q.num
  | _ => .null

/-- The engine on the record. -/
def findingEngine (drawId : String) : Engine where
  executionQueue _ _ _ := ⟨[], .error typeError, notices_nil⟩
  findMatchUp _ id := .ok (if id.str? = some "m" ∧ drawId ≠ "" then
    some (.str drawId, some (.str "e")) else none)
  isTestDataMethod _ := false

/-- The tables after the tournament was sharded. -/
def shardedWith (drawId : String) : Database where
  data _ := some (recordWith drawId)
  layout _ := some .sharded
  shards _ := shardTournament sampleRender .none (recordWith drawId).value

/-- A score that names its matchUp only. -/
def scoreEntry : Json :=
  .obj [("method", .str "setMatchUpStatus"), ("params", .obj [("matchUpId", .str "m")])]

/-- The record has one draw. -/
theorem drawOf_recordWith {drawId : String} {position : Position} {ev dd : Jsonb}
    (h : DrawOf (recordWith drawId).value position ev dd) :
    position = (0, 0) ∧ ev = eventWith drawId ∧ dd = drawWith drawId := by
  have hev : [eventWith drawId][position.1]? = some ev := h.event
  obtain ⟨hfirst, hevent⟩ := List.getElem?_eq_some_iff.mp hev
  have hzero : position.1 = 0 := by simpa using hfirst
  have hsame : ev = eventWith drawId := by simpa [hzero] using hevent.symm
  subst hsame
  have hdd : [drawWith drawId][position.2]? = some dd := h.draw
  obtain ⟨hsecond, hdraw⟩ := List.getElem?_eq_some_iff.mp hdd
  have hzero' : position.2 = 0 := by simpa using hsecond
  exact ⟨Prod.ext hzero hzero', rfl, by simpa [hzero'] using hdraw.symm⟩

/-- It is the draw of the event. -/
theorem drawOf_origin (drawId : String) :
    DrawOf (recordWith drawId).value (0, 0) (eventWith drawId) (drawWith drawId) := ⟨rfl, rfl⟩

/-- Its structures have no groups. -/
theorem nestedOnce_drawWith (drawId : String) : NestedOnce (drawWith drawId) := by
  intro group hgroup value hvalue
  have hone : group ∈ [Jsonb.obj [("matchUps", .arr [sampleMatchUp])]] := hgroup
  rw [List.mem_singleton.mp hone] at hvalue
  cases hvalue

/-- The draw has one matchUp. -/
theorem hasMatchUp_drawWith (drawId id : String) :
    HasMatchUp (drawWith drawId) id ↔ id = "m" := by
  have hlist : drawMatchUps (drawWith drawId) = [sampleMatchUp] := rfl
  have hin : ∀ m, MatchUpIn (drawWith drawId) m ↔ m = sampleMatchUp := by
    intro m
    rw [matchUpIn_iff (nestedOnce_drawWith drawId), ← mem_drawMatchUps, hlist,
      List.mem_singleton]
  constructor
  · rintro ⟨m, hm, hid⟩
    rw [(hin m).mp hm] at hid
    have hname : some (Jsonb.str "m") = some (.str id) := hid
    cases hname
    rfl
  · rintro rfl
    exact ⟨sampleMatchUp, (hin _).mpr rfl, rfl⟩

/-- The record is as the claim takes it. -/
theorem wellFormed_recordWith (drawId : String) :
    WellFormed sampleRender (recordWith drawId).value where
  nested position ev dd h := by
    rw [(drawOf_recordWith h).2.2]
    exact nestedOnce_drawWith drawId
  unique id position ev dd position' ev' dd' h _ h' _ := by
    rw [(drawOf_recordWith h).1, (drawOf_recordWith h').1]

/-- The ids are parsed as they are. -/
theorem parses_parseId : Parses parseId where
  str _ := rfl
  eq_str {value s} h := by
    cases value with
    | str text =>
      cases h
      rfl
    | null => cases h
    | bool b => cases h
    | num q => cases h
    | arr items => cases h
    | obj fields => cases h
  null := rfl

/-- The engine finds the matchUp of the record. -/
theorem finds_findingEngine (drawId : String) (record : TournamentRecord) :
    Finds (findingEngine drawId) parseId record (recordWith drawId).value where
  found position ev dd id h hm := by
    obtain ⟨-, rfl, rfl⟩ := drawOf_recordWith h
    rw [(hasMatchUp_drawWith drawId id).mp hm]
    by_cases hempty : drawId = ""
    · subst hempty
      rfl
    · have hdraw : drawOf parseId (eventWith drawId) (drawWith drawId) =
          some (.str drawId, some (.str "e")) := by
        have htruthy : truthy (some (Json.str drawId)) = true := by simpa [truthy] using hempty
        exact if_pos htruthy
      rw [hdraw]
      simp [findingEngine, Json.str?, hempty]
  missing id hno := by
    have hid : id ≠ "m" := fun heq =>
      hno (0, 0) _ _ (drawOf_origin drawId) ((hasMatchUp_drawWith drawId id).mpr heq)
    simp [findingEngine, Json.str?, hid]
  mistyped id hid := by simp [findingEngine, hid]

/-- The shards are those of the record. -/
theorem inStep_shardedWith (drawId : String) : InStep sampleRender (shardedWith drawId) "t" := by
  intro d _ hdata
  cases hdata
  exact faithful_shard _ _

/-- A score of the draw is resolved alike. -/
theorem index_agrees_draw :
    (indexedMethods plainExternal { emptyTables with matchUpIndex := storedIndex (shardedWith "d") }
        (strings ["t"]) [scoreEntry]).map
        (resolveMatchUpReferences (findingEngine "d") [("t", plainRecord "t" none)]) =
      some (resolveMatchUpReferences (findingEngine "d") [("t", plainRecord "t" none)]
        [scoreEntry]) := by
  have hrender : ∀ value, sampleRender value ≠ "" := fun value => by simp [sampleRender]
  refine (index_agrees plainExternal emptyTables (findingEngine "d") hrender parses_parseId rfl rfl
    (inStep_shardedWith "d") (wellFormed_recordWith "d")
    (finds_findingEngine "d" _) [scoreEntry]).mpr (.inr (.inr ⟨["m"], by decide, ?_⟩))
  intro method hmethod _ _ position ev dd hof hholds _
  rw [List.mem_singleton.mp hmethod]
  obtain ⟨-, rfl, rfl⟩ := drawOf_recordWith hof
  refine .inl ⟨rfl, (hasMatchUp_drawWith "d" _).mpr (by decide), ⟨"d", by decide, rfl⟩, ?_⟩
  intro value hvalue
  cases hvalue
  exact .inr ⟨"e", rfl⟩

/-- A draw with an empty id is taken from the index and not from the record. -/
theorem empty_draw_taken :
    InStep sampleRender (shardedWith "") "t" ∧
    WellFormed sampleRender (recordWith "").value ∧
    Finds (findingEngine "") parseId (plainRecord "t" none) (recordWith "").value ∧
    (indexedMethods plainExternal { emptyTables with matchUpIndex := storedIndex (shardedWith "") }
        (strings ["t"]) [scoreEntry]).map
        (resolveMatchUpReferences (findingEngine "") [("t", plainRecord "t" none)]) ≠
      some (resolveMatchUpReferences (findingEngine "") [("t", plainRecord "t" none)]
        [scoreEntry]) := by
  refine ⟨inStep_shardedWith "", wellFormed_recordWith "", finds_findingEngine "" _, ?_⟩
  have hholds : Holds sampleRender (drawWith "") "m" :=
    holds_of_hasMatchUp (nestedOnce_drawWith "") ((hasMatchUp_drawWith "" "m").mpr rfl)
  have hindex : storedIndex (shardedWith "") "t" "m" = some ("", some "e") :=
    (storedIndex_iff rfl rfl (inStep_shardedWith "") (wellFormed_recordWith "") "m" "" _).mpr
      ⟨(0, 0), _, _, drawOf_origin "", hholds, rfl, rfl⟩
  have hdraws : storedDraws plainExternal
      { emptyTables with matchUpIndex := storedIndex (shardedWith "") } (some (.str "t"))
      [.str "m"] = some [("m", "", some "e")] := by
    have htexts : plainExternal.pg.textArray (.arr [.str "m"]) = some ["m"] := by decide
    rw [storedDraws_eq emptyTables (by decide) (by simp), htexts]
    simp [hindex]
  have hfast : indexedMethods plainExternal
      { emptyTables with matchUpIndex := storedIndex (shardedWith "") } (strings ["t"])
      [scoreEntry] = some (withDraws [scoreEntry] [("m", "", some "e")]) := by
    change (storedDraws plainExternal _ (some (.str "t")) [.str "m"]).map _ = _
    rw [hdraws]
    rfl
  rw [hfast]
  intro heq
  cases heq

end FactoryServer.IndexedDraws
