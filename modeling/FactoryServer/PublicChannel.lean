import FactoryServer.InsertionMaps

/-!
# The public channel of a tournament

The notices of a mutation about results, positions and publishing are copied while the engine
runs. After the mutation is saved the copies are grouped by tournament and published to the
channel of each, which anyone may join. Nothing on this way reads the publish state. So the
channel carries what the anonymous routes show when every result notice, and every position
notice of a tournament with a result notice, is about a structure that is published.
-/

namespace FactoryServer.PublicChannel

open InsertionMaps

/-! ## Notices -/

/-- A set of a score. -/
structure SetScore where
  side1Score : Option Int
  side2Score : Option Int
  side1TiebreakScore : Option Int
  side2TiebreakScore : Option Int
  deriving DecidableEq, Repr

/-- A side of a matchUp, with the name of its participant. -/
structure Side where
  sideNumber : ℕ
  participantName : String
  deriving DecidableEq, Repr

/-- A matchUp of the engine, as far as a notice is read. -/
structure MatchUp where
  matchUpId : Option String
  matchUpStatus : Option String
  matchUpFormat : Option String
  drawPositions : List ℕ
  winningSide : Option ℕ
  /-- `score.sets`. -/
  score : Option (List SetScore)
  sides : List Side
  deriving DecidableEq, Repr

/-- The copy of a matchUp in a public notice: what is not copied stays `undefined`. -/
structure PublicMatchUp where
  matchUpStatus : Option String
  drawPositions : List ℕ
  winningSide : Option ℕ
  matchUpId : Option String
  score : Option (List SetScore)
  deriving DecidableEq, Repr

/-- An assignment of a draw position. -/
structure PositionAssignment where
  drawPosition : ℕ
  participantId : Option String
  deriving DecidableEq, Repr

/-- What the engine notifies the subscriptions of. -/
inductive EngineNotice where
  /-- `MODIFY_MATCHUP`. -/
  | modifyMatchUp (tournamentId : Option String) (matchUp : Option MatchUp)
  /-- `MODIFY_POSITION_ASSIGNMENTS`. -/
  | modifyPositionAssignments (tournamentId eventId drawId structureId : Option String)
      (positionAssignments : List PositionAssignment)
  /-- The topics of publishing and unpublishing. -/
  | publishing (topic : String) (tournamentId eventId : Option String)
  deriving DecidableEq, Repr

/-- `publicNotices`. -/
inductive PublicNotice where
  | matchUp (tournamentId : Option String) (matchUp : PublicMatchUp)
  | positions (tournamentId eventId drawId structureId : Option String)
      (positionAssignments : List PositionAssignment)
  | publishing (topic : String) (tournamentId eventId : Option String)
  deriving DecidableEq, Repr

/-- `matchUp: { matchUpStatus, drawPositions, winningSide, matchUpId, score }`. -/
def MatchUp.copied (matchUp : MatchUp) : PublicMatchUp :=
  ⟨matchUp.matchUpStatus, matchUp.drawPositions, matchUp.winningSide, matchUp.matchUpId,
    matchUp.score⟩

/-- What the handlers push for a notice. -/
def publicNotices : EngineNotice → List PublicNotice
  | .modifyMatchUp _ none => []
  | .modifyMatchUp tournamentId (some matchUp) => [.matchUp tournamentId matchUp.copied]
  | .modifyPositionAssignments tournamentId eventId drawId structureId positionAssignments =>
    [.positions tournamentId eventId drawId structureId positionAssignments]
  | .publishing topic tournamentId eventId => [.publishing topic tournamentId eventId]

/-! ## Events -/

/-- A side of a live score; the names are those of the copy, which has no sides. -/
structure LiveSide where
  teamName : String
  playerName : String
  setScores : List Int
  deriving DecidableEq, Repr

/-- `PublicLivePayload`. -/
structure LivePayload where
  matchUpId : String
  tournamentId : String
  format : String
  status : String
  side1 : LiveSide
  side2 : LiveSide
  deriving DecidableEq, Repr

/-- Positions in a `matchUpUpdate`. -/
structure PositionUpdate where
  assignments : List PositionAssignment
  structureId : Option String
  drawId : Option String
  deriving DecidableEq, Repr

/-- What is published to a channel. -/
inductive PublicEvent where
  /-- `publicUpdate` of type `matchUpUpdate`. -/
  | matchUpUpdate (tournamentId : String) (matchUps : List PublicMatchUp)
      (positionAssignments : List PositionUpdate)
  /-- `publicUpdate` of type `publishChange`. -/
  | publishChange (tournamentId action : String) (eventId : Option String)
  /-- `liveScore`. -/
  | liveScore (payload : LivePayload)
  deriving DecidableEq, Repr

/-- JavaScript's truth of a text that may be missing. -/
def present (text : Option String) : Option String := text.filter fun text => text ≠ ""

/-- `deriveStatus`. -/
def deriveStatus (matchUp : PublicMatchUp) : String :=
  if matchUp.winningSide.getD 0 ≠ 0 ∨ matchUp.matchUpStatus = some "COMPLETED" then "completed"
  else if (matchUp.score.getD []).any fun set =>
      0 < set.side1Score.getD 0 ∨ 0 < set.side2Score.getD 0 ∨
        0 < set.side1TiebreakScore.getD 0 ∨ 0 < set.side2TiebreakScore.getD 0 then "in_progress"
  else "pre"

/-- `buildPublicLivePayloadFromMatchUp`: the copy has no format and no sides. -/
def buildPublicLivePayloadFromMatchUp (matchUp : PublicMatchUp) (tournamentId : String) :
    Option LivePayload :=
  match present matchUp.matchUpId, present (some tournamentId) with
  | some matchUpId, some tournamentId => some
      ⟨matchUpId, tournamentId, "STANDARD", deriveStatus matchUp,
        ⟨"", "", (matchUp.score.getD []).map fun set => set.side1Score.getD 0⟩,
        ⟨"", "", (matchUp.score.getD []).map fun set => set.side2Score.getD 0⟩⟩
  | _, _ => none

/-! ## Broadcasting -/

/-- What the broadcast reads of a payload. -/
structure BroadcastPayload where
  tournamentIds : Option (List String)
  tournamentId : Option String

/-- `payload?.tournamentIds || (payload?.tournamentId ? [payload.tournamentId] : [])`. -/
def BroadcastPayload.ids (payload : BroadcastPayload) : List String :=
  payload.tournamentIds.getD (present payload.tournamentId).toList

/-- The tournament a notice names. -/
def PublicNotice.tournamentId : PublicNotice → Option String
  | .matchUp tournamentId _ | .positions tournamentId _ _ _ _ | .publishing _ tournamentId _ =>
    tournamentId

/-- `notice.tournamentId || tournamentIds[0]`, if it is no empty text. -/
def noticeTid (ids : List String) (notice : PublicNotice) : Option String :=
  (present notice.tournamentId).or (present ids.head?)

/-- The results among the notices. -/
def matchUpsOf (notices : List PublicNotice) : List PublicMatchUp :=
  notices.filterMap fun
    | .matchUp _ matchUp => some matchUp
    | _ => none

/-- The positions among the notices. -/
def positionsOf (notices : List PublicNotice) : List PositionUpdate :=
  notices.filterMap fun
    | .positions _ _ drawId structureId assignments => some ⟨assignments, structureId, drawId⟩
    | _ => none

/-- The publish changes among the notices. -/
def changesOf (tournamentId : String) (notices : List PublicNotice) : List PublicEvent :=
  notices.filterMap fun
    | .publishing topic _ eventId => some (.publishChange tournamentId topic eventId)
    | _ => none

/-- The events of one tournament. -/
def eventsOf (tournamentId : String) (notices : List PublicNotice) : List PublicEvent :=
  (if matchUpsOf notices = [] then []
    else .matchUpUpdate tournamentId (matchUpsOf notices) (positionsOf notices) ::
      (matchUpsOf notices).filterMap fun matchUp =>
        (buildPublicLivePayloadFromMatchUp matchUp tournamentId).map .liveScore) ++
    changesOf tournamentId notices

/-- The notices of one tournament, in their order. -/
def noticesFor (ids : List String) (notices : List PublicNotice) (t : String) :
    List PublicNotice :=
  notices.filter fun notice => noticeTid ids notice = some t

/-- `broadcastPublicNotices`: what goes to the channel of which tournament. -/
def broadcastPublicNotices (payload : BroadcastPayload) (notices : List PublicNotice) :
    List (String × PublicEvent) :=
  (setOf (notices.filterMap (noticeTid payload.ids))).flatMap fun t =>
    (eventsOf t (noticesFor payload.ids notices t)).map (t, ·)

/-- A mutation, as its caller sees it when it is over. -/
structure Mutation (Record : Type) where
  payload : BroadcastPayload
  success : Bool
  deduplicated : Bool
  /-- What the engine notified of, in the order of the handlers. -/
  notices : List EngineNotice
  /-- The stored records afterwards. -/
  saved : String → Option Record

/-- What a mutation publishes. -/
def published {Record : Type} (m : Mutation Record) : List (String × PublicEvent) :=
  if m.success ∧ ¬ m.deduplicated then
    broadcastPublicNotices m.payload (m.notices.flatMap publicNotices)
  else []

/-! ## What the anonymous routes show -/

/-- A structure in an answer. -/
structure StructureView where
  structureId : String
  matchUpIds : List String

/-- The factory's queries of a record. -/
structure Queries (Record Event Draw : Type) where
  events : Record → List Event
  drawDefinitions : Event → List Draw
  drawId : Draw → String
  /-- `queryGovernor.findDrawDefinition`. -/
  findDrawDefinition : Record → String → Option Draw
  /-- The structures of `queryGovernor.getDrawData` with `usePublishState`. -/
  drawData : Record → Option Event → Draw → List StructureView

variable {Record Event Draw : Type}

/-- `findEventForDraw`. -/
def findEventForDraw (q : Queries Record Event Draw) (record : Record) (drawId : String) :
    Option Event :=
  (q.events record).find? fun event =>
    (q.drawDefinitions event).any fun draw => q.drawId draw = drawId

/-- The structures of `getDrawData` for an anonymous reader. -/
def getDrawData (q : Queries Record Event Draw) (record : Option Record) (drawId : String) :
    List StructureView :=
  match record with
  | none => []
  | some record =>
    if drawId = "" then []
    else match q.findDrawDefinition record drawId with
      | none => []
      | some draw => q.drawData record (findEventForDraw q record drawId) draw

/-- The result of a matchUp is in a structure that is shown. -/
def ShowsMatchUp (q : Queries Record Event Draw) (record : Option Record)
    (matchUpId : Option String) : Prop :=
  ∃ id drawId, matchUpId = some id ∧ ∃ view ∈ getDrawData q record drawId, id ∈ view.matchUpIds

/-- The positions of a structure that is shown. -/
def ShowsPositions (q : Queries Record Event Draw) (record : Option Record)
    (drawId structureId : Option String) : Prop :=
  ∃ draw id, drawId = some draw ∧ structureId = some id ∧
    ∃ view ∈ getDrawData q record draw, view.structureId = id

/-- An event on the channel of a tournament carries what its record shows. -/
def Shown (q : Queries Record Event Draw) (record : Option Record) : PublicEvent → Prop
  | .matchUpUpdate _ matchUps positions =>
    (∀ matchUp ∈ matchUps, ShowsMatchUp q record matchUp.matchUpId) ∧
      ∀ update ∈ positions, ShowsPositions q record update.drawId update.structureId
  | .publishChange _ _ _ => True
  | .liveScore payload => ShowsMatchUp q record (some payload.matchUpId)

/-- The public copy of a notice is of a tournament. -/
def CopiedTo (m : Mutation Record) (notice : PublicNotice) (t : String) : Prop :=
  notice ∈ m.notices.flatMap publicNotices ∧ noticeTid m.payload.ids notice = some t

/-- The channels carry only what is published, and a mutation without a result in a shown
structure publishes no results and no positions. -/
structure OnlyPublished (q : Queries Record Event Draw) (m : Mutation Record) : Prop where
  shown : ∀ sent ∈ published m, Shown q (m.saved sent.1) sent.2
  silent : (∀ t tournamentId matchUp, CopiedTo m (.matchUp tournamentId matchUp) t →
      ¬ ShowsMatchUp q (m.saved t) matchUp.matchUpId) →
    ∀ sent ∈ published m, ∃ t action eventId, sent.2 = .publishChange t action eventId

/-- What the notices of a mutation that is broadcast must be about. -/
structure Publishable (q : Queries Record Event Draw) (m : Mutation Record) : Prop where
  /-- A result notice is about a shown structure. -/
  results : ∀ t tournamentId matchUp, CopiedTo m (.matchUp tournamentId matchUp) t →
    ShowsMatchUp q (m.saved t) matchUp.matchUpId
  /-- So is a position notice, if the tournament has a result notice as well. -/
  positions : ∀ t tournamentId eventId drawId structureId assignments,
    CopiedTo m (.positions tournamentId eventId drawId structureId assignments) t →
    (∃ named matchUp, CopiedTo m (.matchUp named matchUp) t) →
    ShowsPositions q (m.saved t) drawId structureId

/-! ## What is published -/

theorem mem_matchUpsOf {notices : List PublicNotice} {matchUp : PublicMatchUp} :
    matchUp ∈ matchUpsOf notices ↔ ∃ tournamentId, .matchUp tournamentId matchUp ∈ notices := by
  unfold matchUpsOf
  rw [List.mem_filterMap]
  constructor
  · rintro ⟨notice, hin, hsome⟩
    split at hsome
    · obtain rfl := Option.some.inj hsome
      exact ⟨_, hin⟩
    · cases hsome
  · rintro ⟨tournamentId, hin⟩
    exact ⟨_, hin, rfl⟩

theorem mem_positionsOf {notices : List PublicNotice} {update : PositionUpdate} :
    update ∈ positionsOf notices ↔ ∃ tournamentId eventId, .positions tournamentId eventId
      update.drawId update.structureId update.assignments ∈ notices := by
  unfold positionsOf
  rw [List.mem_filterMap]
  constructor
  · rintro ⟨notice, hin, hsome⟩
    split at hsome
    · obtain rfl := Option.some.inj hsome
      exact ⟨_, _, hin⟩
    · cases hsome
  · rintro ⟨tournamentId, eventId, hin⟩
    exact ⟨_, hin, rfl⟩

theorem mem_changesOf {t : String} {notices : List PublicNotice} {event : PublicEvent}
    (h : event ∈ changesOf t notices) : ∃ action eventId, event = .publishChange t action eventId := by
  obtain ⟨notice, -, hsome⟩ := List.mem_filterMap.mp h
  split at hsome
  · obtain rfl := Option.some.inj hsome
    exact ⟨_, _, rfl⟩
  · cases hsome

/-- The notices that are published for a tournament. -/
theorem mem_noticesFor (m : Mutation Record) (notice : PublicNotice) (t : String) :
    notice ∈ noticesFor m.payload.ids (m.notices.flatMap publicNotices) t ↔
      CopiedTo m notice t := by
  unfold noticesFor CopiedTo
  rw [List.mem_filter, decide_eq_true_eq]

/-- What a broadcast sends goes to the channel of the tournament its notices are for. -/
theorem mem_broadcast (payload : BroadcastPayload) (notices : List PublicNotice) (t : String)
    (event : PublicEvent) :
    (t, event) ∈ broadcastPublicNotices payload notices ↔
      event ∈ eventsOf t (noticesFor payload.ids notices t) := by
  unfold broadcastPublicNotices
  rw [List.mem_flatMap]
  constructor
  · rintro ⟨other, -, hin⟩
    obtain ⟨sent, hsent, heq⟩ := List.mem_map.mp hin
    obtain ⟨rfl, rfl⟩ := Prod.mk.inj heq
    exact hsent
  · intro hin
    refine ⟨t, ?_, List.mem_map_of_mem hin⟩
    have hsome : ∃ notice, notice ∈ noticesFor payload.ids notices t := by
      refine List.exists_mem_of_ne_nil _ fun hnone => ?_
      rw [hnone] at hin
      cases hin
    obtain ⟨notice, hnotice⟩ := hsome
    obtain ⟨hnotice, htid⟩ := List.mem_filter.mp hnotice
    exact mem_setOf.mpr (List.mem_filterMap.mpr ⟨notice, hnotice, of_decide_eq_true htid⟩)

/-- The events of a tournament are publish changes, or it has a result notice. -/
theorem eventsOf_cases {t : String} {notices : List PublicNotice} {event : PublicEvent}
    (h : event ∈ eventsOf t notices) :
    (∃ action eventId, event = .publishChange t action eventId) ∨
      (event = .matchUpUpdate t (matchUpsOf notices) (positionsOf notices) ∧
        matchUpsOf notices ≠ []) ∨
      ∃ matchUp ∈ matchUpsOf notices, ∃ payload,
        matchUp.matchUpId = some payload.matchUpId ∧ event = .liveScore payload := by
  unfold eventsOf at h
  obtain h | h := List.mem_append.mp h
  · split_ifs at h with hnone
    · cases h
    · obtain rfl | h := List.mem_cons.mp h
      · exact Or.inr (Or.inl ⟨rfl, hnone⟩)
      · obtain ⟨matchUp, hmatchUp, hsome⟩ := List.mem_filterMap.mp h
        obtain ⟨payload, hpayload, rfl⟩ := Option.map_eq_some_iff.mp hsome
        refine Or.inr (Or.inr ⟨matchUp, hmatchUp, payload, ?_, rfl⟩)
        unfold buildPublicLivePayloadFromMatchUp at hpayload
        split at hpayload
        next id tid hid htid =>
          obtain rfl := Option.some.inj hpayload
          exact (Option.filter_eq_some_iff.mp hid).1
        · cases hpayload
  · exact Or.inl (mem_changesOf h)

/-- Results go out with the positions of their tournament. -/
theorem mem_eventsOf {t : String} {notices : List PublicNotice} {matchUp : PublicMatchUp}
    (h : matchUp ∈ matchUpsOf notices) :
    .matchUpUpdate t (matchUpsOf notices) (positionsOf notices) ∈ eventsOf t notices := by
  unfold eventsOf
  rw [if_neg (List.ne_nil_of_mem h)]
  exact List.mem_append_left _ List.mem_cons_self

/-- A mutation that is broadcast carries only what is published when its notices are about
what is shown, and only then. -/
theorem onlyPublished_iff (q : Queries Record Event Draw) (m : Mutation Record) :
    OnlyPublished q m ↔ (m.success = true ∧ m.deduplicated = false → Publishable q m) := by
  by_cases hsent : m.success = true ∧ m.deduplicated = false
  · have hpublished : published m =
        broadcastPublicNotices m.payload (m.notices.flatMap publicNotices) := by
      unfold published
      rw [if_pos (by simpa using hsent)]
    have hevents : ∀ t event, (t, event) ∈ published m ↔ event ∈ eventsOf t
        (noticesFor m.payload.ids (m.notices.flatMap publicNotices) t) := by
      intro t event
      rw [hpublished]
      exact mem_broadcast m.payload _ t event
    have hresult : ∀ t tournamentId matchUp, CopiedTo m (.matchUp tournamentId matchUp) t →
        matchUp ∈ matchUpsOf
          (noticesFor m.payload.ids (m.notices.flatMap publicNotices) t) := by
      intro t tournamentId matchUp hcopied
      exact mem_matchUpsOf.mpr ⟨tournamentId, (mem_noticesFor m _ t).mpr hcopied⟩
    constructor
    · intro h _
      constructor
      · intro t tournamentId matchUp hcopied
        have hin := hresult t tournamentId matchUp hcopied
        exact (h.shown (t, _) ((hevents t _).mpr (mem_eventsOf hin))).1 matchUp hin
      · rintro t tournamentId eventId drawId structureId assignments hcopied
          ⟨named, matchUp, hmatchUp⟩
        have hin := hresult t named matchUp hmatchUp
        have hupdate : (⟨assignments, structureId, drawId⟩ : PositionUpdate) ∈ positionsOf
            (noticesFor m.payload.ids (m.notices.flatMap publicNotices) t) :=
          mem_positionsOf.mpr ⟨tournamentId, eventId, (mem_noticesFor m _ t).mpr hcopied⟩
        exact (h.shown (t, _) ((hevents t _).mpr (mem_eventsOf hin))).2 _ hupdate
    · intro h
      have hnotices := h hsent
      have hshows : ∀ t, ∀ matchUp ∈ matchUpsOf
          (noticesFor m.payload.ids (m.notices.flatMap publicNotices) t),
            ShowsMatchUp q (m.saved t) matchUp.matchUpId := by
        intro t matchUp hmatchUp
        obtain ⟨tournamentId, hnotice⟩ := mem_matchUpsOf.mp hmatchUp
        exact hnotices.results t tournamentId matchUp ((mem_noticesFor m _ t).mp hnotice)
      constructor
      · rintro ⟨t, event⟩ hin
        obtain ⟨action, eventId, rfl⟩ | ⟨rfl, hany⟩ | ⟨matchUp, hmatchUp, payload, hid, rfl⟩ :=
          eventsOf_cases ((hevents t event).mp hin)
        · trivial
        · refine ⟨hshows t, fun update hupdate => ?_⟩
          obtain ⟨tournamentId, eventId, hnotice⟩ := mem_positionsOf.mp hupdate
          obtain ⟨matchUp, hmatchUp⟩ := List.exists_mem_of_ne_nil _ hany
          obtain ⟨named, hresultNotice⟩ := mem_matchUpsOf.mp hmatchUp
          exact hnotices.positions t tournamentId eventId update.drawId update.structureId
            update.assignments ((mem_noticesFor m _ t).mp hnotice)
            ⟨named, matchUp, (mem_noticesFor m _ t).mp hresultNotice⟩
        · have hshown := hshows t matchUp hmatchUp
          rw [hid] at hshown
          exact hshown
      · rintro hhidden ⟨t, event⟩ hin
        have habsent : ∀ matchUp, matchUp ∉ matchUpsOf
            (noticesFor m.payload.ids (m.notices.flatMap publicNotices) t) := by
          intro matchUp hmatchUp
          obtain ⟨tournamentId, hnotice⟩ := mem_matchUpsOf.mp hmatchUp
          exact hhidden t tournamentId matchUp ((mem_noticesFor m _ t).mp hnotice)
            (hshows t matchUp hmatchUp)
        obtain ⟨action, eventId, rfl⟩ | ⟨-, hany⟩ | ⟨matchUp, hmatchUp, -⟩ :=
          eventsOf_cases ((hevents t event).mp hin)
        · exact ⟨t, action, eventId, rfl⟩
        · obtain ⟨matchUp, hmatchUp⟩ := List.exists_mem_of_ne_nil _ hany
          exact absurd hmatchUp (habsent matchUp)
        · exact absurd hmatchUp (habsent matchUp)
  · have hnone : published m = [] := by
      unfold published
      rw [if_neg (by simpa using hsent)]
    refine iff_of_true ⟨fun sent hin => ?_, fun _ sent hin => ?_⟩ fun h => absurd h hsent
    · rw [hnone] at hin
      cases hin
    · rw [hnone] at hin
      cases hin

/-- A tournament with one draw, which is not published: its structures are withheld. -/
def withheldDraw : Queries Unit Unit Unit where
  events _ := [()]
  drawDefinitions _ := [()]
  drawId _ := "d1"
  findDrawDefinition _ drawId := if drawId = "d1" then some () else none
  drawData _ _ _ := []

/-- A result in that draw. -/
def withheldResult : Mutation Unit where
  payload := ⟨some ["t1"], none⟩
  success := true
  deduplicated := false
  notices := [.modifyMatchUp (some "t1")
    (some ⟨some "m1", some "COMPLETED", none, [1, 2], some 1, some [⟨some 6, some 3, none, none⟩],
      []⟩)]
  saved _ := some ()

/-- The result of an unpublished draw is published to the open channel. -/
theorem withheld_result_published : ¬ OnlyPublished withheldDraw withheldResult := by
  intro h
  have hsent : ("t1", .matchUpUpdate "t1"
      [⟨some "COMPLETED", [1, 2], some 1, some "m1", some [⟨some 6, some 3, none, none⟩]⟩] []) ∈
      published withheldResult := by
    decide
  obtain ⟨id, drawId, -, view, hview, -⟩ := (h.shown _ hsent).1 _ List.mem_cons_self
  have hnone : getDrawData withheldDraw (some ()) drawId = [] := by
    unfold getDrawData
    dsimp only
    split_ifs
    · rfl
    · cases withheldDraw.findDrawDefinition () drawId <;> rfl
  have hshown : view ∈ getDrawData withheldDraw (some ()) drawId := hview
  rw [hnone] at hshown
  cases hshown

end FactoryServer.PublicChannel
