import FactoryServer.PublicChannel

/-!
# Where public notices go

The notices of a batch are grouped under the tournament they name, or under the first one of
the batch, and each group is published by topic. Positions travel with results: a group
without a result publishes none of them. To say which notice an event publishes, the events
are built a second time with the places of their notices in the batch.
-/

namespace FactoryServer.PublicRouting

open InsertionMaps PublicChannel

/-- A notice with its place in the batch. -/
abbrev PlacedNotice := PublicNotice × ℕ

/-- The notice is about a result. -/
def isResult : PublicNotice → Bool
  | .matchUp _ _ => true
  | _ => false

/-- The notice is about positions. -/
def isPositions : PublicNotice → Bool
  | .positions _ _ _ _ _ => true
  | _ => false

/-! ## Events with the places of their notices -/

/-- The live scores of a group. -/
def placedScores (t : String) (group : List PlacedNotice) : List (PublicEvent × List ℕ) :=
  group.filterMap fun
    | (.matchUp _ matchUp, place) =>
      (buildPublicLivePayloadFromMatchUp matchUp t).map fun payload => (.liveScore payload, [place])
    | _ => none

/-- The publish changes of a group. -/
def placedChanges (t : String) (group : List PlacedNotice) : List (PublicEvent × List ℕ) :=
  group.filterMap fun
    | (.publishing topic _ eventId, place) => some (.publishChange t topic eventId, [place])
    | _ => none

/-- The update with the results and positions of a group. -/
def placedUpdate (t : String) (group : List PlacedNotice) : PublicEvent × List ℕ :=
  (.matchUpUpdate t (matchUpsOf (group.map Prod.fst)) (positionsOf (group.map Prod.fst)),
    (group.filter fun n => isResult n.1 || isPositions n.1).map Prod.snd)

/-- The events of a group, each with the places of the notices it publishes. -/
def placedEvents (t : String) (group : List PlacedNotice) : List (PublicEvent × List ℕ) :=
  (if matchUpsOf (group.map Prod.fst) = [] then []
    else placedUpdate t group :: placedScores t group) ++ placedChanges t group

/-- The notices of a batch that go to a tournament, with their places. -/
def placedFor (ids : List String) (notices : List PublicNotice) (t : String) :
    List PlacedNotice :=
  notices.zipIdx.filter fun n => noticeTid ids n.1 = some t

/-- The broadcast of a batch, with the places of what each event publishes. -/
def placedBroadcast (payload : BroadcastPayload) (notices : List PublicNotice) :
    List (String × PublicEvent × List ℕ) :=
  (setOf (notices.filterMap (noticeTid payload.ids))).flatMap fun t =>
    (placedEvents t (placedFor payload.ids notices t)).map (t, ·)

/-- The scores do not depend on the places. -/
theorem placedScores_fst (t : String) (group : List PlacedNotice) :
    (placedScores t group).map Prod.fst =
      (matchUpsOf (group.map Prod.fst)).filterMap fun matchUp =>
        (buildPublicLivePayloadFromMatchUp matchUp t).map .liveScore := by
  unfold placedScores matchUpsOf
  rw [List.filterMap_map, List.map_filterMap, List.filterMap_filterMap]
  refine List.filterMap_congr fun n _ => ?_
  obtain ⟨notice, place⟩ := n
  cases notice with
  | matchUp tournamentId matchUp =>
    exact Option.map_map _ _ (buildPublicLivePayloadFromMatchUp matchUp t)
  | positions tournamentId eventId drawId structureId assignments => rfl
  | publishing topic tournamentId eventId => rfl

/-- The changes do not depend on the places. -/
theorem placedChanges_fst (t : String) (group : List PlacedNotice) :
    (placedChanges t group).map Prod.fst = changesOf t (group.map Prod.fst) := by
  unfold placedChanges changesOf
  rw [List.filterMap_map, List.map_filterMap]
  refine List.filterMap_congr fun n _ => ?_
  obtain ⟨notice, place⟩ := n
  cases notice <;> rfl

/-- Without the places the events are those of the code. -/
theorem placedEvents_fst (t : String) (group : List PlacedNotice) :
    (placedEvents t group).map Prod.fst = eventsOf t (group.map Prod.fst) := by
  unfold placedEvents eventsOf
  rw [List.map_append, placedChanges_fst]
  split_ifs with hnone
  · rfl
  · rw [List.map_cons, placedScores_fst]
    rfl

/-- Without their places the notices of a tournament are those of the code. -/
theorem placedFor_fst (ids : List String) (notices : List PublicNotice) (t : String) :
    (placedFor ids notices t).map Prod.fst = noticesFor ids notices t := by
  have hnotices : (notices.zipIdx).map Prod.fst = notices := List.zipIdx_map_fst 0 notices
  unfold placedFor noticesFor
  conv_rhs => rw [← hnotices, List.filter_map]
  rfl

/-- Without the places the broadcast is the code's. -/
theorem placedBroadcast_fst (payload : BroadcastPayload) (notices : List PublicNotice) :
    (placedBroadcast payload notices).map (fun sent => (sent.1, sent.2.1)) =
      broadcastPublicNotices payload notices := by
  unfold placedBroadcast broadcastPublicNotices
  rw [List.map_flatMap]
  refine List.flatMap_congr fun t _ => ?_
  rw [List.map_map, ← placedFor_fst, ← placedEvents_fst, List.map_map]
  rfl

/-! ## What the channels get -/

/-- The notice at a place is published on the channel of a tournament. -/
def PublishedOn (payload : BroadcastPayload) (notices : List PublicNotice) (place : ℕ)
    (t : String) : Prop :=
  ∃ event places, (t, event, places) ∈ placedBroadcast payload notices ∧ place ∈ places

/-- The only tournament of a batch. -/
def onlyTournament (ids : List String) : Option String :=
  match setOf ids with
  | [t] => present (some t)
  | _ => none

/-- The tournament a notice concerns: the one it names, or the only one of the batch. -/
def concerns (payload : BroadcastPayload) (notice : PublicNotice) : Option String :=
  (present notice.tournamentId).or (onlyTournament payload.ids)

/-- Every notice is published on the channel of the tournament it concerns, and on no other. -/
structure Conserved (payload : BroadcastPayload) (notices : List PublicNotice) : Prop where
  /-- Nothing is lost. -/
  delivered : ∀ place notice t, notices[place]? = some notice →
    concerns payload notice = some t → PublishedOn payload notices place t
  /-- Nothing is misrouted, and nothing is attributed to a tournament it may not concern. -/
  confined : ∀ place notice t, notices[place]? = some notice →
    PublishedOn payload notices place t → concerns payload notice = some t

/-- Positions that go to a tournament go with a result. -/
def Accompanied (payload : BroadcastPayload) (notices : List PublicNotice)
    (notice : PublicNotice) : Prop :=
  isPositions notice = true → ∃ other ∈ notices, isResult other = true ∧
    noticeTid payload.ids other = noticeTid payload.ids notice

/-- What a batch must be like. -/
structure WellRouted (payload : BroadcastPayload) (notices : List PublicNotice) : Prop where
  /-- Positions of a tournament come with a result of it. -/
  positions : ∀ notice ∈ notices, (concerns payload notice).isSome = true →
    Accompanied payload notices notice
  /-- A notice that names no tournament is not in a batch of several, unless the first of
  these is empty or it is about positions and the first has no result. -/
  nameless : ∀ notice ∈ notices, concerns payload notice = none →
    noticeTid payload.ids notice = none ∨ ¬ Accompanied payload notices notice

/-- The group of a tournament has a result. -/
theorem hasResult_iff (payload : BroadcastPayload) (notices : List PublicNotice) (t : String) :
    matchUpsOf (noticesFor payload.ids notices t) ≠ [] ↔
      ∃ other ∈ notices, isResult other = true ∧ noticeTid payload.ids other = some t := by
  constructor
  · intro h
    obtain ⟨matchUp, hmatchUp⟩ := List.exists_mem_of_ne_nil _ h
    obtain ⟨tournamentId, hin⟩ := mem_matchUpsOf.mp hmatchUp
    obtain ⟨hin, htid⟩ := List.mem_filter.mp hin
    exact ⟨_, hin, rfl, of_decide_eq_true htid⟩
  · rintro ⟨other, hin, hresult, htid⟩
    cases other with
    | matchUp tournamentId matchUp =>
      have hgroup : PublicNotice.matchUp tournamentId matchUp ∈ noticesFor payload.ids notices t :=
        List.mem_filter.mpr ⟨hin, decide_eq_true htid⟩
      exact List.ne_nil_of_mem (mem_matchUpsOf.mpr ⟨tournamentId, hgroup⟩)
    | positions tournamentId eventId drawId structureId assignments => cases hresult
    | publishing topic tournamentId eventId => cases hresult

/-- A notice of a group is among its places. -/
theorem mem_placedFor {ids : List String} {notices : List PublicNotice} {t : String}
    {notice : PublicNotice} {place : ℕ} :
    (notice, place) ∈ placedFor ids notices t ↔
      notices[place]? = some notice ∧ noticeTid ids notice = some t := by
  rw [placedFor, List.mem_filter, List.mem_zipIdx_iff_getElem?, decide_eq_true_eq]

/-- What the events of a group publish: its results and changes, and its positions where it
has a result. -/
theorem mem_placedEvents {t : String} {group : List PlacedNotice} {place : ℕ} :
    (∃ event places, (event, places) ∈ placedEvents t group ∧ place ∈ places) ↔
      ∃ notice, (notice, place) ∈ group ∧
        (isPositions notice = true → matchUpsOf (group.map Prod.fst) ≠ []) := by
  constructor
  · rintro ⟨event, places, hevent, hplace⟩
    unfold placedEvents at hevent
    obtain hresults | hchanges := List.mem_append.mp hevent
    · split_ifs at hresults with hnone
      · cases hresults
      · obtain hupdate | hscore := List.mem_cons.mp hresults
        · rw [placedUpdate] at hupdate
          obtain ⟨-, rfl⟩ := Prod.mk.inj hupdate
          obtain ⟨⟨notice, found⟩, hfiltered, rfl⟩ := List.mem_map.mp hplace
          exact ⟨notice, (List.mem_filter.mp hfiltered).1, fun _ => hnone⟩
        · obtain ⟨⟨notice, found⟩, hin, hsome⟩ := List.mem_filterMap.mp hscore
          cases notice with
          | matchUp tournamentId matchUp =>
            obtain ⟨payload, -, heq⟩ := Option.map_eq_some_iff.mp hsome
            obtain ⟨-, rfl⟩ := Prod.mk.inj heq
            obtain rfl := List.mem_singleton.mp hplace
            exact ⟨_, hin, fun _ => hnone⟩
          | positions tournamentId eventId drawId structureId assignments => cases hsome
          | publishing topic tournamentId eventId => cases hsome
    · obtain ⟨⟨notice, found⟩, hin, hsome⟩ := List.mem_filterMap.mp hchanges
      cases notice with
      | matchUp tournamentId matchUp => cases hsome
      | positions tournamentId eventId drawId structureId assignments => cases hsome
      | publishing topic tournamentId eventId =>
        obtain ⟨-, rfl⟩ := Prod.mk.inj (Option.some.inj hsome)
        obtain rfl := List.mem_singleton.mp hplace
        exact ⟨_, hin, nofun⟩
  · rintro ⟨notice, hin, hresult⟩
    have hupdate : isResult notice = true ∨ isPositions notice = true →
        matchUpsOf (group.map Prod.fst) ≠ [] →
          ∃ event places, (event, places) ∈ placedEvents t group ∧ place ∈ places := by
      intro htravels hsome
      refine ⟨_, _, List.mem_append_left _ (by rw [if_neg hsome]; exact List.mem_cons_self), ?_⟩
      exact List.mem_map.mpr ⟨(notice, place), List.mem_filter.mpr
        ⟨hin, (Bool.or_eq_true _ _).mpr htravels⟩, rfl⟩
    cases notice with
    | matchUp tournamentId matchUp =>
      have hgroup : PublicNotice.matchUp tournamentId matchUp ∈ group.map Prod.fst :=
        List.mem_map.mpr ⟨_, hin, rfl⟩
      exact hupdate (.inl rfl) (List.ne_nil_of_mem (mem_matchUpsOf.mpr ⟨_, hgroup⟩))
    | positions tournamentId eventId drawId structureId assignments =>
      exact hupdate (.inr rfl) (hresult rfl)
    | publishing topic tournamentId eventId =>
      refine ⟨_, _, List.mem_append_right _ (List.mem_filterMap.mpr ⟨_, hin, rfl⟩), ?_⟩
      exact List.mem_singleton_self _

/-- A notice is published where it is grouped, and positions where a result is too. -/
theorem publishedOn_iff {payload : BroadcastPayload} {notices : List PublicNotice} {place : ℕ}
    {notice : PublicNotice} {t : String} (hnotice : notices[place]? = some notice) :
    PublishedOn payload notices place t ↔
      noticeTid payload.ids notice = some t ∧ Accompanied payload notices notice := by
  have hgroup : PublishedOn payload notices place t ↔ ∃ event places,
      (event, places) ∈ placedEvents t (placedFor payload.ids notices t) ∧ place ∈ places := by
    constructor
    · rintro ⟨event, places, hsent, hplace⟩
      obtain ⟨other, -, hin⟩ := List.mem_flatMap.mp hsent
      obtain ⟨sent, hsent, heq⟩ := List.mem_map.mp hin
      obtain ⟨rfl, rfl⟩ := Prod.mk.inj heq
      exact ⟨event, places, hsent, hplace⟩
    · rintro ⟨event, places, hevent, hplace⟩
      refine ⟨event, places, List.mem_flatMap.mpr ⟨t, ?_, List.mem_map_of_mem hevent⟩, hplace⟩
      obtain ⟨found, hin, -⟩ := mem_placedEvents.mp ⟨event, places, hevent, hplace⟩
      obtain ⟨hfound, htid⟩ := mem_placedFor.mp hin
      exact mem_setOf.mpr (List.mem_filterMap.mpr ⟨found, List.mem_of_getElem? hfound, htid⟩)
  rw [hgroup, mem_placedEvents, placedFor_fst]
  constructor
  · rintro ⟨found, hin, hresult⟩
    obtain ⟨hfound, htid⟩ := mem_placedFor.mp hin
    obtain rfl := Option.some.inj (hfound.symm.trans hnotice)
    refine ⟨htid, fun hpositions => ?_⟩
    rw [htid]
    exact (hasResult_iff payload notices t).mp (hresult hpositions)
  · rintro ⟨htid, haccompanied⟩
    refine ⟨notice, mem_placedFor.mpr ⟨hnotice, htid⟩, fun hpositions => ?_⟩
    have hresult := haccompanied hpositions
    rw [htid] at hresult
    exact (hasResult_iff payload notices t).mpr hresult

/-- A notice that concerns a tournament is grouped under it. -/
theorem noticeTid_of_concerns {payload : BroadcastPayload} {notice : PublicNotice} {t : String}
    (h : concerns payload notice = some t) : noticeTid payload.ids notice = some t := by
  unfold concerns at h
  unfold noticeTid
  cases hnamed : present notice.tournamentId with
  | some named =>
    rw [hnamed, Option.some_or] at h
    rw [Option.some_or, h]
  | none =>
    rw [hnamed, Option.none_or] at h
    rw [Option.none_or]
    unfold onlyTournament at h
    split at h
    next found hset =>
      have hall : ∀ id ∈ payload.ids, id = found := by
        intro id hid
        have hmem := mem_setOf.mpr hid
        rw [hset] at hmem
        exact List.mem_singleton.mp hmem
      have hfound : found ∈ payload.ids := by
        refine mem_setOf.mp ?_
        rw [hset]
        exact List.mem_singleton_self _
      cases hids : payload.ids with
      | nil =>
        rw [hids] at hfound
        cases hfound
      | cons first rest =>
        rw [hids] at hall
        rw [List.head?_cons, hall first List.mem_cons_self]
        exact h
    next => cases h

/-- No notice of a batch is lost or misrouted exactly when its positions come with results of
their tournament and no notice of a batch of several tournaments is nameless. -/
theorem conserved_iff (payload : BroadcastPayload) (notices : List PublicNotice) :
    Conserved payload notices ↔ WellRouted payload notices := by
  constructor
  · intro h
    constructor
    · intro notice hin hsome
      obtain ⟨t, ht⟩ := Option.isSome_iff_exists.mp hsome
      obtain ⟨place, hplace⟩ := List.getElem?_of_mem hin
      exact ((publishedOn_iff hplace).mp (h.delivered place notice t hplace ht)).2
    · intro notice hin hnone
      obtain ⟨place, hplace⟩ := List.getElem?_of_mem hin
      cases htid : noticeTid payload.ids notice with
      | none => exact .inl rfl
      | some t =>
        refine .inr fun haccompanied => ?_
        have hconcerns := h.confined place notice t hplace
          ((publishedOn_iff hplace).mpr ⟨htid, haccompanied⟩)
        rw [hnone] at hconcerns
        cases hconcerns
  · intro h
    constructor
    · intro place notice t hplace hconcerns
      have hin := List.mem_of_getElem? hplace
      exact (publishedOn_iff hplace).mpr ⟨noticeTid_of_concerns hconcerns,
        h.positions notice hin (by rw [hconcerns, Option.isSome_some])⟩
    · intro place notice t hplace hpublished
      have hin := List.mem_of_getElem? hplace
      obtain ⟨htid, haccompanied⟩ := (publishedOn_iff hplace).mp hpublished
      cases hconcerns : concerns payload notice with
      | some named => exact (noticeTid_of_concerns hconcerns).symm.trans htid
      | none =>
        obtain hnone | hlost := h.nameless notice hin hconcerns
        · rw [htid] at hnone
          cases hnone
        · exact absurd haccompanied hlost

/-- A batch of one tournament. -/
def oneTournament : BroadcastPayload := ⟨some ["t1"], none⟩

/-- A batch of two tournaments. -/
def twoTournaments : BroadcastPayload := ⟨some ["t1", "t2"], none⟩

/-- New positions and nothing else. -/
def positionsOnly : List PublicNotice := [.positions (some "t1") (some "e") (some "d") (some "s") []]

/-- A change of the second tournament that does not say so. -/
def namelessChange : List PublicNotice := [.publishing "publishEvent" none (some "e")]

/-- Positions alone are published nowhere, and a nameless notice goes to the first
tournament of its batch. -/
theorem notices_not_conserved :
    broadcastPublicNotices oneTournament positionsOnly = [] ∧
      ¬ Conserved oneTournament positionsOnly ∧
      broadcastPublicNotices twoTournaments namelessChange =
        [("t1", .publishChange "t1" "publishEvent" (some "e"))] ∧
      ¬ Conserved twoTournaments namelessChange := by
  have hlost : broadcastPublicNotices oneTournament positionsOnly = [] := by decide
  refine ⟨hlost, fun h => ?_, by decide, fun h => ?_⟩
  · obtain ⟨event, places, hsent, -⟩ := h.delivered 0 _ "t1" rfl (by decide)
    have hin : ("t1", event) ∈ broadcastPublicNotices oneTournament positionsOnly := by
      rw [← placedBroadcast_fst]
      exact List.mem_map.mpr ⟨_, hsent, rfl⟩
    rw [hlost] at hin
    cases hin
  · have hsent : ("t1", PublicEvent.publishChange "t1" "publishEvent" (some "e"), [0]) ∈
        placedBroadcast twoTournaments namelessChange := by decide
    have hconcerns := h.confined 0 _ "t1" rfl ⟨_, _, hsent, List.mem_singleton_self _⟩
    exact absurd hconcerns (by decide)

end FactoryServer.PublicRouting
