import FactoryServer.ResponseCaches
import FactoryServer.DurableSave

/-!
# The cached read routes

Nine read routes go through `cacheFx`, under keys that join the strings of the
client with bars. The warmer seeds event payloads under the same keys, and the
`test` message of the sockets writes any key a client names. This module states
in which runs the cache is transparent.
-/

namespace FactoryServer.CachedReads

open JsonValue TournamentAccess CommandTransaction StorageTables TournamentStorage ExecutionQueue
  ResponseCaches

/-- The factory's queries over one record. The laws are the defaults that the
request types document. -/
structure FactoryQueries where
  /-- The driver. -/
  pg : PgBinding
  /-- The participant policy attached to a record. -/
  attachedParticipantPolicy : TournamentRecord → Option Json
  /-- `computeEffectiveConfig(caps, settings)?.participantPrivacy` of a provider. -/
  participantPrivacy : Provider → Option Json
  /-- `buildParticipantPrivacyPolicy`. -/
  buildParticipantPrivacyPolicy : Option Json → Json
  /-- The assistant context of a record. -/
  assistantContext : TournamentRecord → Json
  /-- Tournament info with `withMatchUpStats`, `withStructureDetails`,
  `usePublishState` and `withVenueData`. -/
  tournamentInfo : TournamentRecord → Option Json → Option Json → Option Json → Option Json → Json
  /-- Event data: policy, `hydrateParticipants`, `drawsProfile` and `eventId`. -/
  eventData : TournamentRecord → Json → Option Json → Option Json → Option Json → Json
  /-- Draw data: policy, `hydrateParticipants`, `structuresProfile` and `drawId`. -/
  drawData : TournamentRecord → Json → Option Json → Option Json → Option Json → Json
  /-- Structure data: policy, `drawId` and `structureId`. -/
  structureData : TournamentRecord → Json → Option Json → Option Json → Json
  /-- The competition schedule: policy and parameters. -/
  scheduleMatchUps : TournamentRecord → Json → Json → Json
  /-- The participants: policy and parameters. -/
  participants : TournamentRecord → Json → Json → Json
  /-- `allTournamentMatchUps` with the parameters of the body. -/
  matchUps : TournamentRecord → Json → Json
  /-- A missing switch of the tournament info is off. -/
  info_default : ∀ record a b c d, tournamentInfo record a b c d =
    tournamentInfo record (some (.bool (truthy a))) (some (.bool (truthy b)))
      (some (.bool (truthy c))) (some (.bool (truthy d)))
  /-- Participants are hydrated unless the request says `false`. -/
  event_hydrates : ∀ record policy profile eventId,
    eventData record policy none profile eventId =
      eventData record policy (some (.bool true)) profile eventId
  /-- The full profile is the default. -/
  event_full : ∀ record policy hydrate eventId,
    eventData record policy hydrate none eventId =
      eventData record policy hydrate (some (.str "FULL")) eventId
  /-- A stub has no sides to hydrate. -/
  event_stubs : ∀ record policy hydrate hydrate' eventId,
    eventData record policy hydrate (some (.str "STUBS")) eventId =
      eventData record policy hydrate' (some (.str "STUBS")) eventId
  /-- Participants are hydrated unless the request says `false`. -/
  draw_hydrates : ∀ record policy profile drawId,
    drawData record policy none profile drawId =
      drawData record policy (some (.bool true)) profile drawId
  /-- The full profile is the default. -/
  draw_full : ∀ record policy hydrate drawId,
    drawData record policy hydrate none drawId =
      drawData record policy hydrate (some (.str "FULL")) drawId
  /-- A stub has no sides to hydrate. -/
  draw_stubs : ∀ record policy hydrate hydrate' drawId,
    drawData record policy hydrate (some (.str "STUBS")) drawId =
      drawData record policy hydrate' (some (.str "STUBS")) drawId

/-- A request to a cached read route. -/
inductive CachedRead where
  /-- `GET assistant-context/:tid`. -/
  | assistantContext (tid : String)
  /-- `GET tournamentinfo/:tid`. -/
  | publicInfo (tid : String)
  /-- `POST tournamentinfo`, with or without a user context. -/
  | tournamentInfo (identified : Bool) (body : Json)
  /-- `POST eventdata`. -/
  | eventData (body : Json)
  /-- `POST drawdata`. -/
  | drawData (body : Json)
  /-- `POST structuredata`. -/
  | structureData (body : Json)
  /-- `POST scheduledmatchups`. -/
  | scheduledMatchUps (body : Json)
  /-- `POST participants`. -/
  | participants (body : Json)
  /-- `POST matchups`. -/
  | matchUps (body : Json)

/-! ## Keys -/

/-- A value inside a template string. -/
def template (value : Option Json) : String := (value.map Json.propertyKey).getD "undefined"

/-- `payloadVariant`. -/
def payloadVariant (profile hydrateParticipants : Option Json) : String :=
  if profile.bind Json.str? = some "STUBS" then "|s" else
  match hydrateParticipants with
  | some (.bool false) => "|n"
  | _ => ""

/-- The parameters of the tournament info: without an admin identity the publish
state is applied whatever the caller says. -/
def infoParams (identified : Bool) (body : Json) : Json :=
  if identified then body else spread (some body) [("usePublishState", .bool true)]

/-- The flags of the tournament info, joined. -/
def infoFlags (stats details publish venues : Bool) : String :=
  (if stats then "ms" else "") ++ (if details then "sd" else "") ++
    (if publish then "ps" else "") ++ (if venues then "vd" else "")

/-- A key of the routes whose parameters are nested, unless they opt out. -/
def paramsKey (label : String) (body : Json) : Option String :=
  let params := body.field? "params"
  if truthy (chain params "noCache") then none
  else some (label ++ "|" ++ template (chain params "tournamentId"))

/-- The cache key of a request. -/
def cacheKey : CachedRead → Option String
  | .assistantContext tid => some ("gac|" ++ tid)
  | .publicInfo tid => some ("gti|" ++ tid)
  | .tournamentInfo identified body =>
    let params := infoParams identified body
    some ("gti|" ++ template (params.field? "tournamentId") ++ "|" ++
      infoFlags (truthy (params.field? "withMatchUpStats"))
        (truthy (params.field? "withStructureDetails")) (truthy (params.field? "usePublishState"))
        (truthy (params.field? "withVenueData")))
  | .eventData body => some ("ged|" ++ template (body.field? "tournamentId") ++ "|" ++
      template (body.field? "eventId") ++
      payloadVariant (body.field? "drawsProfile") (body.field? "hydrateParticipants"))
  | .drawData body => some ("gdd|" ++ template (body.field? "tournamentId") ++ "|" ++
      template (body.field? "drawId") ++
      payloadVariant (body.field? "structuresProfile") (body.field? "hydrateParticipants"))
  | .structureData body => some ("gsd|" ++ template (body.field? "tournamentId") ++ "|" ++
      template (body.field? "structureId"))
  | .scheduledMatchUps body => paramsKey "gtm" body
  | .participants body => paramsKey "gtp" body
  | .matchUps body => some ("gmr|" ++ template (body.field? "tournamentId"))

/-! ## Payloads -/

variable (q : FactoryQueries)

/-- The record of an id, or the error of the read. -/
def withRecord (t : Tables) (tournamentId : Option Json) (k : TournamentRecord → Json) : Json :=
  if !truthy tournamentId then errorAnswer "MISSING_TOURNAMENT_ID" else
  match t.tournaments (q.pg.text (tournamentId.getD .null)) with
  | none => errorAnswer "Tournament not found"
  | some row => k row.record

/-- `resolvePublicParticipantPolicy`, told whether it was given the provider storage. -/
def resolvePublicParticipantPolicy (t : Tables) (providerStorage : Bool)
    (record : TournamentRecord) : Json :=
  match q.attachedParticipantPolicy record with
  | some policy => policy
  | none => q.buildParticipantPrivacyPolicy
      (if providerStorage then
        ((getTournamentProviderId record).bind t.providers).bind q.participantPrivacy
      else none)

/-- `publicQueries.getEventData`. -/
def getEventData (t : Tables) (providerStorage : Bool)
    (tournamentId eventId hydrateParticipants drawsProfile : Option Json) : Json :=
  withRecord q t tournamentId fun record =>
    q.eventData record (resolvePublicParticipantPolicy q t providerStorage record)
      hydrateParticipants drawsProfile eventId

/-- `publicQueries.getDrawData`. -/
def getDrawData (t : Tables) (body : Json) : Json :=
  if truthy (body.field? "tournamentId") && !truthy (body.field? "drawId") then
    errorAnswer "MISSING_DRAW_ID" else
  withRecord q t (body.field? "tournamentId") fun record =>
    q.drawData record (resolvePublicParticipantPolicy q t true record)
      (body.field? "hydrateParticipants") (body.field? "structuresProfile") (body.field? "drawId")

/-- `publicQueries.getStructureData`. -/
def getStructureData (t : Tables) (body : Json) : Json :=
  if truthy (body.field? "tournamentId") && !truthy (body.field? "drawId") then
    errorAnswer "MISSING_DRAW_ID" else
  if truthy (body.field? "tournamentId") && !truthy (body.field? "structureId") then
    errorAnswer "MISSING_STRUCTURE_ID" else
  withRecord q t (body.field? "tournamentId") fun record =>
    q.structureData record (resolvePublicParticipantPolicy q t true record)
      (body.field? "drawId") (body.field? "structureId")

/-- `publicQueries.getTournamentInfo`. -/
def getTournamentInfo (t : Tables) (params : Json) : Json :=
  withRecord q t (params.field? "tournamentId") fun record =>
    q.tournamentInfo record (params.field? "withMatchUpStats")
      (params.field? "withStructureDetails") (params.field? "usePublishState")
      (params.field? "withVenueData")

/-- What a request computes. -/
def payload : CachedRead → Tables → Json
  | .assistantContext tid, t => withRecord q t (some (.str tid)) q.assistantContext
  | .publicInfo tid, t => getTournamentInfo q t
      (.obj [("tournamentId", .str tid), ("usePublishState", .bool true)])
  | .tournamentInfo identified body, t => getTournamentInfo q t (infoParams identified body)
  | .eventData body, t => getEventData q t true (body.field? "tournamentId")
      (body.field? "eventId") (body.field? "hydrateParticipants") (body.field? "drawsProfile")
  | .drawData body, t => getDrawData q t body
  | .structureData body, t => getStructureData q t body
  | .scheduledMatchUps body, t =>
    let params := (body.field? "params").getD .null
    withRecord q t (params.field? "tournamentId") fun record =>
      q.scheduleMatchUps record (resolvePublicParticipantPolicy q t true record) params
  | .participants body, t =>
    let params := (body.field? "params").getD .null
    withRecord q t (params.field? "tournamentId") fun record =>
      q.participants record (resolvePublicParticipantPolicy q t true record) params
  | .matchUps body, t => withRecord q t (body.field? "tournamentId") fun record =>
      q.matchUps record body

/-- `!result.error`. -/
def isCacheable (result : Json) : Bool := !truthy (result.field? "error")

/-- The parts of `key.split('|')`. -/
def segments (key : String) : List String :=
  (key.toList.splitOn '|').map String.ofList

/-- What `warmEventDataCache` computes for a key: the event without the provider
storage, unless the key is no plain event key or the rebuild fails. -/
def warmEventData (key : String) (t : Tables) : Option Json :=
  match segments key with
  | label :: tournamentId :: eventId :: rest =>
    if label != "ged" || tournamentId == "" || eventId == "" then none
    else if (rest.head?.getD "") != "" then none
    else
      let result := getEventData q t false (some (.str tournamentId)) (some (.str eventId)) none none
      if isCacheable result then some result else none
  | _ => none

/-- The cache of the read routes. -/
def readers : Readers Tables String Json CachedRead where
  key := cacheKey
  payload := payload q
  cacheable := isCacheable
  rebuild := warmEventData q

/-! ## The condition -/

/-- A string without bars. -/
def Plain (s : String) : Prop := '|' ∉ s.toList

/-- The options of an event or draw request with a documented meaning. -/
structure PlainOptions (hydrate profile : Option Json) : Prop where
  /-- The switch is absent or a boolean. -/
  hydrate : hydrate = none ∨ ∃ b, hydrate = some (.bool b)
  /-- The profile is absent or one of the two names. -/
  profile : profile = none ∨ profile = some (.str "FULL") ∨ profile = some (.str "STUBS")

/-- What all callers agree on where a key leaves a parameter out. -/
structure Conventions where
  /-- The draw a structure is asked for in, by tournament and structure id. -/
  drawOf : String → String → Json
  /-- The parameters of the schedule of a tournament. -/
  schedule : String → Json
  /-- The parameters of the participants of a tournament. -/
  roster : String → Json
  /-- The body of the matchUps of a tournament. -/
  matchUps : String → Json

/-- The requests whose key says everything about them. -/
def Admits (c : Conventions) : CachedRead → Prop
  | .assistantContext _ => True
  | .publicInfo tid => Plain tid
  | .tournamentInfo _ body => ∃ tid, body.field? "tournamentId" = some (.str tid) ∧ Plain tid
  | .eventData body => ∃ tid eid, body.field? "tournamentId" = some (.str tid) ∧
      body.field? "eventId" = some (.str eid) ∧ Plain tid ∧ Plain eid ∧
      PlainOptions (body.field? "hydrateParticipants") (body.field? "drawsProfile")
  | .drawData body => ∃ tid did, body.field? "tournamentId" = some (.str tid) ∧
      body.field? "drawId" = some (.str did) ∧ Plain tid ∧ Plain did ∧
      PlainOptions (body.field? "hydrateParticipants") (body.field? "structuresProfile")
  | .structureData body => ∃ tid sid, body.field? "tournamentId" = some (.str tid) ∧
      body.field? "structureId" = some (.str sid) ∧ Plain tid ∧
      body.field? "drawId" = some (c.drawOf tid sid)
  | .scheduledMatchUps body => truthy (chain (body.field? "params") "noCache") = true ∨
      body.field? "params" =
        some (c.schedule (template (chain (body.field? "params") "tournamentId")))
  | .participants body => truthy (chain (body.field? "params") "noCache") = true ∨
      body.field? "params" =
        some (c.roster (template (chain (body.field? "params") "tournamentId")))
  | .matchUps body => body = c.matchUps (template (body.field? "tournamentId"))

/-- The tournament id a request looks up. -/
def looksUp : CachedRead → Option Json
  | .assistantContext tid => some (.str tid)
  | .publicInfo tid => some (.str tid)
  | .tournamentInfo identified body => (infoParams identified body).field? "tournamentId"
  | .eventData body => body.field? "tournamentId"
  | .drawData body => body.field? "tournamentId"
  | .structureData body => body.field? "tournamentId"
  | .scheduledMatchUps body => ((body.field? "params").getD .null).field? "tournamentId"
  | .participants body => ((body.field? "params").getD .null).field? "tournamentId"
  | .matchUps body => body.field? "tournamentId"

/-- The tournament of an id and its provider are the same in two worlds. -/
structure SameRows (t t' : Tables) (id : Option Json) : Prop where
  /-- The row of the tournament. -/
  tournament : t.tournaments (q.pg.text (id.getD .null)) =
    t'.tournaments (q.pg.text (id.getD .null))
  /-- The row of its provider. -/
  provider : ∀ row, t.tournaments (q.pg.text (id.getD .null)) = some row →
    ∀ providerId, getTournamentProviderId row.record = some providerId →
      t.providers providerId = t'.providers providerId

/-- A policy is attached to the record, or its provider selects no privacy. -/
def PolicyFixed (t : Tables) (record : TournamentRecord) : Prop :=
  (q.attachedParticipantPolicy record).isSome = true ∨
    ((getTournamentProviderId record).bind t.providers).bind q.participantPrivacy = none

/-- The keys of the read routes, up to their first bar. -/
def labels : List String := ["gac", "gti", "ged", "gdd", "gsd", "gtm", "gtp", "gmr"]

/-- The condition on a step: readers ask for what their keys say, the warmer needs
no provider, other writers stay off the readers' keys, and nothing changes under a
value that was computed and is not yet stored. -/
def Meets (c : Conventions) (s : State Tables String Json) :
    Step Tables String Json CachedRead → Prop
  | .read request => Admits c request
  | .warm key => ∀ tid row, (segments key)[1]? = some tid → s.world.tournaments tid = some row →
      PolicyFixed q s.world row.record
  | .store _ => True
  | .put key _ => (s.entries key).isSome = true ∨ ∀ l ∈ labels, (segments key).head? ≠ some l
  | .drop _ => True
  | .change world => ∀ fill ∈ s.fills, ∀ request, Admits c request →
      cacheKey request = some fill.1 → SameRows q s.world world (looksUp request)

/-! ## Keys tell admitted requests apart -/

/-- The part before the first bar is a segment. -/
theorem segments_cons {a : String} (ha : Plain a) (b : String) :
    segments (a ++ "|" ++ b) = a :: segments b := by
  have hlist : (a ++ "|" ++ b).toList = a.toList ++ '|' :: b.toList := by
    simp [String.toList_append]
  simp only [segments, hlist, List.splitOn_append_cons_self_of_not_mem ha, List.map_cons,
    String.ofList_toList]

/-- A string without bars is its only segment. -/
theorem segments_plain {a : String} (ha : Plain a) : segments a = [a] := by
  simp only [segments, List.splitOn_eq_singleton ha, List.map_cons, List.map_nil,
    String.ofList_toList]

/-- What stands before and after the first bar is determined. -/
theorem bar_cancel {a a' b b' : String} (ha : Plain a) (ha' : Plain a')
    (h : a ++ "|" ++ b = a' ++ "|" ++ b') : a = a' ∧ b = b' := by
  have hsegments := congrArg segments h
  rw [segments_cons ha, segments_cons ha'] at hsegments
  have hhead : a = a' := (List.cons.inj hsegments).1
  subst hhead
  exact ⟨rfl, (String.append_right_inj _).mp h⟩

/-- A suffix is one of three. -/
theorem payloadVariant_cases (profile hydrate : Option Json) :
    payloadVariant profile hydrate = "" ∨ payloadVariant profile hydrate = "|s" ∨
      payloadVariant profile hydrate = "|n" := by
  unfold payloadVariant
  split_ifs
  · exact .inr (.inl rfl)
  · split
    · exact .inr (.inr rfl)
    · exact .inl rfl

/-- The segments of an id with a suffix. -/
theorem segments_variant {id : String} (hid : Plain id) (profile hydrate : Option Json) :
    (payloadVariant profile hydrate = "" ∧
        segments (id ++ payloadVariant profile hydrate) = [id]) ∨
      ∃ mark, mark ≠ "" ∧ segments (id ++ payloadVariant profile hydrate) = [id, mark] := by
  rcases payloadVariant_cases profile hydrate with h | h | h
  · refine .inl ⟨h, ?_⟩
    rw [h, String.append_empty, segments_plain hid]
  · refine .inr ⟨"s", by decide, ?_⟩
    have hbar : id ++ "|s" = id ++ "|" ++ "s" := by rw [String.append_assoc]; rfl
    rw [h, hbar, segments_cons hid]
    rfl
  · refine .inr ⟨"n", by decide, ?_⟩
    have hbar : id ++ "|n" = id ++ "|" ++ "n" := by rw [String.append_assoc]; rfl
    rw [h, hbar, segments_cons hid]
    rfl

/-- The id and the suffix of a key are determined. -/
theorem variant_cancel {id id' : String} (hid : Plain id) (hid' : Plain id')
    {profile hydrate profile' hydrate' : Option Json}
    (h : id ++ payloadVariant profile hydrate = id' ++ payloadVariant profile' hydrate') :
    id = id' ∧ payloadVariant profile hydrate = payloadVariant profile' hydrate' := by
  have hhead : ∀ {name : String}, Plain name → ∀ p y,
      (segments (name ++ payloadVariant p y)).head? = some name := by
    intro name hname p y
    rcases segments_variant hname p y with ⟨-, hs⟩ | ⟨mark, -, hs⟩ <;> rw [hs] <;> rfl
  have hid_eq : some id = some id' := by
    rw [← hhead hid profile hydrate, ← hhead hid' profile' hydrate', h]
  cases hid_eq
  exact ⟨rfl, (String.append_right_inj _).mp h⟩

/-- Four switches are read off their flags. -/
theorem infoFlags_inj : ∀ a b c d a' b' c' d' : Bool,
    infoFlags a b c d = infoFlags a' b' c' d' → a = a' ∧ b = b' ∧ c = c' ∧ d = d' := by
  decide

/-- The defaults of the two options of a payload. -/
structure VariantLaws (f : Option Json → Option Json → Json) : Prop where
  /-- Participants are hydrated by default. -/
  hydrates : ∀ profile, f none profile = f (some (.bool true)) profile
  /-- The full profile is the default. -/
  full : ∀ hydrate, f hydrate none = f hydrate (some (.str "FULL"))
  /-- A stub does not depend on hydration. -/
  stubs : ∀ hydrate hydrate',
    f hydrate (some (.str "STUBS")) = f hydrate' (some (.str "STUBS"))

/-- The payload of a suffix. -/
def ofVariant (f : Option Json → Option Json → Json) (variant : String) : Json :=
  if variant = "|s" then f none (some (.str "STUBS"))
  else if variant = "|n" then f (some (.bool false)) (some (.str "FULL"))
  else f (some (.bool true)) (some (.str "FULL"))

/-- The suffix decides the payload. -/
theorem VariantLaws.eq_ofVariant {f : Option Json → Option Json → Json} (laws : VariantLaws f)
    {hydrate profile : Option Json} (ho : PlainOptions hydrate profile) :
    f hydrate profile = ofVariant f (payloadVariant profile hydrate) := by
  obtain ⟨hhydrate, hprofile⟩ := ho
  have hfull : ∀ h, h = none ∨ (∃ b, h = some (.bool b)) →
      f h (some (.str "FULL")) = ofVariant f (payloadVariant (some (.str "FULL")) h) := by
    rintro h (rfl | ⟨b | b, rfl⟩)
    · exact laws.hydrates _
    · rfl
    · rfl
  rcases hprofile with rfl | rfl | rfl
  · rw [laws.full, hfull _ hhydrate]
    rfl
  · exact hfull _ hhydrate
  · exact laws.stubs _ _

/-- The label of the key of a request. -/
def label : CachedRead → String
  | .assistantContext _ => "gac"
  | .publicInfo _ => "gti"
  | .tournamentInfo _ _ => "gti"
  | .eventData _ => "ged"
  | .drawData _ => "gdd"
  | .structureData _ => "gsd"
  | .scheduledMatchUps _ => "gtm"
  | .participants _ => "gtp"
  | .matchUps _ => "gmr"

/-- Every label is listed. -/
theorem label_mem (request : CachedRead) : label request ∈ labels := by
  cases request <;> simp [label, labels]

/-- A label has no bars. -/
theorem plain_label (request : CachedRead) : Plain (label request) := by
  have hplain : ∀ l ∈ labels, '|' ∉ l.toList := by decide
  exact hplain _ (label_mem request)

/-- A nested key is its label and the id. -/
theorem eq_of_paramsKey {name key : String} {body : Json} (h : paramsKey name body = some key) :
    truthy (chain (body.field? "params") "noCache") = false ∧
      key = name ++ "|" ++ template (chain (body.field? "params") "tournamentId") := by
  simp only [paramsKey] at h
  split_ifs at h with hskip
  exact ⟨by simpa using hskip, (Option.some.inj h).symm⟩

/-- A front stays when a string grows. -/
theorem front_append {front whole : String} (h : ∃ rest, whole = front ++ rest) (tail : String) :
    ∃ rest, whole ++ tail = front ++ rest := by
  obtain ⟨rest, rfl⟩ := h
  exact ⟨rest ++ tail, String.append_assoc⟩

/-- A key starts with its label. -/
theorem exists_of_cacheKey {request : CachedRead} {key : String}
    (h : cacheKey request = some key) : ∃ rest, key = label request ++ "|" ++ rest := by
  cases request with
  | scheduledMatchUps body => exact ⟨_, (eq_of_paramsKey h).2⟩
  | participants body => exact ⟨_, (eq_of_paramsKey h).2⟩
  | assistantContext tid =>
    simp only [cacheKey, Option.some.injEq] at h
    have hfront : ∃ rest, "gac|" = "gac" ++ "|" ++ rest := ⟨"", rfl⟩
    exact h ▸ front_append hfront _
  | publicInfo tid =>
    simp only [cacheKey, Option.some.injEq] at h
    have hfront : ∃ rest, "gti|" = "gti" ++ "|" ++ rest := ⟨"", rfl⟩
    exact h ▸ front_append hfront _
  | matchUps body =>
    simp only [cacheKey, Option.some.injEq] at h
    have hfront : ∃ rest, "gmr|" = "gmr" ++ "|" ++ rest := ⟨"", rfl⟩
    exact h ▸ front_append hfront _
  | tournamentInfo identified body =>
    simp only [cacheKey, Option.some.injEq] at h
    have hfront : ∃ rest, "gti|" = "gti" ++ "|" ++ rest := ⟨"", rfl⟩
    exact h ▸ front_append (front_append (front_append hfront _) _) _
  | structureData body =>
    simp only [cacheKey, Option.some.injEq] at h
    have hfront : ∃ rest, "gsd|" = "gsd" ++ "|" ++ rest := ⟨"", rfl⟩
    exact h ▸ front_append (front_append (front_append hfront _) _) _
  | eventData body =>
    simp only [cacheKey, Option.some.injEq] at h
    have hfront : ∃ rest, "ged|" = "ged" ++ "|" ++ rest := ⟨"", rfl⟩
    exact h ▸ front_append (front_append (front_append (front_append hfront _) _) _) _
  | drawData body =>
    simp only [cacheKey, Option.some.injEq] at h
    have hfront : ∃ rest, "gdd|" = "gdd" ++ "|" ++ rest := ⟨"", rfl⟩
    exact h ▸ front_append (front_append (front_append (front_append hfront _) _) _) _

/-- The first segment of a key is its label. -/
theorem head_segments {request : CachedRead} {key : String} (h : cacheKey request = some key) :
    (segments key).head? = some (label request) := by
  obtain ⟨rest, rfl⟩ := exists_of_cacheKey h
  rw [segments_cons (plain_label request)]
  rfl

/-- Requests that share a key share its label. -/
theorem same_label {request other : CachedRead} {key : String} (h : cacheKey request = some key)
    (h' : cacheKey other = some key) : label request = label other := by
  have hhead := head_segments h
  rw [head_segments h'] at hhead
  exact (Option.some.inj hhead).symm

/-- The parameters of the tournament info keep the id. -/
theorem infoParams_tournamentId {identified : Bool} {body : Json} {tid : String}
    (h : body.field? "tournamentId" = some (.str tid)) :
    (infoParams identified body).field? "tournamentId" = some (.str tid) := by
  cases identified with
  | true => exact h
  | false =>
    obtain ⟨fields, rfl⟩ := Json.obj_of_field h
    have hne : ∀ f ∈ [("usePublishState", Json.bool true)], "tournamentId" ≠ f.1 := by
      simp
    simp only [infoParams, Bool.false_eq_true, if_false]
    rw [field_spread_obj fields hne]
    exact h

/-- What follows a plain id in a key is determined. -/
theorem id_cancel {front tid tid' rest rest' : String} (htid : Plain tid) (htid' : Plain tid')
    (h : front ++ tid ++ "|" ++ rest = front ++ tid' ++ "|" ++ rest') :
    tid = tid' ∧ rest = rest' := by
  have hcancelled : tid ++ "|" ++ rest = tid' ++ "|" ++ rest' := by
    simpa only [String.append_assoc, String.append_right_inj] using h
  exact bar_cancel htid htid' hcancelled

/-- So are both ids and the suffix. -/
theorem variant_id_cancel {front tid tid' id id' : String} (htid : Plain tid)
    (htid' : Plain tid') (hid : Plain id) (hid' : Plain id')
    {profile hydrate profile' hydrate' : Option Json}
    (h : front ++ tid ++ "|" ++ id ++ payloadVariant profile hydrate =
      front ++ tid' ++ "|" ++ id' ++ payloadVariant profile' hydrate') :
    tid = tid' ∧ id = id' ∧ payloadVariant profile hydrate = payloadVariant profile' hydrate' := by
  have hassoc : front ++ tid ++ "|" ++ (id ++ payloadVariant profile hydrate) =
      front ++ tid' ++ "|" ++ (id' ++ payloadVariant profile' hydrate') := by
    simpa only [String.append_assoc] using h
  obtain ⟨rfl, hrest⟩ := id_cancel htid htid' hassoc
  exact ⟨rfl, variant_cancel hid hid' hrest⟩

/-- The event payload of an admitted request. -/
theorem eventData_eq (q : FactoryQueries) (t : Tables) (providerStorage : Bool)
    (tid eid : Option Json) {hydrate profile : Option Json} (ho : PlainOptions hydrate profile) :
    getEventData q t providerStorage tid eid hydrate profile =
      withRecord q t tid fun record =>
        ofVariant (fun h p => q.eventData record
          (resolvePublicParticipantPolicy q t providerStorage record) h p eid)
          (payloadVariant profile hydrate) := by
  unfold getEventData
  congr 1
  funext record
  have laws : VariantLaws fun h p => q.eventData record
      (resolvePublicParticipantPolicy q t providerStorage record) h p eid :=
    ⟨fun _ => q.event_hydrates _ _ _ _, fun _ => q.event_full _ _ _ _,
      fun _ _ => q.event_stubs _ _ _ _ _⟩
  exact laws.eq_ofVariant ho

/-- The draw payload of an admitted request. -/
theorem drawData_eq (q : FactoryQueries) (t : Tables) {body : Json}
    (ho : PlainOptions (body.field? "hydrateParticipants") (body.field? "structuresProfile")) :
    getDrawData q t body =
      if truthy (body.field? "tournamentId") && !truthy (body.field? "drawId") then
        errorAnswer "MISSING_DRAW_ID" else
      withRecord q t (body.field? "tournamentId") fun record =>
        ofVariant (fun h p => q.drawData record (resolvePublicParticipantPolicy q t true record)
          h p (body.field? "drawId"))
          (payloadVariant (body.field? "structuresProfile")
            (body.field? "hydrateParticipants")) := by
  unfold getDrawData
  congr 1
  congr 1
  funext record
  have laws : VariantLaws fun h p => q.drawData record
      (resolvePublicParticipantPolicy q t true record) h p (body.field? "drawId") :=
    ⟨fun _ => q.draw_hydrates _ _ _ _, fun _ => q.draw_full _ _ _ _,
      fun _ _ => q.draw_stubs _ _ _ _ _⟩
  exact laws.eq_ofVariant ho

/-- The tournament info depends on the switches only. -/
theorem tournamentInfo_congr (q : FactoryQueries) (t : Tables) {params params' : Json}
    (htid : params.field? "tournamentId" = params'.field? "tournamentId")
    (hflags : infoFlags (truthy (params.field? "withMatchUpStats"))
        (truthy (params.field? "withStructureDetails")) (truthy (params.field? "usePublishState"))
        (truthy (params.field? "withVenueData")) =
      infoFlags (truthy (params'.field? "withMatchUpStats"))
        (truthy (params'.field? "withStructureDetails"))
        (truthy (params'.field? "usePublishState")) (truthy (params'.field? "withVenueData"))) :
    getTournamentInfo q t params = getTournamentInfo q t params' := by
  obtain ⟨hstats, hdetails, hpublish, hvenues⟩ := infoFlags_inj _ _ _ _ _ _ _ _ hflags
  unfold getTournamentInfo
  rw [htid]
  congr 1
  funext record
  rw [q.info_default, hstats, hdetails, hpublish, hvenues, ← q.info_default]

/-- A key of the tournament info with flags is no key without. -/
theorem flags_ne_public {tid tid' flags : String} (htid : Plain tid) :
    "gti|" ++ tid ≠ "gti|" ++ tid' ++ "|" ++ flags := by
  intro h
  have hcancelled : tid = tid' ++ "|" ++ flags := by
    simpa only [String.append_assoc, String.append_right_inj] using h
  refine htid ?_
  rw [hcancelled]
  simp [String.toList_append]

/-- A nested request that is cached has the agreed parameters. -/
theorem params_agree {name key : String} {body body' : Json} {agreed : String → Json}
    (ha : truthy (chain (body.field? "params") "noCache") = true ∨
      body.field? "params" = some (agreed (template (chain (body.field? "params") "tournamentId"))))
    (ha' : truthy (chain (body'.field? "params") "noCache") = true ∨
      body'.field? "params" =
        some (agreed (template (chain (body'.field? "params") "tournamentId"))))
    (hk : paramsKey name body = some key) (hk' : paramsKey name body' = some key) :
    body.field? "params" = body'.field? "params" := by
  obtain ⟨hcached, hkey⟩ := eq_of_paramsKey hk
  obtain ⟨hcached', hkey'⟩ := eq_of_paramsKey hk'
  have htid : template (chain (body.field? "params") "tournamentId") =
      template (chain (body'.field? "params") "tournamentId") := by
    rw [hkey] at hkey'
    exact (String.append_right_inj _).mp hkey'
  have hparams := ha.resolve_left (by rw [hcached]; exact Bool.false_ne_true)
  have hparams' := ha'.resolve_left (by rw [hcached']; exact Bool.false_ne_true)
  rw [hparams, hparams', htid]

/-- Admitted requests that share a key compute the same function. -/
theorem readers_faithful (q : FactoryQueries) (c : Conventions) :
    Faithful (readers q) (Admits c) := by
  intro request other key ha ha' hk hk'
  have hlabel := same_label hk hk'
  change cacheKey request = some key at hk
  change cacheKey other = some key at hk'
  funext t
  cases request with
  | assistantContext tid =>
    cases other <;> simp only [label, String.reduceEq] at hlabel
    simp only [cacheKey, Option.some.injEq] at hk hk'
    have htid := (String.append_right_inj _).mp (hk.trans hk'.symm)
    rw [htid]
  | publicInfo tid =>
    cases other <;> simp only [label, String.reduceEq] at hlabel
    · simp only [cacheKey, Option.some.injEq] at hk hk'
      have htid := (String.append_right_inj _).mp (hk.trans hk'.symm)
      rw [htid]
    · simp only [cacheKey, Option.some.injEq] at hk hk'
      exact absurd (hk.trans hk'.symm) (flags_ne_public ha)
  | tournamentInfo identified body =>
    obtain ⟨tid, htid, hplain⟩ := ha
    cases other <;> simp only [label, String.reduceEq] at hlabel
    · simp only [cacheKey, Option.some.injEq] at hk hk'
      exact absurd (hk'.trans hk.symm) (flags_ne_public ha')
    · rename_i identified' body'
      obtain ⟨tid', htid', hplain'⟩ := ha'
      simp only [cacheKey, Option.some.injEq] at hk hk'
      have hparams : (infoParams identified body).field? "tournamentId" = some (.str tid) :=
        infoParams_tournamentId htid
      have hparams' : (infoParams identified' body').field? "tournamentId" = some (.str tid') :=
        infoParams_tournamentId htid'
      rw [hparams] at hk
      rw [hparams'] at hk'
      obtain ⟨heq, hflags⟩ := id_cancel hplain hplain' (hk.trans hk'.symm)
      exact tournamentInfo_congr q t (by rw [hparams, hparams']; exact heq ▸ rfl) hflags
  | eventData body =>
    cases other <;> simp only [label, String.reduceEq] at hlabel
    obtain ⟨tid, eid, htid, heid, hplain, hplainId, ho⟩ := ha
    obtain ⟨tid', eid', htid', heid', hplain', hplainId', ho'⟩ := ha'
    simp only [cacheKey, Option.some.injEq, htid, heid] at hk
    simp only [cacheKey, Option.some.injEq, htid', heid'] at hk'
    obtain ⟨hTid, hEid, hvariant⟩ :=
      variant_id_cancel hplain hplain' hplainId hplainId' (hk.trans hk'.symm)
    change getEventData q t true _ _ _ _ = getEventData q t true _ _ _ _
    rw [eventData_eq q t true _ _ ho, eventData_eq q t true _ _ ho', htid, htid', heid, heid',
      hvariant]
    subst hTid hEid
    rfl
  | drawData body =>
    cases other <;> simp only [label, String.reduceEq] at hlabel
    obtain ⟨tid, did, htid, hdid, hplain, hplainId, ho⟩ := ha
    obtain ⟨tid', did', htid', hdid', hplain', hplainId', ho'⟩ := ha'
    simp only [cacheKey, Option.some.injEq, htid, hdid] at hk
    simp only [cacheKey, Option.some.injEq, htid', hdid'] at hk'
    obtain ⟨hTid, hDid, hvariant⟩ :=
      variant_id_cancel hplain hplain' hplainId hplainId' (hk.trans hk'.symm)
    change getDrawData q t _ = getDrawData q t _
    rw [drawData_eq q t ho, drawData_eq q t ho', htid, htid', hdid, hdid', hvariant]
    subst hTid hDid
    rfl
  | structureData body =>
    cases other <;> simp only [label, String.reduceEq] at hlabel
    obtain ⟨tid, sid, htid, hsid, hplain, hdraw⟩ := ha
    obtain ⟨tid', sid', htid', hsid', hplain', hdraw'⟩ := ha'
    simp only [cacheKey, Option.some.injEq, htid, hsid] at hk
    simp only [cacheKey, Option.some.injEq, htid', hsid'] at hk'
    obtain ⟨hTid, hSid⟩ := id_cancel hplain hplain' (hk.trans hk'.symm)
    change sid = sid' at hSid
    change tid = tid' at hTid
    change getStructureData q t _ = getStructureData q t _
    unfold getStructureData
    rw [htid, htid', hsid, hsid', hdraw, hdraw', hTid, hSid]
  | scheduledMatchUps body =>
    cases other <;> simp only [label, String.reduceEq] at hlabel
    have hparams := params_agree ha ha' hk hk'
    simp only [readers, payload, hparams]
  | participants body =>
    cases other <;> simp only [label, String.reduceEq] at hlabel
    have hparams := params_agree ha ha' hk hk'
    simp only [readers, payload, hparams]
  | matchUps body =>
    cases other <;> simp only [label, String.reduceEq] at hlabel
    rename_i body'
    simp only [cacheKey, Option.some.injEq] at hk hk'
    have htid := (String.append_right_inj _).mp (hk.trans hk'.symm)
    have hbody : body = body' := by
      have ha₁ : body = _ := ha
      have ha₂ : body' = _ := ha'
      rw [ha₁, ha₂, htid]
    rw [hbody]

/-! ## What a payload reads -/

/-- A read of one record depends on its row. -/
theorem withRecord_congr {q : FactoryQueries} {t t' : Tables} {id : Option Json}
    {k k' : TournamentRecord → Json}
    (hrow : t.tournaments (q.pg.text (id.getD .null)) =
      t'.tournaments (q.pg.text (id.getD .null)))
    (hk : ∀ row, t.tournaments (q.pg.text (id.getD .null)) = some row →
      k row.record = k' row.record) : withRecord q t id k = withRecord q t' id k' := by
  unfold withRecord
  rw [← hrow]
  split_ifs
  · rfl
  · cases hfound : t.tournaments (q.pg.text (id.getD .null)) with
    | none => rfl
    | some row => exact hk row hfound

/-- The policy depends on the row of the provider. -/
theorem policy_congr {q : FactoryQueries} {t t' : Tables} {record : TournamentRecord}
    (hprovider : ∀ providerId, getTournamentProviderId record = some providerId →
      t.providers providerId = t'.providers providerId) (providerStorage : Bool) :
    resolvePublicParticipantPolicy q t providerStorage record =
      resolvePublicParticipantPolicy q t' providerStorage record := by
  have hbind : (getTournamentProviderId record).bind t.providers =
      (getTournamentProviderId record).bind t'.providers := by
    cases hid : getTournamentProviderId record with
    | none => rfl
    | some providerId => exact hprovider providerId hid
  simp only [resolvePublicParticipantPolicy, hbind]

/-- The warmer's policy is the readers' where the provider decides nothing. -/
theorem policy_of_fixed {q : FactoryQueries} {t : Tables} {record : TournamentRecord}
    (h : PolicyFixed q t record) :
    resolvePublicParticipantPolicy q t false record =
      resolvePublicParticipantPolicy q t true record := by
  unfold resolvePublicParticipantPolicy
  cases hattached : q.attachedParticipantPolicy record with
  | some policy => rfl
  | none =>
    have hprivacy := h.resolve_left (by rw [hattached]; exact Bool.false_ne_true)
    simp only [hprivacy, if_true]
    rfl

/-- A request computes the same in two worlds with the same rows. -/
theorem payload_same_rows {q : FactoryQueries} {t t' : Tables} {request : CachedRead}
    (h : SameRows q t t' (looksUp request)) : payload q request t = payload q request t' := by
  have htournament := h.tournament
  have hpolicy : ∀ row, t.tournaments (q.pg.text ((looksUp request).getD .null)) = some row →
      resolvePublicParticipantPolicy q t true row.record =
        resolvePublicParticipantPolicy q t' true row.record :=
    fun row hrow => policy_congr (h.provider row hrow) true
  cases request with
  | assistantContext tid => exact withRecord_congr htournament fun _ _ => rfl
  | publicInfo tid =>
    have hid : Json.field? "tournamentId"
        (.obj [("tournamentId", .str tid), ("usePublishState", .bool true)]) = some (.str tid) := by
      simp [Json.field?]
    simp only [payload, getTournamentInfo, hid]
    exact withRecord_congr htournament fun _ _ => rfl
  | tournamentInfo identified body =>
    simp only [payload, getTournamentInfo]
    exact withRecord_congr htournament fun _ _ => rfl
  | eventData body =>
    simp only [payload, getEventData]
    refine withRecord_congr htournament fun row hrow => ?_
    rw [hpolicy row hrow]
  | drawData body =>
    simp only [payload, getDrawData]
    congr 1
    refine withRecord_congr htournament fun row hrow => ?_
    rw [hpolicy row hrow]
  | structureData body =>
    simp only [payload, getStructureData]
    congr 2
    refine withRecord_congr htournament fun row hrow => ?_
    rw [hpolicy row hrow]
  | scheduledMatchUps body =>
    simp only [payload]
    refine withRecord_congr htournament fun row hrow => ?_
    rw [hpolicy row hrow]
  | participants body =>
    simp only [payload]
    refine withRecord_congr htournament fun row hrow => ?_
    rw [hpolicy row hrow]
  | matchUps body =>
    simp only [payload]
    exact withRecord_congr htournament fun _ _ => rfl

/-- The warmer computes nothing but plain event keys. -/
theorem segments_of_warm {q : FactoryQueries} {key : String} {t : Tables} {value : Json}
    (h : warmEventData q key t = some value) :
    ∃ tid eid rest, segments key = "ged" :: tid :: eid :: rest ∧ rest.head?.getD "" = "" ∧
      value = getEventData q t false (some (.str tid)) (some (.str eid)) none none := by
  unfold warmEventData at h
  split at h
  · rename_i name tid eid rest hsegments
    dsimp only at h
    split_ifs at h with hlabel hmark
    have hged : name = "ged" := by
      by_contra hne
      exact hlabel (by simp [hne])
    refine ⟨tid, eid, rest, by rw [hsegments, hged], by simpa using hmark, ?_⟩
    exact (Option.some.inj h).symm
  · cases h

/-- What the warmer computes for the key of an admitted request is its payload. -/
theorem warm_eq_payload {q : FactoryQueries} {c : Conventions} {key : String} {t : Tables}
    {value : Json} (hw : warmEventData q key t = some value)
    (hfixed : ∀ tid row, (segments key)[1]? = some tid → t.tournaments tid = some row →
      PolicyFixed q t row.record) {request : CachedRead} (ha : Admits c request)
    (hk : cacheKey request = some key) : value = payload q request t := by
  obtain ⟨tid, eid, rest, hsegments, hmark, rfl⟩ := segments_of_warm hw
  have hlabel := head_segments hk
  rw [hsegments] at hlabel
  cases request <;> simp only [label, List.head?_cons, Option.some.injEq, String.reduceEq] at hlabel
  rename_i body
  obtain ⟨tid', eid', htid, heid, hplain, hplainId, ho⟩ := ha
  simp only [cacheKey, Option.some.injEq, htid, heid] at hk
  have hged : Plain "ged" := plain_label (.eventData body)
  have hread : segments key = "ged" :: tid' :: segments (eid' ++
      payloadVariant (body.field? "drawsProfile") (body.field? "hydrateParticipants")) := by
    have hkey : key = "ged" ++ "|" ++ (tid' ++ "|" ++ (eid' ++
        payloadVariant (body.field? "drawsProfile") (body.field? "hydrateParticipants"))) := by
      rw [← hk]
      simp only [template, Option.map_some, Option.getD_some, Json.propertyKey,
        String.append_assoc]
      rfl
    rw [hkey, segments_cons hged, segments_cons hplain]
  rw [hsegments] at hread
  obtain ⟨rfl, hsplit⟩ := List.cons.inj (List.cons.inj hread).2
  rcases segments_variant hplainId (body.field? "drawsProfile")
    (body.field? "hydrateParticipants") with ⟨hvariant, hs⟩ | ⟨mark, hne, hs⟩
  · rw [hs] at hsplit
    obtain ⟨rfl, -⟩ := List.cons.inj hsplit
    have hplainOptions : PlainOptions none none := ⟨.inl rfl, .inl rfl⟩
    change _ = getEventData q t true _ _ _ _
    rw [eventData_eq q t false _ _ hplainOptions, eventData_eq q t true _ _ ho, htid, heid,
      hvariant]
    refine withRecord_congr rfl fun row hrow => ?_
    have hrow' : t.tournaments tid = some row := by simpa [q.pg.text_str] using hrow
    rw [policy_of_fixed (hfixed tid row (by rw [hsegments]; rfl) hrow')]
    rfl
  · rw [hs] at hsplit
    obtain ⟨-, rfl⟩ := List.cons.inj hsplit
    exact absurd hmark hne

/-! ## Transparency -/

/-- The condition on a step is enough for the cache. -/
theorem stepMeets_of_meets {q : FactoryQueries} {c : Conventions} {s : State Tables String Json}
    {st : Step Tables String Json CachedRead} (h : Meets q c s st) :
    StepMeets (readers q) (Admits c) s st := by
  cases st with
  | read request => exact h
  | warm key =>
    intro value hw request ha hk
    exact warm_eq_payload hw h ha hk
  | store index => trivial
  | put key value =>
    intro hnone request ha hk
    rcases h with hsome | hlabels
    · rw [hnone] at hsome
      cases hsome
    · exact hlabels _ (label_mem request) (head_segments hk)
  | drop key => trivial
  | change world =>
    intro fill hf request ha hk
    exact (payload_same_rows (h fill hf request ha hk)).symm

/-- In every run from an empty cache whose steps meet the condition, every response
served from the cache is one the request itself would have had since the entry was
written. -/
theorem responses_transparent (q : FactoryQueries) (c : Conventions) (world : Tables)
    (steps : List (Step Tables String Json CachedRead))
    (h : RunMeets (readers q) (Meets q c) (State.start world) steps) :
    RunMeets (readers q) (fun s st => ∀ request, st = .read request →
      Transparent (readers q) s request) (State.start world) steps := by
  have hmeets : RunMeets (readers q) (StepMeets (readers q) (Admits c)) (State.start world) steps :=
    h.imp fun _ _ => stepMeets_of_meets
  have hrun := run_consistent (readers_faithful q c) hmeets (consistent_start world)
  refine hrun.imp fun s st hs request hread => ?_
  subst hread
  exact hs.2.entries request hs.1

/-! ## Runs -/

/-- Queries that show the publish state, the policy and the parameters they are given. -/
def plainQueries : FactoryQueries where
  pg := plainBinding
  attachedParticipantPolicy _ := none
  participantPrivacy provider := some provider.providerConfigSettings
  buildParticipantPrivacyPolicy privacy := privacy.getD .null
  assistantContext _ := .obj []
  tournamentInfo _ _ _ publish _ := .obj [("published", .bool (truthy publish))]
  eventData _ policy _ _ _ := .obj [("policy", policy)]
  drawData _ policy _ _ _ := .obj [("policy", policy)]
  structureData _ policy _ _ := .obj [("policy", policy)]
  scheduleMatchUps _ _ params := .obj [("params", params)]
  participants _ _ params := .obj [("params", params)]
  matchUps _ body := .obj [("params", body)]
  info_default _ _ _ _ _ := rfl
  event_hydrates _ _ _ _ := rfl
  event_full _ _ _ _ := rfl
  event_stubs _ _ _ _ _ := rfl
  draw_hydrates _ _ _ _ := rfl
  draw_full _ _ _ _ := rfl
  draw_stubs _ _ _ _ _ := rfl

/-- One tournament `t` of the provider `p`, which withholds nothing. -/
def oneTournament : Tables :=
  { DurableSave.emptyTables with
    tournaments := fun id =>
      if id = "t" then some ⟨DurableSave.plainRecord "t" (some "p"), 0, 0⟩ else none
    providers := fun id => if id = "p" then some ⟨none, .null, .bool false⟩ else none }

/-- The schedule of `t` on a day. -/
def scheduleOn (day : String) : CachedRead :=
  .scheduledMatchUps (.obj [("params", .obj [("tournamentId", .str "t"), ("day", .str day)])])

/-- Agreements that admit the schedule of `t` on Monday. -/
def mondays : Conventions where
  drawOf _ _ := .null
  schedule id := .obj [("tournamentId", .str id), ("day", .str "monday")]
  roster _ := .null
  matchUps _ := .null

/-- Everybody asks for Monday. -/
theorem responses_transparent_sample :
    RunMeets (readers plainQueries) (fun s st => ∀ request, st = .read request →
      Transparent (readers plainQueries) s request) (State.start oneTournament)
      [.read (scheduleOn "monday"), .store 0, .read (scheduleOn "monday")] := by
  refine responses_transparent plainQueries mondays oneTournament _ ?_
  have hmonday : Admits mondays (scheduleOn "monday") := .inr rfl
  exact ⟨hmonday, trivial, hmonday, trivial⟩

/-- Two schedules of one tournament, a flagless read of an identified caller before
a path with a bar, a message of a socket, and a warmed event of a provider with a
privacy of its own. -/
def opaqueRuns : List (List (Step Tables String Json CachedRead) × CachedRead) :=
  [([.read (scheduleOn "monday"), .store 0], scheduleOn "sunday"),
    ([.read (.tournamentInfo true (.obj [("tournamentId", .str "t")])), .store 0],
      .publicInfo "t|"),
    ([.put "gac|t" (.obj [("cache", .str "gac|t")])], .assistantContext "t"),
    ([.warm "ged|t|e", .store 0],
      .eventData (.obj [("tournamentId", .str "t"), ("eventId", .str "e")]))]

/-- An entry of one moment is no answer to a request that would have had another. -/
theorem not_transparent (view : Json → Bool) {s : State Tables String Json}
    {request : CachedRead} {key : String} {value : Json} {world : Tables}
    (hk : cacheKey request = some key)
    (he : s.entries key = some ⟨value, [world]⟩)
    (hv : view value ≠ view (payload plainQueries request world)) :
    ¬Transparent (readers plainQueries) s request := by
  intro h
  obtain ⟨moment, hmoment, heq⟩ := h key hk _ he
  obtain rfl := List.mem_singleton.mp hmoment
  exact hv (congrArg view heq)

/-- None of these answers is one the request would have had. -/
theorem responses_not_transparent : ¬ ∃ r ∈ opaqueRuns,
    Transparent (readers plainQueries)
      (run (readers plainQueries) (State.start oneTournament) r.1) r.2 := by
  rintro ⟨r, hr, htransparent⟩
  revert htransparent
  simp only [opaqueRuns, List.mem_cons, List.not_mem_nil, or_false] at hr
  rcases hr with rfl | rfl | rfl | rfl
  · exact not_transparent
      (fun answer => (chain (answer.field? "params") "day").bind Json.str? == some "monday")
      rfl rfl (by decide)
  · exact not_transparent (fun answer => (answer.field? "error").isSome) rfl rfl (by decide)
  · exact not_transparent (fun answer => (answer.field? "cache").isSome) rfl rfl (by decide)
  · exact not_transparent (fun answer => nullish (answer.field? "policy")) rfl rfl (by decide)

end FactoryServer.CachedReads
