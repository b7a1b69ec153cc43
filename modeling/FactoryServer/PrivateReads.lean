import FactoryServer.DurableSave
import Mathlib.Data.List.Dedup

/-!
# The private reads

The routes that return tournament content without the publish state applied,
and the public route that withholds an unpublished tournament. Each response is
a function of the stored tournaments. The question is which of them depend on a
tournament that the caller's gates refuse.
-/

namespace FactoryServer.PrivateReads

open JsonValue TournamentAccess CommandTransaction StorageTables TournamentStorage ExecutionQueue

/-- The identity a read route passes on. -/
structure Caller where
  /-- `req.user`. -/
  user : Option RequestUser
  /-- `req.userContext`. -/
  userContext : Option UserContext
  deriving Repr

/-- What the read routes use besides the tournaments. -/
structure ReadServices where
  /-- `ENABLE_TOURNAMENT_ACCESS_SCOPING`. -/
  scoping : Bool
  /-- The driver. -/
  external : External
  /-- `getAssignedRoles(userId)`. -/
  assignedRoles : String → List (String × String)
  /-- `queryGovernor.getScheduleProjection`: the cells of a record at the given venues. -/
  scheduleCells : TournamentRecord → Option Json → List Json
  /-- `linkedTournamentIds` of a record. -/
  linkedTournamentIds : TournamentRecord → List String
  /-- `updatedAt` of a record. -/
  updatedAt : TournamentRecord → Json
  /-- The fields of the assistant context of a record. -/
  assistantContext : TournamentRecord → Json
  /-- `getTournamentInfo` of a record, with the publish state applied. -/
  publicInfo : TournamentRecord → Json
  /-- `publiclyVisible(result)` at the time of the request. -/
  publiclyVisible : Json → Bool
  /-- `queryEngine[method](params)`, absent for an unknown method. -/
  queryEngine : Option Json → Option (RecordMap → Option Json → Json)

/-- The answers of the read routes. -/
inductive ReadAnswer where
  /-- `{ error }`. -/
  | error (text : String)
  /-- `MISSING_TOURNAMENT_RECORD`. -/
  | missing
  /-- A rejected statement. -/
  | failed
  /-- Records with their write times, and how many ids were and were not found. -/
  | records (records : RecordMap) (serverUpdatedAt : List (String × String))
    (fetched notFound : Int)
  /-- A staleness probe. -/
  | times (tournamentId updatedAt : Json) (serverUpdatedAt : String)
  /-- `{ error: 'User not allowed', forbiddenTournamentIds }`. -/
  | forbidden (tournamentIds : List Json)
  /-- `{ scheduleCells }`. -/
  | cells (scheduleCells : List Json)
  /-- Any other payload. -/
  | payload (value : Json)

variable (s : ReadServices) (t : Tables) (caller : Caller)

/-! ## Fetching -/

/-- `params.tournamentIds?.length && params.tournamentIds || [params.tournamentId].filter(Boolean)`. -/
def fetchedIds (params : Json) : Json :=
  if truthy ((params.field? "tournamentIds").bind Json.length?) then
    (params.field? "tournamentIds").getD .null
  else .arr ((params.field? "tournamentId").toList.filter fun id => truthy (some id))

/-- The rows of the ids of a request; `none` when the statement is rejected. -/
def storedRows (ids : Json) : Option (List (String × TournamentRow)) :=
  (s.external.pg.textArray ids).map fun ids => (exec (.selectTournaments ids) t).2

/-- `getAssignedTournamentIds`. -/
def assignedIds (ctx : UserContext) : List String := (s.assignedRoles ctx.userId).map Prod.fst

/-- `canViewTournament`, asked only for a session with a context. -/
def viewable (record : TournamentRecord) : Bool :=
  caller.userContext.all fun ctx =>
    canViewTournament s.scoping record (some ctx) (assignedIds s ctx)

/-- `ids.length` of a request that names ids. -/
def idCount : Json → Int
  | .arr items => items.length
  | value => match value.length? with
    | some (.num n) => n
    | _ => 0

/-- `fetchTournamentRecords`: the gates of the service on what the storage returns. -/
def fetchTournamentRecords (params : Json) : ReadAnswer :=
  if !checkUser caller.user caller.userContext then .error "Invalid user" else
  let ids := fetchedIds params
  if !truthy ids.length? then .missing else
  match storedRows s t ids with
  | none => .failed
  | some rows =>
    if rows.isEmpty then .missing else
    if !checkProvider (rows.map fun row => row.2.record) caller.user caller.userContext false then
      .error "User not allowed"
    else
      let kept := rows.filter fun row => viewable s caller row.2.record
      .records (kept.map fun row => (row.1, row.2.record))
        (kept.map fun row => (row.1, s.external.toIso row.2.updatedAt))
        rows.length (idCount ids - rows.length)

/-! ## The staleness probe and the withheld public view -/

/-- What the gates of the probe read: the id of the request, provider and extensions. -/
def minimalRecord (tournamentId : Json) (record : TournamentRecord) : TournamentRecord :=
  { record with
    tournamentId := some tournamentId
    organisationId := nonEmpty record.organisationId
    content := .null }

/-- `fetchTournamentUpdatedAt`. -/
def fetchTournamentUpdatedAt (tournamentId : Option Json) : ReadAnswer :=
  if !checkUser caller.user caller.userContext then .error "Invalid user" else
  if !truthy tournamentId then .error "Missing tournamentId" else
  let id := tournamentId.getD .null
  match t.tournaments (s.external.pg.text id) with
  | none => .missing
  | some row =>
    let minimal := minimalRecord id row.record
    if !checkProvider [minimal] caller.user caller.userContext false then .error "User not allowed"
    else if !viewable s caller minimal then .error "User not allowed"
    else .times id (s.updatedAt row.record) (s.external.toIso row.updatedAt)

/-- `canReadUnpublishedTournament`. -/
def canReadUnpublishedTournament (tournamentId : Option Json) : Bool :=
  truthy tournamentId && (caller.user.isSome || caller.userContext.isSome) &&
    match fetchTournamentUpdatedAt s t caller tournamentId with
    | .times _ _ _ => true
    | _ => false

/-- The public tournament info, with `withholdUnpublished` applied to it. -/
def tournamentInfo (tournamentId : Json) : ReadAnswer :=
  match t.tournaments (s.external.pg.text tournamentId) with
  | none => .error "Tournament not found"
  | some row =>
    let result := s.publicInfo row.record
    if s.publiclyVisible result then .payload result
    else if canReadUnpublishedTournament s t caller (some tournamentId) then .payload result
    else .error "Tournament not found"

/-! ## The schedule projection -/

/-- `opaqueReservedCell`. -/
def opaqueReservedCell (cell : Json) : Json :=
  .obj ((["tournamentId", "venueId", "courtId", "courtOrder", "scheduledDate",
    "scheduledTime"].filterMap fun key => (cell.field? key).map (key, ·)) ++
      [("access", .str "view")])

/-- `canMutateTournament` of the projection: no methods are requested. -/
def authors (record : TournamentRecord) : Bool :=
  canMutateTournament s.scoping record caller.userContext
    ((caller.userContext.map fun ctx => s.assignedRoles ctx.userId).getD []) []

/-- The cells of a linked peer: whole for an author, opaque for anyone else. -/
def peerCells (venueIds : Option Json) (record : TournamentRecord) : List Json :=
  (s.scheduleCells record venueIds).map fun cell =>
    if authors s caller record then
      spread (some cell) [("access", .str "author"),
        ("tournamentName", (record.tournamentName.map Json.str).getD .null)]
    else opaqueReservedCell cell

/-- `getCoordinationProjection`. -/
def getCoordinationProjection (contextId : Json) (venueIds : Option Json) : ReadAnswer :=
  match fetchTournamentRecords s t caller (.obj [("tournamentIds", .arr [contextId])]) with
  | .records records _ _ _ =>
    match records.lookup contextId.propertyKey with
    | none => .error "User not allowed"
    | some context =>
      if !authors s caller context then .error "User not allowed" else
      let peerIds := (s.linkedTournamentIds context).filter fun id =>
        id != "" && contextId.str? != some id
      if peerIds.isEmpty then .cells [] else
      match storedRows s t (strings peerIds) with
      | none => .failed
      | some rows => .cells (rows.flatMap fun row => peerCells s caller venueIds row.2.record)
  | refused => refused

/-- The aggregation over the ids of the request. -/
def getScheduleProjection (tournamentIds : List Json) (venueIds : Option Json) : ReadAnswer :=
  if tournamentIds.isEmpty then .error "Missing tournamentIds" else
  match fetchTournamentRecords s t caller (.obj [("tournamentIds", .arr tournamentIds)]) with
  | .records records _ _ _ =>
    let forbidden := tournamentIds.filter fun id =>
      !(id.str?).any fun tournamentId => (records.map Prod.fst).contains tournamentId
    if forbidden.isEmpty then
      .cells (records.flatMap fun r => s.scheduleCells r.2 venueIds)
    else .forbidden forbidden
  | refused => refused

/-! ## The routes without a gate -/

/-- `queryTournamentRecords`. -/
def queryTournamentRecords (payload : Json) : ReadAnswer :=
  let tournamentIds := queueTournamentIds payload
  if !truthy tournamentIds.length? then .error "No tournamentIds provided" else
  match storedRows s t tournamentIds with
  | none => .failed
  | some rows =>
    if rows.isEmpty then .missing else
    match s.queryEngine (payload.field? "method") with
    | none => .error "Unknown query method"
    | some method => .payload (method (loadedRecords rows) (payload.field? "params"))

/-- `getAssistantContext`. -/
def getAssistantContext (tournamentId : String) : ReadAnswer :=
  if tournamentId = "" then .error "MISSING_TOURNAMENT_ID" else
  match t.tournaments tournamentId with
  | none => .error "Tournament not found"
  | some row => .payload (s.assistantContext row.record)

/-- A request to one of the routes. -/
inductive PrivateRead where
  /-- `POST /factory/fetch`. -/
  | fetch (params : Json)
  /-- `POST /factory/updated-at`. -/
  | updatedAt (tournamentId : Option Json)
  /-- `POST /factory/query`. -/
  | query (payload : Json)
  /-- `GET /factory/assistant-context/:tid`. -/
  | assistantContext (tournamentId : String)
  /-- `POST /factory/schedule-projection` with `tournamentIds`. -/
  | scheduleProjection (tournamentIds : List Json) (venueIds : Option Json)
  /-- `POST /factory/schedule-projection` with `tournamentId`. -/
  | coordination (contextId : Json) (venueIds : Option Json)
  /-- The public tournament info. -/
  | tournamentInfo (tournamentId : Json)

/-- The response to a request. -/
def respond : PrivateRead → ReadAnswer
  | .fetch params => fetchTournamentRecords s t caller params
  | .updatedAt tournamentId => fetchTournamentUpdatedAt s t caller tournamentId
  | .query payload => queryTournamentRecords s t payload
  | .assistantContext tournamentId => getAssistantContext s t tournamentId
  | .scheduleProjection tournamentIds venueIds =>
    getScheduleProjection s t caller tournamentIds venueIds
  | .coordination contextId venueIds => getCoordinationProjection s t caller contextId venueIds
  | .tournamentInfo tournamentId => tournamentInfo s t caller tournamentId

/-! ## Hidden tournaments -/

/-- `checkProvider` refuses the record. -/
def refusedByProvider (record : TournamentRecord) : Bool :=
  !checkProvider [record] caller.user caller.userContext false

/-- `canViewTournament` refuses the record, under its own id and under that of its row. -/
def refusedByView (id : String) (record : TournamentRecord) : Bool :=
  !viewable s caller record && !viewable s caller { record with tournamentId := some (.str id) }

/-- One of the gates refuses the record. -/
def Refused (id : String) (record : TournamentRecord) : Prop :=
  refusedByProvider caller record = true ∨ refusedByView s caller id record = true

/-- The same gate refuses both contents of a tournament. -/
def RefusedAlike (id : String) (record record' : TournamentRecord) : Prop :=
  (refusedByProvider caller record = true ∧ refusedByProvider caller record' = true) ∨
    (refusedByProvider caller record = refusedByProvider caller record' ∧
      refusedByView s caller id record = true ∧ refusedByView s caller id record' = true)

/-- Two states that store the same tournaments, with one content replaced. -/
structure DifferOnlyIn (t t' : Tables) (id : String) (row row' : TournamentRow) : Prop where
  /-- The content in the first state. -/
  left : t.tournaments id = some row
  /-- The content in the second state. -/
  right : t'.tournaments id = some row'
  /-- Every other tournament. -/
  others : ∀ other, other ≠ id → t.tournaments other = t'.tournaments other

variable {s t caller}

section Hidden

variable {t' : Tables} {id : String} {row row' : TournamentRow}

/-- The row of an id, as the statement returns it. -/
def pick (t : Tables) (id : String) : Option (String × TournamentRow) :=
  (t.tournaments id).map (id, ·)

theorem storedRows_eq (ids : Json) :
    storedRows s t ids = (s.external.pg.textArray ids).map fun ids => ids.dedup.filterMap (pick t) :=
  rfl

/-- Viewing under no id, or the same one, is never wider. -/
theorem viewable_of_viewable {record other : TournamentRecord}
    (hp : getTournamentProviderId other = getTournamentProviderId record)
    (he : other.extensions = record.extensions)
    (hid : tournamentIdOf other = none ∨ tournamentIdOf other = tournamentIdOf record)
    (h : viewable s caller other = true) : viewable s caller record = true := by
  unfold viewable at h ⊢
  cases hctx : caller.userContext with
  | none => rfl
  | some ctx =>
    rw [hctx, Option.all_some] at h
    rw [Option.all_some]
    have hc : getCreatedByUserId other = getCreatedByUserId record := by
      simp only [getCreatedByUserId, he]
    rcases hid with hid | hid
    · simp only [canViewTournament, hp, hc, hid, Option.any_none] at h
      unfold canViewTournament
      cases hr : getTournamentProviderId record with
      | none => simp
      | some providerId =>
        cases hrole : ctx.roleAt providerId with
        | none => simpa [hr, hrole] using h
        | some role =>
          simp only [hr, hrole] at h ⊢
          grind
    · simp only [canViewTournament, hp, hc, hid] at h
      simpa only [canViewTournament] using h

/-- The probe's record has the provider of the stored one. -/
theorem providerId_minimal (tid : Json) (record : TournamentRecord) :
    getTournamentProviderId (minimalRecord tid record) = getTournamentProviderId record := by
  cases ho : record.organisationId with
  | none => simp [getTournamentProviderId, minimalRecord, ho]
  | some org =>
    simp only [getTournamentProviderId, minimalRecord, ho]
    by_cases horg : org = "" <;> simp [nonEmpty, horg]

/-- The probe's record of a refused tournament is refused by the same gate. -/
theorem minimal_refused {tid : Json} {record : TournamentRecord}
    (hid : s.external.pg.text tid = id) (h : refusedByView s caller id record = true) :
    viewable s caller (minimalRecord tid record) = false := by
  simp only [refusedByView, Bool.and_eq_true, Bool.not_eq_true'] at h
  by_contra hv
  rw [Bool.not_eq_false] at hv
  have hwide : viewable s caller { record with tournamentId := some (.str id) } = true := by
    refine @viewable_of_viewable s caller _ (minimalRecord tid record) ?_ rfl ?_ hv
    · exact providerId_minimal tid record
    · cases tid with
      | str u =>
        right
        rw [s.external.pg.text_str] at hid
        rw [hid]
        rfl
      | _ => exact Or.inl rfl
  rw [h.2] at hwide
  cases hwide

/-- `checkProvider` reads the provider only. -/
theorem checkProvider_minimal (tid : Json) (record : TournamentRecord) :
    checkProvider [minimalRecord tid record] caller.user caller.userContext false =
      checkProvider [record] caller.user caller.userContext false := by
  simp only [checkProvider, List.all_cons, List.all_nil, checkProviderOf,
    providerId_minimal]

/-- A tournament elsewhere in the request reads the same in both states. -/
theorem pick_of_ne (hd : DifferOnlyIn t t' id row row') {other : String} (ho : other ≠ id) :
    pick t other = pick t' other := by
  simp only [pick, hd.others other ho]

/-- Both states answer a fetch with the same rows wherever a pointwise reading of
their rows is the same. -/
theorem all_rows_eq (hd : DifferOnlyIn t t' id row row') (p : String × TournamentRow → Bool)
    (hp : p (id, row) = p (id, row')) (ids : List String) :
    (ids.filterMap (pick t)).all p = (ids.filterMap (pick t')).all p := by
  rw [List.all_filterMap, List.all_filterMap]
  congr 1
  funext other
  by_cases ho : other = id
  · subst ho
    simp [pick, hd.left, hd.right, hp]
  · rw [pick_of_ne hd ho]

/-- The same numbers of rows are found. -/
theorem length_rows_eq (hd : DifferOnlyIn t t' id row row') (ids : List String) :
    (ids.filterMap (pick t)).length = (ids.filterMap (pick t')).length := by
  rw [List.length_filterMap_eq_countP, List.length_filterMap_eq_countP]
  congr 1
  funext other
  by_cases ho : other = id
  · subst ho
    simp [pick, hd.left, hd.right]
  · rw [pick_of_ne hd ho]

/-- The rows a filter keeps are the same when it drops both contents, or when the
tournament is not asked for. -/
theorem filter_rows_eq (hd : DifferOnlyIn t t' id row row') (p : String × TournamentRow → Bool)
    {ids : List String}
    (hp : id ∉ ids ∨ (p (id, row) = false ∧ p (id, row') = false)) :
    (ids.filterMap (pick t)).filter p = (ids.filterMap (pick t')).filter p := by
  rw [List.filter_filterMap, List.filter_filterMap]
  refine List.filterMap_congr fun other hother => ?_
  by_cases ho : other = id
  · subst ho
    rcases hp with hp | ⟨hp, hp'⟩
    · exact absurd hother hp
    · simp [pick, hd.left, hd.right, Option.filter_some, hp, hp']
  · rw [pick_of_ne hd ho]

/-- The check of the probe's caller over the rows of a request. -/
theorem checkProvider_rows (rows : List (String × TournamentRow)) :
    checkProvider (rows.map fun r => r.2.record) caller.user caller.userContext false =
      rows.all fun r => !refusedByProvider caller r.2.record := by
  simp only [refusedByProvider, checkProvider, List.all_map, List.all_cons, List.all_nil,
    Bool.and_true, Bool.not_not]
  cases hsuper : caller.userContext.any UserContext.isSuperAdmin || hasRole caller.user SUPER_ADMIN
  · simp only [Bool.false_or]
    rfl
  · simp

/-- A fetch does not depend on a tournament that the same gate refuses in both states. -/
theorem fetch_eq (hd : DifferOnlyIn t t' id row row')
    (hr : RefusedAlike s caller id row.record row'.record) (params : Json) :
    fetchTournamentRecords s t caller params = fetchTournamentRecords s t' caller params := by
  unfold fetchTournamentRecords
  split_ifs
  · rfl
  · dsimp only
    split_ifs
    · rfl
    · rw [storedRows_eq, storedRows_eq]
      cases s.external.pg.textArray (fetchedIds params) with
      | none => rfl
      | some ids =>
        simp only [Option.map_some]
        have hlength := length_rows_eq hd ids.dedup
        have hempty : (ids.dedup.filterMap (pick t)).isEmpty =
            (ids.dedup.filterMap (pick t')).isEmpty := by
          rw [Bool.eq_iff_iff, List.isEmpty_iff_length_eq_zero, List.isEmpty_iff_length_eq_zero,
            hlength]
        have hprovider : refusedByProvider caller row.record =
            refusedByProvider caller row'.record := by
          rcases hr with ⟨h, h'⟩ | ⟨h, -⟩
          · rw [h, h']
          · exact h
        have hcheck := all_rows_eq hd (fun r => !refusedByProvider caller r.2.record)
          (by simp only [hprovider]) ids.dedup
        rw [hempty, checkProvider_rows, checkProvider_rows, hcheck, hlength]
        split_ifs with _ hc
        · rfl
        · rfl
        · have hhidden : id ∉ ids.dedup ∨ (viewable s caller row.record = false ∧
              viewable s caller row'.record = false) := by
            rcases hr with ⟨-, h'⟩ | ⟨-, h, h'⟩
            · left
              intro hmem
              have hall := List.all_eq_true.mp (by simpa using hc) (id, row')
                (List.mem_filterMap.mpr ⟨id, hmem, by simp [pick, hd.right]⟩)
              simp [h'] at hall
            · right
              simp only [refusedByView, Bool.and_eq_true, Bool.not_eq_true'] at h h'
              exact ⟨h.1, h'.1⟩
          rw [filter_rows_eq hd (fun r => viewable s caller r.2.record) hhidden]

/-- Neither does the staleness probe. -/
theorem updatedAt_eq (hd : DifferOnlyIn t t' id row row')
    (hr : RefusedAlike s caller id row.record row'.record) (tid : Option Json) :
    fetchTournamentUpdatedAt s t caller tid = fetchTournamentUpdatedAt s t' caller tid := by
  unfold fetchTournamentUpdatedAt
  split_ifs
  · rfl
  · rfl
  · dsimp only
    by_cases hid : s.external.pg.text (tid.getD .null) = id
    · simp only [hid, hd.left, hd.right, checkProvider_minimal]
      rcases hr with ⟨h, h'⟩ | ⟨h, hv, hv'⟩
      · simp only [refusedByProvider, Bool.not_eq_true'] at h h'
        simp [h, h']
      · simp only [refusedByProvider, Bool.not_inj_iff] at h
        rw [h, minimal_refused hid hv, minimal_refused hid hv']
        simp
    · rw [hd.others _ hid]

/-- Nobody whom a gate refuses reads an unpublished tournament. -/
theorem canReadUnpublished_refused (hs : t.tournaments id = some row) {tid : Json}
    (hid : s.external.pg.text tid = id) (hr : Refused s caller id row.record) :
    canReadUnpublishedTournament s t caller (some tid) = false := by
  have hprobe : ∀ u a b, fetchTournamentUpdatedAt s t caller (some tid) ≠ .times u a b := by
    intro u a b h
    unfold fetchTournamentUpdatedAt at h
    split_ifs at h
    simp only [Option.getD_some, hid, hs, checkProvider_minimal] at h
    rcases hr with hr | hr
    · simp only [refusedByProvider, Bool.not_eq_true'] at hr
      simp [hr] at h
    · rw [minimal_refused hid hr] at h
      split_ifs at h
      simp_all
  unfold canReadUnpublishedTournament
  cases hf : fetchTournamentUpdatedAt s t caller (some tid) with
  | times u a b => exact absurd hf (hprobe u a b)
  | _ => simp

/-- The public view of a withheld tournament does not depend on it: it reads like
a tournament that does not exist. -/
theorem tournamentInfo_eq (hd : DifferOnlyIn t t' id row row')
    (hr : RefusedAlike s caller id row.record row'.record)
    (hp : s.publiclyVisible (s.publicInfo row.record) = false)
    (hp' : s.publiclyVisible (s.publicInfo row'.record) = false) (tid : Json) :
    tournamentInfo s t caller tid = tournamentInfo s t' caller tid := by
  by_cases hid : s.external.pg.text tid = id
  · have hrow : Refused s caller id row.record := hr.imp And.left fun h => h.2.1
    have hrow' : Refused s caller id row'.record := hr.imp And.right fun h => h.2.2
    simp [tournamentInfo, hid, hd.left, hd.right, hp, hp',
      canReadUnpublished_refused hd.left hid hrow, canReadUnpublished_refused hd.right hid hrow']
  · have hprobe := updatedAt_eq hd hr (some tid)
    simp only [tournamentInfo, canReadUnpublishedTournament, hd.others _ hid, hprobe]
    rfl

/-- The aggregated schedule does not depend on it. -/
theorem scheduleProjection_eq (hd : DifferOnlyIn t t' id row row')
    (hr : RefusedAlike s caller id row.record row'.record) (ids : List Json)
    (venueIds : Option Json) :
    getScheduleProjection s t caller ids venueIds =
      getScheduleProjection s t' caller ids venueIds := by
  simp only [getScheduleProjection, fetch_eq hd hr]

/-- The coordination view shows the cells of linked peers, and nothing else of them. -/
theorem coordination_eq (hd : DifferOnlyIn t t' id row row')
    (hr : RefusedAlike s caller id row.record row'.record) (contextId : Json)
    (venueIds : Option Json)
    (hcells : peerCells s caller venueIds row.record = peerCells s caller venueIds row'.record) :
    getCoordinationProjection s t caller contextId venueIds =
      getCoordinationProjection s t' caller contextId venueIds := by
  have hpeers : ∀ ids : List String,
      (ids.filterMap (pick t)).flatMap (fun r => peerCells s caller venueIds r.2.record) =
        (ids.filterMap (pick t')).flatMap (fun r => peerCells s caller venueIds r.2.record) := by
    intro ids
    induction ids with
    | nil => rfl
    | cons other rest ih =>
      by_cases ho : other = id
      · subst ho
        simp only [List.filterMap_cons, pick, hd.left, hd.right, Option.map_some,
          List.flatMap_cons, hcells]
        rw [← ih]
      · rw [List.filterMap_cons, List.filterMap_cons, pick_of_ne hd ho]
        cases pick t' other with
        | none => exact ih
        | some r => rw [List.flatMap_cons, List.flatMap_cons, ih]
  unfold getCoordinationProjection
  rw [fetch_eq hd hr]
  split
  · split
    · rfl
    · dsimp only
      split_ifs
      · rfl
      · rfl
      · rw [storedRows_eq, storedRows_eq, s.external.pg.textArray_strings]
        simp only [Option.map_some, hpeers]
  · rfl

/-- A peer the caller may not author shows court occupancy only. -/
theorem peerCells_unread {record : TournamentRecord} (h : authors s caller record = false)
    (venueIds : Option Json) :
    peerCells s caller venueIds record =
      (s.scheduleCells record venueIds).map opaqueReservedCell := by
  simp [peerCells, h]

end Hidden

/-- Whoever may read an unpublished tournament through the public route can fetch
its record through the private one. -/
theorem fetch_of_canReadUnpublished {u : String} {row : TournamentRow}
    (hs : t.tournaments u = some row) (hid : row.record.tournamentId = some (.str u))
    (h : canReadUnpublishedTournament s t caller (some (.str u)) = true) :
    fetchTournamentRecords s t caller (.obj [("tournamentIds", strings [u])]) =
      .records [(u, row.record)] [(u, s.external.toIso row.updatedAt)] 1 0 := by
  have hprobe : ∃ a b c, fetchTournamentUpdatedAt s t caller (some (.str u)) = .times a b c := by
    unfold canReadUnpublishedTournament at h
    cases hf : fetchTournamentUpdatedAt s t caller (some (.str u)) with
    | times a b c => exact ⟨a, b, c, rfl⟩
    | _ => simp [hf] at h
  obtain ⟨a, b, c, hprobe⟩ := hprobe
  unfold fetchTournamentUpdatedAt at hprobe
  split_ifs at hprobe with huser htruthy
  simp only [Option.getD_some, s.external.pg.text_str, hs] at hprobe
  split_ifs at hprobe with hprovider hview
  rw [checkProvider_minimal] at hprovider
  have hviewable : viewable s caller row.record = true := by
    refine @viewable_of_viewable s caller row.record (minimalRecord (.str u) row.record)
      (providerId_minimal _ _) rfl (Or.inr ?_) (by simpa using hview)
    simp only [tournamentIdOf, minimalRecord, hid]
  have hrows : storedRows s t (strings [u]) = some [(u, row)] := by
    rw [storedRows_eq, s.external.pg.textArray_strings, Option.map_some,
      (List.nodup_singleton u).dedup]
    simp [pick, hs]
  have hids : fetchedIds (.obj [("tournamentIds", strings [u])]) = strings [u] := rfl
  have hcount : truthy (strings [u]).length? = true := rfl
  have hnot : idCount (strings [u]) - ((1 : Nat) : Int) = 0 := rfl
  unfold fetchTournamentRecords
  rw [if_neg huser, hids]
  simp only [hcount, Bool.not_true, Bool.false_eq_true, if_false, hrows, List.isEmpty_cons,
    List.map_cons, List.map_nil]
  rw [if_neg hprovider]
  simp only [List.filter_cons, hviewable, if_true, List.filter_nil, List.map_cons, List.map_nil,
    List.length_cons, List.length_nil, Nat.zero_add, hnot]
  rfl

/-- The claim of the private reads: no private route depends on a tournament that
the caller's gates refuse in both states. -/
def PrivateReadsGated (s : ReadServices) (caller : Caller) : Prop :=
  ∀ (t t' : Tables) (id : String) (row row' : TournamentRow), DifferOnlyIn t t' id row row' →
    Refused s caller id row.record → Refused s caller id row'.record →
    ∀ request : PrivateRead, (∀ tid, request ≠ .tournamentInfo tid) →
      respond s t caller request = respond s t' caller request

/-- Fetch, staleness probe, aggregated schedule and withheld public view do not
depend on a tournament that the same gate refuses in both states. The coordination
view depends on it through the cells of a linked peer only, which are opaque unless
the caller may author the peer. And the public route is never wider than the
private one. -/
theorem private_reads_confined (s : ReadServices) (caller : Caller) :
    (∀ (t t' : Tables) (id : String) (row row' : TournamentRow), DifferOnlyIn t t' id row row' →
      RefusedAlike s caller id row.record row'.record →
      (∀ params, respond s t caller (.fetch params) = respond s t' caller (.fetch params)) ∧
      (∀ tid, respond s t caller (.updatedAt tid) = respond s t' caller (.updatedAt tid)) ∧
      (∀ ids venueIds, respond s t caller (.scheduleProjection ids venueIds) =
        respond s t' caller (.scheduleProjection ids venueIds)) ∧
      (∀ contextId venueIds,
        (authors s caller row.record = false ∧ authors s caller row'.record = false ∧
            (s.scheduleCells row.record venueIds).map opaqueReservedCell =
              (s.scheduleCells row'.record venueIds).map opaqueReservedCell) ∨
          peerCells s caller venueIds row.record = peerCells s caller venueIds row'.record →
        respond s t caller (.coordination contextId venueIds) =
          respond s t' caller (.coordination contextId venueIds)) ∧
      (s.publiclyVisible (s.publicInfo row.record) = false →
        s.publiclyVisible (s.publicInfo row'.record) = false →
        ∀ tid, respond s t caller (.tournamentInfo tid) =
          respond s t' caller (.tournamentInfo tid))) ∧
    (∀ (t : Tables) (u : String) (row : TournamentRow), t.tournaments u = some row →
      row.record.tournamentId = some (.str u) →
      canReadUnpublishedTournament s t caller (some (.str u)) = true →
      respond s t caller (.fetch (.obj [("tournamentIds", strings [u])])) =
        .records [(u, row.record)] [(u, s.external.toIso row.updatedAt)] 1 0) := by
  constructor
  · intro t t' id row row' hd hr
    refine ⟨fetch_eq hd hr, updatedAt_eq hd hr, scheduleProjection_eq hd hr, ?_, ?_⟩
    · rintro contextId venueIds (⟨ha, ha', hcells⟩ | hcells)
      · refine coordination_eq hd hr contextId venueIds ?_
        rw [peerCells_unread ha, peerCells_unread ha', hcells]
      · exact coordination_eq hd hr contextId venueIds hcells
    · intro hp hp' tid
      exact tournamentInfo_eq hd hr hp hp' tid
  · intro t u row hs hid h
    exact fetch_of_canReadUnpublished hs hid h

/-- Services whose records carry their schedule cell as content; `own` is linked
to `peer`, and nothing is publicly visible. -/
def plainReads : ReadServices where
  scoping := true
  external := DurableSave.plainExternal
  assignedRoles _ := []
  scheduleCells record _ := [record.content]
  linkedTournamentIds record := if record.tournamentName = some "own" then ["peer"] else []
  updatedAt _ := .null
  assistantContext record := record.content
  publicInfo record := record.content
  publiclyVisible _ := false
  queryEngine _ := none

/-- A provider's administrator. -/
def administratorOf (providerId : String) : Caller where
  user := none
  userContext := some
    { userId := "u-1"
      email := "u@u.test"
      isSuperAdmin := false
      globalRoles := ["client"]
      providerRoles := [(providerId, PROVIDER_ADMIN)]
      providerIds := [providerId]
      provisionerProviderIds := []
      actingProviderId := some providerId
      providerSelectionPending := false }

/-- A tournament of a provider with one scheduled cell on a court. -/
def scheduledOn (name providerId court : String) : TournamentRow :=
  ⟨{ DurableSave.plainRecord name (some providerId) with
      tournamentName := some name
      content := .obj [("courtId", .str court)] }, 0, 0⟩

/-- Provider `A` stores `own`, and provider `B` stores `peer`, scheduled on a court. -/
def peerOn (court : String) : Tables :=
  { DurableSave.emptyTables with
    tournaments := fun id =>
      if id = "own" then some (scheduledOn "own" "A" "centre")
      else if id = "peer" then some (scheduledOn "peer" "B" court) else none }

/-- The courts a response shows. -/
def courtsShown : ReadAnswer → List (Option String)
  | .cells cells => cells.map fun cell => (cell.field? "courtId").bind Json.str?
  | _ => []

theorem peerOn_differ (court court' : String) :
    DifferOnlyIn (peerOn court) (peerOn court') "peer" (scheduledOn "peer" "B" court)
      (scheduledOn "peer" "B" court') where
  left := rfl
  right := rfl
  others other ho := by simp [peerOn, ho]

/-- The administrator of `A` sees on which court the linked tournament of `B` plays. -/
theorem private_reads_not_gated : ¬ PrivateReadsGated plainReads (administratorOf "A") := by
  intro h
  have hsame := h _ _ _ _ _ (peerOn_differ "court-1" "court-2") (Or.inl (by decide))
    (Or.inl (by decide)) (.coordination (.str "own") none) (by intro tid hc; cases hc)
  exact absurd (congrArg courtsShown hsame) (by decide)

/-- Asked for both tournaments, or for the peer's public view, it sees nothing of
the peer; its own tournament it may read and fetch. -/
theorem private_reads_confined_sample :
    respond plainReads (peerOn "court-1") (administratorOf "A")
        (.fetch (.obj [("tournamentIds", strings ["own", "peer"])])) =
      respond plainReads (peerOn "court-2") (administratorOf "A")
        (.fetch (.obj [("tournamentIds", strings ["own", "peer"])])) ∧
    respond plainReads (peerOn "court-1") (administratorOf "A") (.tournamentInfo (.str "peer")) =
      respond plainReads (peerOn "court-2") (administratorOf "A") (.tournamentInfo (.str "peer")) ∧
    respond plainReads (peerOn "court-1") (administratorOf "A")
        (.fetch (.obj [("tournamentIds", strings ["own"])])) =
      .records [("own", (scheduledOn "own" "A" "centre").record)] [("own", "0")] 1 0 := by
  have hboth := private_reads_confined plainReads (administratorOf "A")
  have hhidden := hboth.1 _ _ _ _ _ (peerOn_differ "court-1" "court-2")
    (Or.inl ⟨by decide, by decide⟩)
  refine ⟨hhidden.1 _, hhidden.2.2.2.2 rfl rfl _, ?_⟩
  exact hboth.2 (peerOn "court-1") "own" (scheduledOn "own" "A" "centre") rfl rfl (by decide)

end FactoryServer.PrivateReads
