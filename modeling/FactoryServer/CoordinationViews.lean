import FactoryServer.LinkedPeers
import FactoryServer.PrivateReads

/-!
# What a coordination view reveals

The coordination view shows the cells of the tournaments that its context is linked to. With
scoping on, a caller without a role at a peer's provider sees its occupancy of courts and
nothing else, and every peer that appears has a link that an authorized `linkTournaments` has
made, as long as wholesale saves bring no links. With scoping off everybody is an author.
-/

namespace FactoryServer.CoordinationViews

open JsonValue TournamentAccess CommandTransaction StorageTables TournamentStorage ExecutionQueue
  MutationGate PrivateReads DurableSave GuardedRuns ConcurrentWrites LockDiscipline StampChains
  LinkedPeers

/-! ## Cells -/

/-- When and where a cell takes a court. -/
structure Occupancy where
  /-- `venueId`. -/
  venueId : Option Json
  /-- `courtId`. -/
  courtId : Option Json
  /-- `courtOrder`. -/
  courtOrder : Option Json
  /-- `scheduledDate`. -/
  scheduledDate : Option Json
  /-- `scheduledTime`. -/
  scheduledTime : Option Json

/-- The occupancy of a cell. -/
def occupancy (cell : Json) : Occupancy where
  venueId := cell.field? "venueId"
  courtId := cell.field? "courtId"
  courtOrder := cell.field? "courtOrder"
  scheduledDate := cell.field? "scheduledDate"
  scheduledTime := cell.field? "scheduledTime"

/-- The caller has no role at the provider, by whichever source. -/
structure NoRole (caller : Caller) (providerId : String) : Prop where
  /-- A context is no super-admin's. -/
  context : caller.userContext.any UserContext.isSuperAdmin = false
  /-- Neither is the token. -/
  token : hasRole caller.user SUPER_ADMIN = false
  /-- The provider is none of the caller's, nor of the caller's provisioners. -/
  unlisted : providerId ∉ requestProviderIds caller.user caller.userContext
  /-- No membership. -/
  role : ∀ ctx, caller.userContext = some ctx → ctx.roleAt providerId = none

/-- A record of a provider at which the caller has no role. -/
def Foreign (caller : Caller) (record : TournamentRecord) : Prop :=
  ∃ providerId, getTournamentProviderId record = some providerId ∧ NoRole caller providerId

/-- Cells carry the id of the record that they are projected from. -/
def CellsNamed (s : ReadServices) : Prop :=
  ∀ record venueIds, ∀ cell ∈ s.scheduleCells record venueIds,
    cell.field? "tournamentId" = record.tournamentId

/-- Two contents of a foreign peer with the same occupancy give the same views. -/
def OccupancyOnly (s : ReadServices) (caller : Caller) : Prop :=
  ∀ (t t' : Tables) (id : String) (row row' : TournamentRow), DifferOnlyIn t t' id row row' →
    row.record.tournamentId = row'.record.tournamentId →
    Foreign caller row.record → Foreign caller row'.record →
    ∀ venueIds, (s.scheduleCells row.record venueIds).map occupancy =
        (s.scheduleCells row'.record venueIds).map occupancy →
      ∀ contextId, getCoordinationProjection s t caller contextId venueIds =
        getCoordinationProjection s t' caller contextId venueIds

section Cells

variable {s : ReadServices} {caller : Caller} {record : TournamentRecord}

/-- The provider check refuses a foreign record. -/
theorem refused_of_foreign (h : Foreign caller record) :
    refusedByProvider caller record = true := by
  obtain ⟨providerId, hprovider, hnone⟩ := h
  simp [refusedByProvider, checkProvider, checkProviderOf, hnone.context, hnone.token, hprovider,
    hnone.unlisted]

/-- With scoping on a caller is no author of a foreign record. -/
theorem authors_of_foreign (hs : s.scoping = true) (h : Foreign caller record) :
    authors s caller record = false := by
  obtain ⟨providerId, hprovider, hnone⟩ := h
  unfold authors
  rw [hs]
  cases hctx : caller.userContext with
  | none => exact canMutateTournament_anonymous _ _ _
  | some ctx =>
    have hsuper : ctx.isSuperAdmin = false := by simpa [hctx] using hnone.context
    have hprovisioner : providerId ∉ ctx.provisionerProviderIds := by
      have hunlisted := hnone.unlisted
      rw [hctx, requestProviderIds, List.mem_append, not_or] at hunlisted
      exact hunlisted.2
    simp [canMutateTournament, canViewTournament, hsuper, hprovider, hprovisioner,
      hnone.role ctx hctx]

/-- An opaque cell says which tournament takes the court, and when. -/
def reserved (tournamentId : Option Json) (o : Occupancy) : Json :=
  .obj (([("tournamentId", tournamentId), ("venueId", o.venueId), ("courtId", o.courtId),
    ("courtOrder", o.courtOrder), ("scheduledDate", o.scheduledDate),
    ("scheduledTime", o.scheduledTime)].filterMap fun f => f.2.map (f.1, ·)) ++
      [("access", .str "view")])

theorem opaqueReservedCell_eq (cell : Json) :
    opaqueReservedCell cell = reserved (cell.field? "tournamentId") (occupancy cell) := rfl

/-- The opaque cells of a record follow from its id and its occupancy. -/
theorem opaque_cells (hcells : CellsNamed s) (venueIds : Option Json) :
    (s.scheduleCells record venueIds).map opaqueReservedCell =
      ((s.scheduleCells record venueIds).map occupancy).map (reserved record.tournamentId) := by
  rw [List.map_map]
  refine List.map_congr_left fun cell hcell => ?_
  rw [opaqueReservedCell_eq, hcells record venueIds cell hcell]
  rfl

/-- With scoping on foreign peers show their occupancy only. -/
theorem occupancy_only (hs : s.scoping = true) (hcells : CellsNamed s) :
    OccupancyOnly s caller := by
  intro t t' id row row' hdiffer hid hforeign hforeign' venueIds hsame contextId
  have hopaque :
      peerCells s caller venueIds row.record = peerCells s caller venueIds row'.record := by
    rw [peerCells_unread (authors_of_foreign hs hforeign),
      peerCells_unread (authors_of_foreign hs hforeign'), opaque_cells hcells, opaque_cells hcells,
      hsame, hid]
  have hrefused : RefusedAlike s caller id row.record row'.record :=
    .inl ⟨refused_of_foreign hforeign, refused_of_foreign hforeign'⟩
  exact coordination_eq hdiffer hrefused contextId venueIds hopaque

/-- With scoping off every caller is an author of every peer. -/
theorem whole_cells (hs : s.scoping = false) (venueIds : Option Json) :
    peerCells s caller venueIds record =
      (s.scheduleCells record venueIds).map fun cell =>
        spread (some cell) [("access", .str "author"),
          ("tournamentName", (record.tournamentName.map Json.str).getD .null)] := by
  have hauthor : authors s caller record = true := by
    rw [authors, hs]
    exact canMutateTournament_off _ _ _ _
  simp [peerCells, hauthor]

end Cells

/-! ## Peers -/

section Fetched

variable {s : ReadServices} {t : Tables} {caller : Caller} {params : Json}

/-- A fetched record is the stored one. -/
theorem stored_of_fetched {records : RecordMap} {times : List (String × String)}
    {fetched notFound : Int}
    (h : PrivateReads.fetchTournamentRecords s t caller params =
      .records records times fetched notFound)
    {id : String} {record : TournamentRecord} (hmem : (id, record) ∈ records) :
    ∃ row, t.tournaments id = some row ∧ row.record = record := by
  unfold PrivateReads.fetchTournamentRecords at h
  dsimp only at h
  cases hrows : storedRows s t (fetchedIds params) with
  | none =>
    rw [hrows] at h
    split_ifs at h
  | some rows =>
    rw [hrows] at h
    dsimp only at h
    split_ifs at h
    cases h
    obtain ⟨stored, hstored, heq⟩ := List.mem_map.mp hmem
    rw [storedRows_eq] at hrows
    obtain ⟨ids, -, rfl⟩ := Option.map_eq_some_iff.mp hrows
    obtain ⟨other, -, hpick⟩ := List.mem_filterMap.mp (List.mem_of_mem_filter hstored)
    obtain ⟨row, hrow, rfl⟩ := Option.map_eq_some_iff.mp hpick
    obtain ⟨rfl, rfl⟩ := Prod.mk.inj heq
    exact ⟨row, hrow, rfl⟩

/-- A fetch answers with records. -/
theorem no_cells_fetched {cells : List Json} :
    PrivateReads.fetchTournamentRecords s t caller params ≠ .cells cells := by
  intro h
  unfold PrivateReads.fetchTournamentRecords at h
  dsimp only at h
  cases hrows : storedRows s t (fetchedIds params) with
  | none =>
    rw [hrows] at h
    split_ifs at h
  | some rows =>
    rw [hrows] at h
    dsimp only at h
    split_ifs at h

end Fetched

section Peers

variable {ι : Type} (server : LinkServer) (reads : ReadServices)

/-- What the read routes of the process use in a state. -/
def readsIn (s : LinkState ι) : ReadServices :=
  { reads with
    scoping := server.host.scoping
    external := server.host.external
    assignedRoles := s.writes.assignedRoles
    linkedTournamentIds := server.linkedTournamentIds }

/-- The cells of a view are those of stored peers, which the context is linked to. -/
theorem peers_linked {s : LinkState ι} {caller : Caller} {contextId : Json}
    {venueIds : Option Json} {cells : List Json}
    (h : getCoordinationProjection (readsIn server reads s) s.writes.tables caller contextId
      venueIds = .cells cells) :
    ∃ peers : List (String × TournamentRow),
      cells = peers.flatMap (fun peer =>
        peerCells (readsIn server reads s) caller venueIds peer.2.record) ∧
      ∀ peer ∈ peers, s.writes.tables.tournaments peer.1 = some peer.2 ∧
        HasLink server s.writes.tables.tournaments contextId.propertyKey peer.1 := by
  unfold getCoordinationProjection at h
  split at h
  · next records times fetched notFound hfetch =>
    cases hlookup : records.lookup contextId.propertyKey with
    | none => simp [hlookup] at h
    | some context =>
      simp only [hlookup] at h
      split_ifs at h with hauthor hpeers
      · cases h
        exact ⟨[], rfl, fun peer hpeer => absurd hpeer List.not_mem_nil⟩
      · rw [storedRows_eq, (readsIn server reads s).external.pg.textArray_strings,
          Option.map_some] at h
        obtain ⟨before, after, hsplit, -⟩ := List.lookup_eq_some_iff.mp hlookup
        have hcontext : (contextId.propertyKey, context) ∈ records := by simp [hsplit]
        obtain ⟨row, hrow, rfl⟩ := stored_of_fetched hfetch hcontext
        cases h
        refine ⟨_, rfl, fun peer hpeer => ?_⟩
        obtain ⟨id, hid, hpick⟩ := List.mem_filterMap.mp hpeer
        obtain ⟨stored, hstored, rfl⟩ := Option.map_eq_some_iff.mp hpick
        exact ⟨hstored, row, hrow, List.mem_of_mem_filter (List.mem_dedup.mp hid)⟩
  · exact absurd h no_cells_fetched

variable [DecidableEq ι]

/-- With scoping on, the cells of foreign peers show their occupancy; with scoping off, the
cells of every peer are whole. And in a run whose wholesale saves bring no link, every peer of
a view is stored and was linked by a mutation past the gate. -/
theorem coordination_confined (caller : Caller) :
    (reads.scoping = true → CellsNamed reads → OccupancyOnly reads caller) ∧
    (reads.scoping = false → ∀ venueIds record, peerCells reads caller venueIds record =
      (reads.scheduleCells record venueIds).map fun cell =>
        spread (some cell) [("access", .str "author"),
          ("tournamentName", (record.tournamentName.map Json.str).getD .null)]) ∧
    ∀ (tables : Tables) (assignedRoles : String → List (String × String))
      (actions : List (LinkAction ι)),
      RunMeets (step server) (LinksGuarded server) (.start tables assignedRoles) actions →
      let s := run (step server) (.start tables assignedRoles) actions
      ∀ contextId venueIds cells,
        getCoordinationProjection (readsIn server reads s) s.writes.tables caller contextId
          venueIds = .cells cells →
        ∃ peers : List (String × TournamentRow),
          cells = peers.flatMap (fun peer =>
            peerCells (readsIn server reads s) caller venueIds peer.2.record) ∧
          ∀ peer ∈ peers, s.writes.tables.tournaments peer.1 = some peer.2 ∧
            MadeIn server s.linked s.granted tables.tournaments s.writes.log
              contextId.propertyKey peer.1 := by
  refine ⟨fun hs hcells => occupancy_only hs hcells,
    fun hs venueIds record => whole_cells hs venueIds, ?_⟩
  intro tables assignedRoles actions hmeets s contextId venueIds cells hview
  obtain ⟨peers, hpeers, hlinks⟩ := peers_linked server reads hview
  refine ⟨peers, hpeers, fun peer hpeer => ?_⟩
  obtain ⟨hstored, hlink⟩ := hlinks peer hpeer
  exact ⟨hstored, links_made tables assignedRoles hmeets hlink⟩

end Peers

/-! ## Samples -/

/-- A cell of a record: its id and its court. -/
def courtCell (record : TournamentRecord) : Json :=
  .obj ((record.tournamentId.toList.map fun id => ("tournamentId", id)) ++
    [("courtId", record.content)])

/-- Services whose records carry a court; a record called `own` is linked to `peer`. -/
def courtReads (scoping : Bool) : ReadServices :=
  { plainReads with
    scoping := scoping
    scheduleCells := fun record _ => [courtCell record] }

theorem cellsNamed_court (scoping : Bool) : CellsNamed (courtReads scoping) := by
  intro record venueIds cell hcell
  obtain rfl : cell = courtCell record := List.mem_singleton.mp hcell
  cases hid : record.tournamentId with
  | none => simp [courtCell, hid, Json.field?]
  | some id => simp [courtCell, hid, Json.field?]

/-- A tournament with this name on a court. -/
def calledOn (id name providerId : String) : TournamentRow :=
  ⟨{ plainRecord id (some providerId) with
      tournamentName := some name
      content := .str "court-1" }, 0, 0⟩

/-- Provider `A` stores `own`, and provider `B` stores a peer with this name. -/
def peerCalled (name : String) : Tables :=
  { emptyTables with
    tournaments := fun id =>
      if id = "own" then some (calledOn "own" "own" "A")
      else if id = "peer" then some (calledOn "peer" name "B") else none }

/-- The names a view shows. -/
def namesShown : ReadAnswer → List (Option String)
  | .cells cells => cells.map fun cell => (cell.field? "tournamentName").bind Json.str?
  | _ => []

/-- `linkTournaments` calls its records `own`. -/
def linkRecord (methods : List Json) (entry : String × TournamentRecord) :
    String × TournamentRecord :=
  if methods.any isLinkTournaments then (entry.1, { entry.2 with tournamentName := some "own" })
  else entry

/-- An engine with this method alone. -/
def linkingEngine : Engine where
  executionQueue records methods _ :=
    ⟨[], .ok ⟨.obj [("success", .bool true)], records.map (linkRecord methods), [], .ok []⟩,
      notices_nil⟩
  findMatchUp _ _ := .ok none
  isTestDataMethod _ := false

/-- The records keep their keys and ids. -/
theorem named_linkRecord {methods : List Json} {entry : String × TournamentRecord}
    (h : Named entry) : Named (linkRecord methods entry) := by
  unfold linkRecord
  split_ifs
  · exact h
  · exact h

theorem keys_linkRecord (methods : List Json) (records : RecordMap) :
    (records.map (linkRecord methods)).map Prod.fst = records.map Prod.fst := by
  rw [List.map_map]
  refine List.map_congr_left fun entry _ => ?_
  simp only [Function.comp_apply, linkRecord]
  split_ifs <;> rfl

/-- A server with this engine. -/
def linkServer : LinkServer where
  host := { plainHost with engine := linkingEngine }
  gate := SubsidiaryScope.subsidiaryOfA.toGateState
  linkedTournamentIds := plainReads.linkedTournamentIds
  links_stamped userId record := by
    have hname : (stampCreatedBy userId record).tournamentName = record.tournamentName := by
      unfold stampCreatedBy
      cases nonEmpty userId with
      | none => rfl
      | some id => simp only [apply_ite TournamentRecord.tournamentName, ite_self]
    simp only [plainReads, hname]
  keysById := by
    intro loaded methods rollbackOnError outcome hnodup hnamed hrun
    cases hrun
    refine ⟨by rwa [keys_linkRecord], fun entry hentry => ?_⟩
    obtain ⟨before, hbefore, rfl⟩ := List.mem_map.mp hentry
    exact named_linkRecord (hnamed before hbefore)
  links_kept loaded methods rollbackOnError outcome hrun hplain entry hentry peer hpeer := by
    cases hrun
    obtain ⟨before, hbefore, rfl⟩ := List.mem_map.mp hentry
    rw [linkRecord, hplain] at hpeer ⊢
    exact ⟨before.2, hbefore, hpeer⟩

/-- Director `a` of `p` has created `t`, and provider `B` stores `peer`. -/
def linkTables : Tables :=
  { emptyTables with
    tournaments := Function.update (createdBy "a" "t").tournaments "peer"
      (some (calledOn "peer" "cup" "B")) }

/-- A mutation that links `t`. -/
def linkMutation : Json :=
  .obj [("tournamentIds", strings ["t"]),
    ("methods", .arr [.obj [("method", .str "linkTournaments")]])]

/-- It is run to its answer. -/
def linkedOnce : List (LinkAction Unit) :=
  .queue () (some (director "a")) linkMutation :: List.replicate 5 (.other (.advance ()))

/-- The director as a caller. -/
def callerA : Caller := ⟨none, some (director "a")⟩

/-- The view of `t` after a run. -/
def viewAfter (actions : List (LinkAction Unit)) : ReadAnswer :=
  let s := run (step linkServer) (.start linkTables fun _ => []) actions
  getCoordinationProjection (readsIn linkServer (courtReads true) s) s.writes.tables callerA
    (.str "t") none

/-- Alone, a mutation of locked rows is guarded. -/
theorem guarded_alone {s : LinkState Unit}
    (hsave : ∀ request roles records reply ws todo,
      s.writes.calls () ≠ .writing (.save request roles records) reply ws todo)
    (hlocked : ∀ request reply ws key record todo,
      s.writes.calls () = .writing (.queue request) reply ws ((key, record) :: todo) →
      Named (key, record) ∧ .tournament key ∈ (Work.queue request).lockKeys ()) :
    LinksGuarded linkServer s (.other (.advance ())) where
  disciplined :=
    { named := fun c request heq => by cases heq
      locked := fun c request reply ws key record todo w _ hstage hw => by
        obtain ⟨hnamed, hlock⟩ := hlocked request reply ws key record todo hstage
        rw [(nextWrite_named hnamed hw).2]
        exact hlock
      outside := fun tables roles heq => by cases heq }
  sent c payload heq := by cases heq
  kept c request roles records reply ws key record todo w _ hstage :=
    absurd hstage (hsave _ _ _ _ _ _)
  cleared c userContext payload heq := by cases heq
  context c userContext payload heq := by cases heq
  named c userContext payload heq := by cases heq

/-- The mutation is past the gate, and writes the row that it has locked. -/
theorem guarded_linkedOnce :
    RunMeets (step linkServer) (LinksGuarded linkServer) (.start linkTables fun _ => [])
      linkedOnce := by
  have hreading : ∀ {s : LinkState Unit},
      (∀ work reply ws todo, s.writes.calls () ≠ .writing work reply ws todo) →
      LinksGuarded linkServer s (.other (.advance ())) := fun hstage =>
    guarded_alone (fun _ _ _ _ _ _ => hstage _ _ _ _)
      fun _ _ _ _ _ _ heq => absurd heq (hstage _ _ _ _)
  have hsent : LinksGuarded linkServer (.start linkTables fun _ => [])
      (.queue () (some (director "a")) linkMutation) :=
    { disciplined :=
        { named := fun c request heq => by cases heq
          locked := fun c request reply ws key record todo w hadvance _ _ => by
            rcases hadvance with heq | heq <;> cases heq
          outside := fun tables roles heq => by cases heq }
      sent := fun c payload heq => by cases heq
      kept := fun c request roles records reply ws key record todo w hadvance _ _ => by
        rcases hadvance with heq | heq <;> cases heq
      cleared := fun c userContext payload heq => by
        cases heq
        rfl
      context := fun c userContext payload heq => by
        cases heq
        rfl
      named := fun c userContext payload heq => by
        cases heq
        exact ⟨["t"], by decide, by decide, _, rfl, .inl rfl⟩ }
  refine ⟨hsent, hreading ?_, hreading ?_, hreading ?_, guarded_alone ?_ ?_,
    guarded_alone ?_ ?_, trivial⟩
  · exact fun _ _ _ _ heq => by cases heq
  · exact fun _ _ _ _ heq => by cases heq
  · exact fun _ _ _ _ heq => by cases heq
  · exact fun _ _ _ _ _ _ heq => by cases heq
  · intro request reply ws key record todo heq
    cases heq
    exact ⟨rfl, List.mem_cons_self⟩
  · exact fun _ _ _ _ _ _ heq => by cases heq
  · exact fun _ _ _ _ _ _ heq => by cases heq

/-- The administrator of `A` sees the court of the peer of `B` alone, and the link that the
director's view follows was made by the mutation. -/
theorem coordination_confined_linked :
    OccupancyOnly (courtReads true) (administratorOf "A") ∧
    courtsShown (viewAfter linkedOnce) = [some "court-1"] ∧
    ∀ cells, viewAfter linkedOnce = .cells cells →
      let s := run (step linkServer) (.start linkTables fun _ => []) linkedOnce
      ∃ peers : List (String × TournamentRow),
        cells = peers.flatMap (fun peer =>
          peerCells (readsIn linkServer (courtReads true) s) callerA none peer.2.record) ∧
        ∀ peer ∈ peers, s.writes.tables.tournaments peer.1 = some peer.2 ∧
          MadeIn linkServer s.linked s.granted linkTables.tournaments s.writes.log "t" peer.1 := by
  refine ⟨?_, by decide, fun cells hview => ?_⟩
  · have hconfined := @coordination_confined Unit linkServer (courtReads true) _
      (administratorOf "A")
    exact hconfined.1 rfl (cellsNamed_court true)
  · have hconfined := @coordination_confined Unit linkServer (courtReads true) _ callerA
    exact hconfined.2.2 linkTables (fun _ => []) linkedOnce guarded_linkedOnce (.str "t") none
      cells hview

/-- A wholesale save of `t` with a link. -/
def linkingSave : SaveRequest where
  params := .obj []
  user := none
  userContext := some (director "a")
  records := [("t", { plainRecord "t" (some "p") with tournamentName := some "own" })]
  keys_nodup := List.nodup_singleton _

/-- It is run to its answer. -/
def savedOnce : List (LinkAction Unit) :=
  .other (.save () linkingSave) :: List.replicate 9 (.other (.advance ()))

/-- With scoping off the administrator of `A` reads the name of the peer of `B`, on the same
court; and a director who may save `t` saves a link that no mutation has made. -/
theorem coordination_not_confined :
    ¬ OccupancyOnly (courtReads false) (administratorOf "A") ∧
    courtsShown (viewAfter savedOnce) = [some "court-1"] ∧
    ¬ MadeIn linkServer
      (run (step linkServer) (.start linkTables fun _ => []) savedOnce).linked
      (run (step linkServer) (.start linkTables fun _ => []) savedOnce).granted
      linkTables.tournaments
      (run (step linkServer) (.start linkTables fun _ => []) savedOnce).writes.log "t" "peer" := by
  refine ⟨fun h => ?_, by decide, ?_⟩
  · have hdiffer : DifferOnlyIn (peerCalled "cup") (peerCalled "bowl") "peer"
        (calledOn "peer" "cup" "B") (calledOn "peer" "bowl" "B") :=
      { left := rfl
        right := rfl
        others := fun other hother => by simp [peerCalled, hother] }
    have hnone : NoRole (administratorOf "A") "B" :=
      { context := rfl
        token := rfl
        unlisted := by decide
        role := fun ctx heq => by
          cases heq
          decide }
    have hsame := h _ _ _ _ _ hdiffer rfl ⟨"B", rfl, hnone⟩ ⟨"B", rfl, hnone⟩ none rfl
      (.str "own")
    exact absurd (congrArg namesShown hsame) (by decide)
  · rintro (⟨⟨row, hrow, hpeer⟩, -⟩ | ⟨before, w, after, -, -, -, -, hright, -⟩)
    · cases hrow
      exact absurd hpeer (by decide)
    · rw [Bool.and_eq_true_iff] at hright
      exact absurd hright.1 (by cases w.call; decide)

end FactoryServer.CoordinationViews
