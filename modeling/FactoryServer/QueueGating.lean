import Mathlib.Data.List.Dedup
import FactoryServer.SubsidiaryScope

/-!
# What the gate has seen of what the queue runs on

The controller resolves the ids for the gate with `tournamentIds ?? [tournamentId]`,
the queue resolves them again with `tournamentIds || [tournamentId]` and hands
them to the database as one array parameter. A score takes no gate at all. This
module says on which rows the engine runs, and which of them the gate looked at.
-/

namespace FactoryServer.QueueGating

open JsonValue TournamentAccess RequestIdentity CommandTransaction StorageTables
  TournamentStorage ExecutionQueue MutationGate TournamentWrites

/-! ## The rows of a payload -/

section Rows

variable (s : WriteState)

/-- The rows that the ids of the queue name as the parameter of `= ANY($1)`. -/
def namedRows (payload : Json) : List String :=
  (s.external.pg.textArray (queueTournamentIds payload)).getD []

/-- The methods resolve against the fetched rows, and every row carries its own id. -/
def loads (tournamentIds : Json) (methods : List Json) : Bool :=
  match indexedMethods s tournamentIds methods with
  | none => false
  | some methods =>
    (resolveMatchUpReferences s.engine
      (loadedRecords (fetchedRows s tournamentIds)) methods).isOk &&
      recordsAreValid (fetchedRows s tournamentIds)

/-- The queue gets as far as running the engine on the rows it finds. -/
def reachesEngine (payload : Json) : Bool :=
  match ExecutionQueue.admission s.external s.services s.engine payload with
  | .locked tournamentIds _ => isApplied s payload &&
      loads s tournamentIds ((methodList (payload.field? "methods")).getD [])
  | _ => false

variable {s}

/-- The engine runs on all fetched rows or on none. -/
theorem engineRows_eq (tournamentIds : Json) (methods : List Json) :
    engineRows s tournamentIds methods =
      if loads s tournamentIds methods then fetchedRows s tournamentIds else [] := by
  unfold engineRows loads
  cases indexedMethods s tournamentIds methods with
  | none => rfl
  | some methods =>
    cases hr : resolveMatchUpReferences s.engine (loadedRecords (fetchedRows s tournamentIds))
        methods with
    | error e => simp [hr, Except.isOk, Except.toBool]
    | ok resolved => simp [hr, Except.isOk, Except.toBool]

/-- The fetch finds the stored ones of the named rows. -/
theorem mem_fetchedRows {payload : Json} {t : String} :
    t ∈ (fetchedRows s (queueTournamentIds payload)).map Prod.fst ↔
      t ∈ namedRows s payload ∧ (s.stored t).isSome = true := by
  unfold fetchedRows namedRows
  cases s.external.pg.textArray (queueTournamentIds payload) with
  | none => simp
  | some ids =>
    simp only [exec, WriteState.stored, Option.isSome_map, Option.isSome_iff_exists,
      Option.getD_some, List.mem_map, List.mem_filterMap, List.mem_dedup]
    constructor
    · rintro ⟨row, ⟨id, hid, hrow⟩, rfl⟩
      obtain ⟨stored, hstored, rfl⟩ := Option.map_eq_some_iff.mp hrow
      exact ⟨hid, stored, hstored⟩
    · rintro ⟨hid, row, hrow⟩
      exact ⟨(t, row), ⟨t, hid, by simp [hrow]⟩, rfl⟩

/-- The locked work is about the ids of the payload. -/
theorem ids_of_locked {payload tournamentIds : Json} {work : Locked}
    (h : ExecutionQueue.admission s.external s.services s.engine payload =
      .locked tournamentIds work) : tournamentIds = queueTournamentIds payload := by
  unfold ExecutionQueue.admission at h
  dsimp only at h
  split at h
  · cases h
  · split at h
    · cases h
    · split at h
      · cases h
      · split at h
        · cases h
        · cases h
          rfl

/-- The engine runs on the stored rows the ids name, once the queue gets there. -/
theorem mem_queueTargets {payload : Json} {t : String} :
    t ∈ queueTargets s payload ↔ reachesEngine s payload = true ∧
      t ∈ namedRows s payload ∧ (s.stored t).isSome = true := by
  unfold queueTargets reachesEngine
  cases ha : ExecutionQueue.admission s.external s.services s.engine payload with
  | answered answer => simp
  | thrown error => simp
  | notIterable tournamentIds => simp
  | locked tournamentIds work =>
    dsimp only
    rw [ids_of_locked ha, engineRows_eq]
    cases isApplied s payload with
    | false => simp
    | true =>
      cases loads s (queueTournamentIds payload)
          ((methodList (payload.field? "methods")).getD []) with
      | false => simp
      | true => simpa using mem_fetchedRows

/-- The indices of an array are no names. -/
theorem field_entries {key : String} (h : key.toList.any (fun c => !c.isDigit) = true)
    (body : Json) :
    (Json.obj body.entries).field? key = body.field? key := by
  have hindex : ∀ i : ℕ, toString i ≠ key := by
    intro i hkey
    obtain ⟨c, hc, hdigit⟩ := List.any_eq_true.mp h
    rw [← hkey] at hc
    have hin : c ∈ Nat.toDigits 10 i := by simpa [Nat.repr, toString] using hc
    rw [Nat.isDigit_of_mem_toDigits (by decide) (by decide) hin] at hdigit
    cases hdigit
  have hnone : ∀ (α : Type) (items : List α) (value : α → Json),
      (items.mapIdx fun i item => (toString i, value item)).find? (fun f => f.1 == key) =
        none := by
    intro α items value
    refine List.find?_eq_none.mpr fun f hf => ?_
    obtain ⟨i, hi, rfl⟩ := List.mem_mapIdx.mp hf
    exact fun h => hindex i (beq_iff_eq.mp h)
  cases body with
  | arr items => exact congrArg (Option.map Prod.snd) (hnone Json items id)
  | str text => exact congrArg (Option.map Prod.snd) (hnone Char text.toList _)
  | _ => rfl

/-- The queue's payload has every field of the body that the server does not set. -/
theorem field_queuePayload {user : Option RequestUser} {key : String} (body : Json)
    (hkey : key ∉ ["userEmail", "commandActor", "commandFingerprint", "userId"])
    (h : key.toList.any (fun c => !c.isDigit) = true) :
    (queuePayload s user body).field? key = body.field? key := by
  refine (field_spread_of_ne _ fun f hf => ?_).trans (field_entries h body)
  rintro rfl
  refine hkey ?_
  rcases List.mem_append.mp hf with hf | hf
  · obtain ⟨email, -, rfl⟩ := List.mem_map.mp hf
    simp
  · simp only [List.mem_cons, List.not_mem_nil, or_false] at hf
    rcases hf with rfl | rfl | rfl <;> simp

end Rows

/-! ## The rows of the gate -/

section Gate

variable {s : WriteState}

/-- What the gate reads of an id is the row under its text, when the id is truthy. -/
theorem storedView_eq_some {tid : Json} {view : UpdatedAtView} :
    storedView s.toGateState tid = some view ↔ truthy (some tid) = true ∧
      ∃ row, s.tables.tournaments (s.external.pg.text tid) = some row ∧
        row.updatedAtView (s.external.pg.text tid) = view := by
  unfold storedView
  split_ifs with ht
  · simp [ht, exec]
  · simp [ht]

/-- The id that a view carries is the one it was read under. -/
theorem tournamentId_of_storedView {tid : Json} {view : UpdatedAtView}
    (h : storedView s.toGateState tid = some view) :
    view.tournamentId = s.external.pg.text tid := by
  obtain ⟨-, row, -, rfl⟩ := storedView_eq_some.mp h
  rfl

/-- The gate evaluated its checks on row `t` and found no denial. -/
def Checked (s : WriteState) (state : RequestState) (body : Json) (t : String) : Prop :=
  ∃ ctx, state.userContext = some ctx ∧
    ∃ methods, methodList (body.field? "methods") = some methods ∧
      ∃ tid ∈ gatedIds body, ∃ view, storedView s.toGateState tid = some view ∧
        view.tournamentId = t ∧
        checkTournament s.toGateState ctx (requestedMethods methods) methods (viewRecord view)
          (loadedEvents s.toGateState tid) = none

/-- The loop of the gate reads row `t`: a truthy id of its list is sent as `t`, and
the row is stored. -/
def Visited (s : WriteState) (body : Json) (t : String) : Prop :=
  (∃ tid ∈ gatedIds body, truthy (some tid) = true ∧ s.external.pg.text tid = t) ∧
    (s.stored t).isSome = true

/-- A request that the controller passes on has cleared the loop of the gate. -/
theorem cleared_of_admitsQueue {state : RequestState} {body : Json} {ctx : UserContext}
    (h : admitsQueue s state body = true) (hctx : state.userContext = some ctx) :
    ∃ methods, methodList (body.field? "methods") = some methods ∧
      ∀ tid ∈ gatedIds body,
        gateTournament s.toGateState ctx (requestedMethods methods) methods tid = none := by
  simp only [admitsQueue, Bool.and_eq_true] at h
  have hgate := h.2
  cases hm : methodList (body.field? "methods") with
  | none => simp [hm] at hgate
  | some methods =>
    refine ⟨methods, rfl, ?_⟩
    simp only [hm] at hgate
    cases hg : gate s.toGateState state.userContext (gateTournamentIds body)
      (requestedMethods methods) methods with
    | error e => simp [hg] at hgate
    | ok denial =>
      cases denial with
      | some reason => simp [hg] at hgate
      | none => exact (gate_clear_iff.mp hg ctx hctx).2

/-- Of a request that the controller passes on, the gate has checked the rows it
read for a caller with a context. -/
theorem checked_iff {state : RequestState} {body : Json} {t : String}
    (h : admitsQueue s state body = true) :
    Checked s state body t ↔ state.userContext.isSome = true ∧ Visited s body t := by
  constructor
  · rintro ⟨ctx, hctx, methods, -, tid, htid, view, hview, rfl, -⟩
    obtain ⟨htruthy, row, hrow, hv⟩ := storedView_eq_some.mp hview
    have hid := tournamentId_of_storedView hview
    refine ⟨by simp [hctx], ⟨tid, htid, htruthy, hid.symm⟩, ?_⟩
    simp [WriteState.stored, hid, hrow]
  · rintro ⟨hctx, ⟨tid, htid, htruthy, rfl⟩, hstored⟩
    obtain ⟨ctx, hctx⟩ := Option.isSome_iff_exists.mp hctx
    obtain ⟨methods, hm, hpass⟩ := cleared_of_admitsQueue h hctx
    simp only [WriteState.stored, Option.isSome_map] at hstored
    obtain ⟨row, hrow⟩ := Option.isSome_iff_exists.mp hstored
    have hview : storedView s.toGateState tid =
        some (row.updatedAtView (s.external.pg.text tid)) :=
      storedView_eq_some.mpr ⟨htruthy, row, hrow, rfl⟩
    refine ⟨ctx, hctx, methods, hm, tid, htid, _, hview, tournamentId_of_storedView hview, ?_⟩
    simpa [gateTournament, hview] using hpass tid htid

/-- Every row that the engine runs on was checked, with the tables the queue finds
under its lock. -/
def RowsChecked (s : WriteState) (later : Tables) (state : RequestState) (body : Json) : Prop :=
  admitsQueue s state body = true →
    ∀ t ∈ queueTargets { s with tables := later } (queuePayload s state.user body),
      Checked s state body t

/-- A body of the declared shape: the ids are strings that are not empty, or there
is one such id and no list. -/
def NamesIds (body : Json) (ids : List String) : Prop :=
  ids ≠ [] ∧ "" ∉ ids ∧ ∃ fields, body = .obj fields ∧
    (body.field? "tournamentIds" = some (strings ids) ∨
      nullish (body.field? "tournamentIds") = true ∧
        ∃ id, ids = [id] ∧ body.field? "tournamentId" = some (.str id))

/-- On a body of the declared shape gate and queue resolve the same ids. -/
theorem ids_named {body : Json} {ids : List String} (h : NamesIds body ids) :
    queueTournamentIds body = strings ids ∧ gatedIds body = ids.map Json.str := by
  obtain ⟨hne, hempty, fields, rfl, hids⟩ := h
  obtain ⟨first, rest, rfl⟩ := List.exists_cons_of_ne_nil hne
  have hlength : truthy (strings (first :: rest)).length? = true := by
    simp only [strings, Json.length?, List.map_cons, List.length_cons, truthy]
    exact bne_iff_ne.mpr (by omega)
  rcases hids with hids | ⟨hnull, id, hid, hone⟩
  · have hgate : gateTournamentIds (.obj fields) = strings (first :: rest) := by
      simp [gateTournamentIds, hids, coalesce, nullish, strings]
    constructor
    · simp [queueTournamentIds, hids, orElse, strings]
    · simp [gatedIds, hgate, hlength]
  · obtain ⟨rfl, rfl⟩ := List.cons.inj hid
    have htruthy : truthy (some (.str first)) = true := by
      refine bne_iff_ne.mpr fun h => hempty ?_
      simp [h]
    have hgate : gateTournamentIds (.obj fields) = strings [first] := by
      simp [gateTournamentIds, coalesce, hnull, hone, htruthy, strings]
    constructor
    · simp only [queueTournamentIds, hone, orElse_of_nullish hnull, htruthy, if_true]
      rfl
    · simp [gatedIds, hgate, hlength]

/-- On a body of the declared shape gate and queue name the same rows. -/
theorem named_and_gated {state : RequestState} {body : Json} {ids : List String}
    (h : NamesIds body ids) :
    namedRows s (queuePayload s state.user body) = ids ∧
      gatedIds body = ids.map Json.str := by
  have hfield : ∀ key, key = "tournamentIds" ∨ key = "tournamentId" →
      (queuePayload s state.user body).field? key = body.field? key := by
    rintro key (rfl | rfl) <;> exact field_queuePayload _ (by decide) (by decide)
  obtain ⟨hqueue, hgated⟩ := ids_named h
  refine ⟨?_, hgated⟩
  have hsame : queueTournamentIds (queuePayload s state.user body) = queueTournamentIds body := by
    simp only [queueTournamentIds, hfield _ (.inl rfl), hfield _ (.inr rfl)]
  rw [namedRows, hsame, hqueue, s.external.pg.textArray_strings]
  rfl

/-- The rows that `POST /factory` lets the engine run on have passed the gate exactly
when the caller has a context and every stored row named by the ids of the queue is
one that the loop of the gate read. A body of the declared shape names the same ids
to both. -/
theorem rows_checked_iff (s : WriteState) (later : Tables) (state : RequestState) (body : Json) :
    (RowsChecked s later state body ↔
      (admitsQueue s state body = true →
        reachesEngine { s with tables := later } (queuePayload s state.user body) = true →
        ∀ t ∈ namedRows s (queuePayload s state.user body),
          (later.tournaments t).isSome = true →
          state.userContext.isSome = true ∧ Visited s body t)) ∧
    ∀ ids, NamesIds body ids → state.userContext.isSome = true →
      (∀ t ∈ ids, (later.tournaments t).isSome = true → (s.stored t).isSome = true) →
      RowsChecked s later state body := by
  have hstored : ∀ t, (WriteState.stored { s with tables := later } t).isSome = true ↔
      (later.tournaments t).isSome = true := by
    intro t
    simp [WriteState.stored]
  have hiff : RowsChecked s later state body ↔
      (admitsQueue s state body = true →
        reachesEngine { s with tables := later } (queuePayload s state.user body) = true →
        ∀ t ∈ namedRows s (queuePayload s state.user body),
          (later.tournaments t).isSome = true →
          state.userContext.isSome = true ∧ Visited s body t) := by
    constructor
    · intro h ha hreach t ht hlater
      exact (checked_iff ha).mp
        (h ha t (mem_queueTargets.mpr ⟨hreach, ht, (hstored t).mpr hlater⟩))
    · intro h ha t ht
      obtain ⟨hreach, hnamed, hlater⟩ := mem_queueTargets.mp ht
      exact (checked_iff ha).mpr (h ha hreach t hnamed ((hstored t).mp hlater))
  refine ⟨hiff, fun ids hids hctx hkept => hiff.mpr fun _ _ t ht hlater => ⟨hctx, ?_, ?_⟩⟩
  · have hboth : namedRows s (queuePayload s state.user body) = ids ∧
        gatedIds body = ids.map Json.str := named_and_gated hids
    obtain ⟨hnamed, hgated⟩ := hboth
    rw [hnamed] at ht
    have hne : t ≠ "" := fun h => hids.2.1 (h ▸ ht)
    rw [hgated]
    exact ⟨.str t, List.mem_map_of_mem ht, bne_iff_ne.mpr hne, s.external.pg.text_str t⟩
  · rw [(named_and_gated hids).1] at ht
    exact hkept t ht hlater

/-- An API key of provider `B`. -/
def keyOfB : RequestState where
  user := some (keyUser "provider:B" "key@B" "B")
  userContext := some (keyContext "provider:B" "key@B" "B" none)
  provisioner := none
  provider := some "B"
  provisionerRelationship := none

/-- The list is an empty string: nullish for neither, and falsy for the queue. -/
def emptyList : Json :=
  .obj [("tournamentIds", .str ""), ("tournamentId", .str "t"),
    ("methods", .arr [.obj [("method", .str "addEvent")]])]

/-- With an empty string for a list the gate checks nothing, and the queue runs on a
tournament of another provider. -/
theorem rows_not_checked :
    keyOfB.userContext.all (fun ctx => !ctx.isSuperAdmin) = true ∧
      ¬ RowsChecked SubsidiaryScope.subsidiaryOfA SubsidiaryScope.subsidiaryOfA.tables keyOfB
        emptyList := by
  refine ⟨rfl, fun h => ?_⟩
  obtain ⟨-, -, -, -, tid, htid, -⟩ := h (by decide) "t" (by decide)
  cases (show tid ∈ ([] : List Json) from htid)

/-- A body of the declared shape is checked. -/
theorem rows_checked_sample :
    RowsChecked SubsidiaryScope.subsidiaryOfA SubsidiaryScope.subsidiaryOfA.tables keyOfB
      (.obj [("tournamentId", .str "t")]) :=
  (rows_checked_iff _ _ _ _).2 ["t"]
    ⟨by simp, by simp, _, rfl, Or.inr ⟨rfl, "t", rfl, rfl⟩⟩ rfl fun _ _ h => by
      simpa [WriteState.stored] using h

end Gate

/-! ## Both routes -/

/-- A request that puts methods on the queue. -/
inductive QueueRequest where
  /-- `POST /factory`. -/
  | executionQueue (body : Json)
  /-- `POST /factory/score`, with or without the `params` around it. -/
  | score (body : Json)

/-- What the controller hands to the queue. -/
def QueueRequest.payload (s : WriteState) (state : RequestState) : QueueRequest → Json
  | .executionQueue body => queuePayload s state.user body
  | .score body => scorePayload body

/-- The controller hands the request on. -/
def QueueRequest.admits (s : WriteState) (state : RequestState) : QueueRequest → Bool
  | .executionQueue body => admitsQueue s state body
  | .score _ => true

/-- The ids that the controller asks the gate about. -/
def QueueRequest.asked : QueueRequest → List Json
  | .executionQueue body => gatedIds body
  | .score _ => []

/-- The methods that the queue runs. -/
def methodsOf (payload : Json) : List Json := (methodList (payload.field? "methods")).getD []

/-- The four checks of the gate hold for the caller, a stored row and the methods. -/
def ChecksHold (s : WriteState) (state : RequestState) (methods : List Json) (t : String) : Prop :=
  ∃ ctx, state.userContext = some ctx ∧ ∃ row, s.tables.tournaments t = some row ∧
    checkTournament s.toGateState ctx (requestedMethods methods) methods
      (viewRecord (row.updatedAtView t)) (s.eventsOf row.record) = none

/-- Whatever the engine runs on has passed the checks for the methods it runs. -/
def EveryRowGated (s : WriteState) (state : RequestState) (request : QueueRequest) : Prop :=
  request.admits s state = true →
    ∀ t ∈ queueTargets s (request.payload s state),
      ChecksHold s state (methodsOf (request.payload s state)) t

/-- The route asks the gate about row `t`, under the id the row has. -/
def Asked (s : WriteState) (state : RequestState) (request : QueueRequest) (t : String) : Prop :=
  state.userContext.isSome = true ∧ ∃ tid ∈ request.asked, truthy (some tid) = true ∧
    s.external.pg.text tid = t ∧ tid.propertyKey = t

/-- The checks hold on what the route asked about. -/
theorem checksHold_of_asked {s : WriteState} {state : RequestState} {request : QueueRequest}
    {t : String} (ha : request.admits s state = true) (hs : (s.stored t).isSome = true)
    (h : Asked s state request t) :
    ChecksHold s state (methodsOf (request.payload s state)) t := by
  obtain ⟨hctx, tid, htid, htruthy, htext, hkey⟩ := h
  obtain ⟨ctx, hctx⟩ := Option.isSome_iff_exists.mp hctx
  cases request with
  | score body => cases htid
  | executionQueue body =>
    obtain ⟨methods, hm, hpass⟩ := cleared_of_admitsQueue ha hctx
    have hfield : (queuePayload s state.user body).field? "methods" = body.field? "methods" :=
      field_queuePayload body (by decide) (by decide)
    have hmethods : methodsOf (queuePayload s state.user body) = methods := by
      simp [methodsOf, hfield, hm]
    subst htext
    simp only [WriteState.stored, Option.isSome_map] at hs
    obtain ⟨row, hrow⟩ := Option.isSome_iff_exists.mp hs
    have hview : storedView s.toGateState tid =
        some (row.updatedAtView (s.external.pg.text tid)) :=
      storedView_eq_some.mpr ⟨htruthy, row, hrow, rfl⟩
    have hevents : loadedEvents s.toGateState tid = s.eventsOf row.record := by
      simp only [loadedEvents, hrow]
      exact if_pos hkey
    refine ⟨ctx, hctx, row, hrow, ?_⟩
    have hcheck := hpass tid htid
    simp only [gateTournament, hview, Option.bind_some, hevents] at hcheck
    rw [QueueRequest.payload, hmethods]
    exact hcheck

/-- The checks hold on the stored rows of the queue that the route did not ask about. -/
def PassesUnasked (s : WriteState) (state : RequestState) (request : QueueRequest) : Prop :=
  ∀ t ∈ namedRows s (request.payload s state), (s.stored t).isSome = true →
    ¬ Asked s state request t → ChecksHold s state (methodsOf (request.payload s state)) t

/-- A verifier that knows one token: a service token for scores, without a user. -/
def relayVerifier : TokenVerifier where
  verifyJwt token :=
    if token = "relay" then
      some ⟨none, some "score-relay", none, some ["score"], some (.str "score"), none, none, [],
        none, false⟩
    else none
  hashApiKey token := token
  prov_rejected token h := if_neg (by rintro rfl; revert h; decide)
  pkey_rejected token h := if_neg (by rintro rfl; revert h; decide)

/-- A score request with that token. -/
def relayRequest : HttpRequest := ⟨"/factory", some ["Bearer", "relay"], none, none⟩

/-- The score route admits the service token, and no context comes with it. -/
theorem relay_admitted (s : WriteState) (body : Json) :
    ∃ state, RequestIdentity.admission relayVerifier s.identity
      ((WriteRequest.score body).declared false) relayRequest = some state ∧
        state.userContext = none :=
  ⟨_, rfl, rfl⟩

/-- A request runs the engine only where the checks hold exactly when they hold on the
rows its route did not ask the gate about. `POST /factory/score` asks about none, so
that the callers it admits all meet it only where the engine runs on nothing. -/
theorem every_row_gated_iff (s : WriteState) :
    (∀ state request, EveryRowGated s state request ↔
      (request.admits s state = true →
        reachesEngine s (request.payload s state) = true → PassesUnasked s state request)) ∧
    ∀ body, (∀ verifier http state,
        RequestIdentity.admission verifier s.identity ((WriteRequest.score body).declared false)
          http = some state → EveryRowGated s state (.score body)) ↔
      (reachesEngine s (scorePayload body) = true →
        ∀ t ∈ namedRows s (scorePayload body), s.stored t = none) := by
  constructor
  · intro state request
    constructor
    · intro h ha hreach t ht hs _
      exact h ha t (mem_queueTargets.mpr ⟨hreach, ht, hs⟩)
    · intro h ha t ht
      obtain ⟨hreach, hnamed, hs⟩ := mem_queueTargets.mp ht
      by_cases hasked : Asked s state request t
      · exact checksHold_of_asked ha hs hasked
      · exact h ha hreach t hnamed hs hasked
  · intro body
    constructor
    · intro h hreach t ht
      by_contra hs
      obtain ⟨state, hadmitted, hnone⟩ := relay_admitted s body
      obtain ⟨ctx, hctx, -⟩ := h relayVerifier relayRequest state hadmitted rfl t
        (mem_queueTargets.mpr ⟨hreach, ht, Option.isSome_iff_ne_none.mpr hs⟩)
      rw [hnone] at hctx
      cases hctx
    · intro h verifier http state _ _ t ht
      obtain ⟨hreach, hnamed, hs⟩ := mem_queueTargets.mp ht
      rw [h hreach t hnamed] at hs
      cases hs

/-- A score of provider `B`'s key in a tournament of `A`, under `params`. -/
def foreignScore : Json :=
  .obj [("params", .obj [("tournamentId", .str "t"), ("matchUpId", .str "m")])]

/-- The score reaches the engine, and the checks of the gate refuse it. -/
theorem score_not_gated :
    ¬ EveryRowGated SubsidiaryScope.subsidiaryOfA keyOfB (.score foreignScore) := by
  intro h
  obtain ⟨ctx, hctx, row, hrow, hcheck⟩ := h rfl "t" (by decide)
  cases hctx
  cases hrow
  cases hcheck

end FactoryServer.QueueGating
