import FactoryServer.TournamentStorage

/-!
# The mutation queue and the wholesale save

The two durable commands of the server. `executionQueue` fetches the named
tournaments under their locks, lets the competition engine run the requested
methods on them, and saves what the engine leaves. The wholesale save replaces
records the client sends. The engine is a parameter: any outcome on the
fetched records is allowed.
-/

namespace FactoryServer.ExecutionQueue

open JsonValue AsyncProgram TournamentAccess CommandTransaction CommandReceipts StorageTables
  TournamentStorage

/-- What the engine reports of a queue of methods it has run. -/
structure EngineOutcome where
  /-- `innerResult`. -/
  result : Json
  /-- `asyncGlobalState.getTournamentRecords()` afterwards. -/
  records : RecordMap
  /-- Tournaments whose participants changed. -/
  participantIds : List Json
  /-- `buildProjectionDeltas` of the saved records. -/
  deltas : Except Thrown (List Json)

/-- One run of the engine: the effects its notices defer, and its outcome. -/
structure EngineRun where
  /-- Draw deletions to record and calendar rows to patch. -/
  deferred : List Effect
  /-- The outcome, or the exception. -/
  outcome : Except Thrown EngineOutcome
  /-- Notices ask for nothing else. -/
  notices : ∀ effect ∈ deferred, effect.ofNotice = true

/-- A run that defers nothing. -/
theorem notices_nil (effect : Effect) (h : effect ∈ []) : effect.ofNotice = true :=
  absurd h List.not_mem_nil

/-- `tods-competition-factory`, as the queue uses it. -/
structure Engine where
  /-- `mutationEngine.executionQueue(methods, rollbackOnError)` on the loaded records. -/
  executionQueue : RecordMap → List Json → Option Json → EngineRun
  /-- `findMatchUp`: the draw and the event of a matchUp. -/
  findMatchUp : TournamentRecord → Json → Except Thrown (Option (Json × Option Json))
  /-- The names of `governors.mocksGovernor`, unless the host allows them. -/
  isTestDataMethod : Json → Bool

/-- The services of the process, as far as they are switched on. -/
structure Services where
  /-- `projectionOutbox.isEnabled`. -/
  outboxEnabled : Bool
  /-- `PROJECTION_SNAPSHOT_MODE` is `deferred`. -/
  deferredSnapshots : Bool
  /-- The payload of `buildSnapshotDeltas`. -/
  snapshotDeltas : TournamentRecord → Except Thrown (List Json)
  /-- Durable commands have their storage. -/
  commandReceipts : Bool
  /-- `warmEventDataCache`: reads only. -/
  warmEventDataCache : Except Thrown Unit

variable (x : External) (services : Services) (engine : Engine) (borrowed : Bool)

/-! ## The payload -/

/-- `payload?.tournamentIds || (payload?.tournamentId && [payload.tournamentId]) || []`. -/
def queueTournamentIds (payload : Json) : Json :=
  let tournamentId := payload.field? "tournamentId"
  (orElse (payload.field? "tournamentIds") (orElse
    (if truthy tournamentId then some (.arr tournamentId.toList) else tournamentId)
    (some (.arr [])))).getD .null

/-- `methods ?? []` as a list; `none` is the `TypeError` of a value without `map`. -/
def methodList (methods : Option Json) : Option (List Json) :=
  match methods with
  | none => some []
  | some .null => some []
  | some (.arr items) => some items
  | some _ => none

/-- `{ method, params }` of `setMatchUpStatus` that names no draw and no event. -/
def isUnresolvedScore (method : Json) : Bool :=
  let params := method.field? "params"
  (match method.field? "method" with
    | some (.str name) => name == "setMatchUpStatus"
    | _ => false) &&
  truthy (chain params "matchUpId") && !truthy (chain params "drawId") &&
    !truthy (chain params "eventId")

/-- The method with its draw, and its event when one is known. -/
def withDraw (method : Json) (drawId : Json) (eventId : Option Json) : Json :=
  let params := spread (method.field? "params")
    (("drawId", drawId) :: (eventId.filter fun e => truthy (some e)).toList.map (("eventId", ·)))
  spread (some method) [("params", params)]

/-- The matchUp of a score entry. -/
def scoredMatchUpId (method : Json) : Json :=
  (chain (method.field? "params") "matchUpId").getD .null

/-- The score entries with the draws found for them. -/
def withDraws (methods : List Json) (draws : List (String × String × Option String)) : List Json :=
  methods.map fun method =>
    if isUnresolvedScore method then
      match draws.lookup (scoredMatchUpId method).propertyKey with
      | none => method
      | some (drawId, eventId) => withDraw method (.str drawId) (eventId.map .str)
    else method

/-- `resolveMatchUpReferencesFromIndex`: score entries of a single tournament
get their draws from the index. -/
def resolveMatchUpReferencesFromIndex (tournamentIds : Json) (methods : List Json) :
    Store (List Json) :=
  let ids := tournamentIds.iterate?.getD []
  let pending := methods.filter isUnresolvedScore
  if ids.length ≠ 1 || pending.isEmpty then .ret methods else
  (fetchMatchUpDraws x borrowed ids.head? (pending.map scoredMatchUpId)).bind fun draws =>
  .ret (withDraws methods draws)

/-- `resolveMatchUpReferences`: what is left is looked up in the record. -/
def resolveMatchUpReferences (records : RecordMap) (methods : List Json) :
    Except Thrown (List Json) :=
  match records with
  | [(_, record)] =>
    methods.mapM fun method =>
      if isUnresolvedScore method then
        (engine.findMatchUp record (scoredMatchUpId method)).map fun found =>
          match found with
          | none => method
          | some (drawId, eventId) => withDraw method drawId eventId
      else .ok method
  | _ => .ok methods

/-- `loadFetchedRecords` accepts records that carry the id of their row. -/
def recordsAreValid (rows : List (String × TournamentRow)) : Bool :=
  rows.all fun (id, row) =>
    match row.record.tournamentId with
    | some (.str tournamentId) => tournamentId == id
    | _ => false

/-- `POLICY_METHODS`. -/
def POLICY_METHODS : List String := ["attachPolicies", "removePolicy"]

/-- `documentRequestTournamentIds`. -/
def documentRequestTournamentIds (participantIds : List Json) (methods : List Json)
    (tournamentIds : Json) : List Json :=
  participantIds ++
    if methods.any fun m => ((m.field? "method").bind Json.str?).any POLICY_METHODS.contains then
      tournamentIds.iterate?.getD []
    else []

/-! ## Answers -/

/-- `{ error }`. -/
def errorAnswer (message : String) : Json := .obj [("error", .str message)]

/-- `factoryConstants.errorConditionConstants.MISSING_TOURNAMENT_RECORD`. -/
def missingTournamentRecord : Json :=
  .obj [("error", .obj [("code", .str "ERR_MISSING_TOURNAMENT")])]

/-- `factoryConstants.errorConditionConstants.INVALID_RECORDS`. -/
def invalidRecords : Json := .obj [("error", .obj [("code", .str "ERR_INVALID_RECORDS")])]

/-- `FENCED_BY_NEWER_OWNER`. -/
def FENCED_BY_NEWER_OWNER : String := "Fenced: tournament is owned by a newer epoch"

/-- The answer of the queue for a save that failed. -/
def saveFailureAnswer (failure : SaveFailure) (tournamentIds : Json) : Json :=
  match failure with
  | .fenced _ => .obj [("error", .str FENCED_BY_NEWER_OWNER), ("fenced", .bool true),
      ("tournamentIds", tournamentIds)]
  | _ => .obj [("error", .str "Could not persist tournament record(s)"), ("retryable", .bool true)]

/-- A map of times as JSON. -/
def timesJson (times : List (String × String)) : Json := .obj (times.map fun (k, v) => (k, .str v))

/-! ## `executionQueue` -/

/-- A side effect of the read model: its failure is logged and ignored. -/
def failSoft (p : Store Unit) : Store Unit := p.tryCatch fun _ => .ret ()

/-- The effects the queue defers catch their own failures. -/
def defer (effect : Effect) : Store Unit := failSoft (afterCommandCommit borrowed effect)

/-- What follows a successful save, still inside the command. -/
def flushProjection (outcome : EngineOutcome) (methods : List Json) (tournamentIds : Json) :
    Store Unit :=
  if services.outboxEnabled then
    (failSoft (match outcome.deltas with
      | .error e => .fail e
      | .ok deltas => enqueue borrowed deltas)).bind fun _ =>
    failSoft (let stale := documentRequestTournamentIds outcome.participantIds methods tournamentIds
      if stale.isEmpty then .ret () else request x borrowed .documents stale "mutation")
  else .ret ()

/-- Save what the engine left and flush the projection; the answer of a failed
save is returned early. -/
def saveMutated (outcome : EngineOutcome) (methods : List Json) (tournamentIds : Json)
    (k : Option (List (String × String)) → Store (Option Json)) : Store (Option Json) :=
  if truthy (outcome.result.field? "success") then
    (saveTournamentRecords x borrowed 0 none outcome.records).bind fun saved =>
    match saved with
    | .error failure => .ret (some (saveFailureAnswer failure tournamentIds))
    | .ok (_, serverUpdatedAt) =>
      (defer borrowed .snapshotDraws).bind fun _ =>
      (flushProjection x services borrowed outcome methods tournamentIds).bind fun _ =>
      k (some serverUpdatedAt)
  else k none

/-- The answer of a mutation that was run. -/
def mutationAnswer (payload result : Json) (methods : List Json)
    (serverUpdatedAt : Option (List (String × String))) (previous : List (String × String)) :
    Json :=
  let canonical :=
    if truthy (payload.field? "serverStamped") && truthy (result.field? "success") then
      spread (some result) [("appliedMethods", .arr methods)]
    else result
  match serverUpdatedAt with
  | none => canonical
  | some times => spread (some canonical)
      [("serverUpdatedAt", timesJson times), ("previousServerUpdatedAt", timesJson previous)]

/-- The `status` of the audit row of a mutation that was run. -/
def mutationStatus (result : Json) : MutationStatus :=
  if truthy (result.field? "success") then .applied
  else if truthy (result.field? "error") then .rejected
  else .inPart

/-- The rows as the engine loads them. -/
def loadedRecords (rows : List (String × TournamentRow)) : RecordMap :=
  rows.map fun (id, row) => (id, row.record)

/-- The callback from the fetched rows on. -/
def mutateRows (payload tournamentIds : Json) (methods : List Json)
    (rows : List (String × TournamentRow)) : Store (Option Json) :=
  (Prog.settled (resolveMatchUpReferences engine (loadedRecords rows) methods)).bind fun methods =>
  if !recordsAreValid rows then .ret (some invalidRecords) else
  let run := engine.executionQueue (loadedRecords rows) methods (payload.field? "rollbackOnError")
  (Prog.forEach run.deferred (defer borrowed)).bind fun _ =>
  (Prog.settled run.outcome).bind fun outcome =>
  saveMutated x services borrowed outcome methods tournamentIds fun serverUpdatedAt =>
  (defer borrowed (.evictAndAudit (mutationStatus outcome.result))).bind fun _ =>
  .ret (some (mutationAnswer payload outcome.result methods serverUpdatedAt
    (rows.map fun (id, row) => (id, x.toIso row.updatedAt))))

/-- The callback of `runDurableCommand` in `executionQueue`. -/
def mutate (payload tournamentIds : Json) (methods : List Json) : Store (Option Json) :=
  (resolveMatchUpReferencesFromIndex x borrowed tournamentIds methods).bind fun methods =>
  (fetchTournamentRecords x borrowed (some tournamentIds) none).bind fun fetched =>
  match fetched with
  | none => .ret (some missingTournamentRecord)
  | some rows => mutateRows x services engine borrowed payload tournamentIds methods rows

/-- Work that runs while the process holds the locks of `ids`. -/
structure Locked where
  /-- The argument of `withTournamentLock`. -/
  ids : List Json
  /-- The callback, told whether it may borrow a connection. -/
  body : Bool → Store (Option Json)

/-- The answer of a mutation whose methods are refused. -/
def refusedTestData (refused : List Json) : Json :=
  .obj [("error", .obj [("message", .str "Test-data methods are not accepted")]),
    ("context", .obj [("refused", .arr refused)])]

/-- A value without `map` or an iterator. -/
def typeError : Thrown := .error "TypeError"

/-- What `executionQueue` comes to before it waits for a lock: an answer, an
exception, or the locked work with the catch-all around it. -/
inductive Admission where
  | answered (answer : Json)
  | thrown (error : Thrown)
  /-- `[...tournamentIds]` fails inside the `try`. -/
  | notIterable (tournamentIds : Json)
  | locked (tournamentIds : Json) (work : Locked)

/-- The checks of `executionQueue` and the work it hands to the lock. -/
def admission (payload : Json) : Admission :=
  let tournamentIds := queueTournamentIds payload
  if !truthy tournamentIds.length? then .answered (errorAnswer "No tournamentIds provided") else
  match methodList (payload.field? "methods") with
  | none => .thrown typeError
  | some methods =>
    let names := methods.filterMap (Json.field? "method")
    let refused := names.filter engine.isTestDataMethod
    if !refused.isEmpty then .answered (refusedTestData refused) else
    match tournamentIds.iterate? with
    | none => .notIterable tournamentIds
    | some ids => .locked tournamentIds
        ⟨ids, fun borrowed => mutate x services engine borrowed payload tournamentIds methods⟩

/-- The message of an exception. -/
def messageOf : Thrown → String
  | .http _ message => message
  | .error message => message

/-- The `catch` block of `executionQueue`: the failure is audited and answered. -/
def queueCatch (payload tournamentIds : Json) (error : Thrown) : Store Json :=
  match tournamentIds with
  | .arr _ =>
    (failSoft (perform (.runEffect .auditException))).bind fun _ =>
    if (payload.field? "commandId").isSome then
      match error with
      | .http status message => .fail (.http status message)
      | .error _ =>
        .fail (.http 503 "Durable command outcome uncertain; retry with the same command ID")
    else .ret (.obj [("error", .str (messageOf error)), ("tournamentIds", tournamentIds)])
  | _ => .fail typeError

/-- `executionQueue` of a process that holds the locks at once. -/
def executionQueue (storedJson : Json → Json) (payload : Json) : Store Json :=
  match admission x services engine payload with
  | .answered answer => .ret answer
  | .thrown error => .fail error
  | .notIterable tournamentIds => queueCatch payload tournamentIds typeError
  | .locked tournamentIds work =>
    ((runDurableCommand storedJson payload services.commandReceipts work.body).bind fun result =>
      (if truthy (payload.field? "warmCache") then Prog.settled services.warmEventDataCache
        else .ret ()).bind fun _ =>
      .ret (spread result [])).tryCatch (queueCatch payload tournamentIds)

/-! ## The wholesale save -/

/-- The fields of `expected` that the client set. -/
def expectedFields (expected : Option Json) : Option (List (String × Json)) :=
  match expected with
  | some (.obj fields) => some fields
  | some (.arr items) => some (Json.arr items).entries
  | _ => none

/-- The conflict answer of a conditional save. -/
def conflictAnswer (tournamentId : String) (expected current : Json) : Json :=
  .obj [("error", .str "Tournament changed since it was read"), ("conflict", .bool true),
    ("tournamentId", .str tournamentId), ("expectedServerUpdatedAt", expected),
    ("serverUpdatedAt", current)]

/-- `current !== expected` on a time and an untyped value. -/
def sameTime (current : Option String) (expected : Json) : Bool :=
  match current, expected with
  | none, .null => true
  | some time, .str given => time == given
  | _, _ => false

/-- `unexpectedServerUpdatedAt`: the first record that is not as the client last
saw it. -/
def unexpectedServerUpdatedAt (fields : List (String × Json)) : List String → Store (Option Json)
  | [] => .ret none
  | tid :: rest =>
    match fields.lookup tid with
    | none => unexpectedServerUpdatedAt fields rest
    | some expected =>
      (fetchTournamentUpdatedAt x borrowed (some (.str tid))).bind fun stored =>
      let current := stored.map fun view => x.toIso view.serverUpdatedAt
      if sameTime current expected then unexpectedServerUpdatedAt fields rest
      else .ret (some (conflictAnswer tid expected ((current.map .str).getD .null)))

/-- `enqueueSnapshots`: every failure is logged and ignored. -/
def enqueueSnapshots (records : RecordMap) (source : String) : Store Unit :=
  if !services.outboxEnabled then .ret () else
  let ids := records.map fun (id, _) => Json.str id
  (failSoft (request x borrowed .documents ids source)).bind fun _ =>
  if services.deferredSnapshots then failSoft (request x borrowed .snapshot ids source)
  else Prog.forEach records fun (_, record) =>
    failSoft (match services.snapshotDeltas record with
      | .error e => .fail e
      | .ok deltas => enqueue borrowed deltas)

/-- The answer of the storage as JSON. -/
def saveAnswer : SaveResults → Json
  | .error (.refused error) => errorAnswer error
  | .error (.fenced tournamentId) => .obj [("error", .str FENCED_BY_NEWER_OWNER),
      ("fenced", .bool true), ("tournamentId", tournamentId)]
  | .ok (bytes, serverUpdatedAt) => .obj [("success", .bool true),
      ("bytes", .obj (bytes.map fun (k, n) => (k, .num n))),
      ("serverUpdatedAt", timesJson serverUpdatedAt)]

/-- The callback of `runDurableCommand` in `saveTournamentRecords`. -/
def replaceRecords (params : Json) (userId : Option String) (records : RecordMap) :
    Store (Option Json) :=
  let check : Store (Option Json) :=
    match expectedFields (params.field? "expectedServerUpdatedAt") with
    | none => .ret none
    | some fields => unexpectedServerUpdatedAt x borrowed fields (records.map Prod.fst)
  check.bind fun conflict =>
  match conflict with
  | some conflict => .ret (some conflict)
  | none =>
    (saveTournamentRecords x borrowed 0 userId records).bind fun saved =>
    match saved with
    | .error _ => .ret (some (saveAnswer saved))
    | .ok _ =>
      (enqueueSnapshots x services borrowed records "factory-save").bind fun _ =>
      .ret (some (saveAnswer saved))

/-! ## Durable commands -/

/-- A durable command of the server. -/
inductive Command where
  /-- `executionQueue` with its resolved ids and methods. -/
  | mutation (payload tournamentIds : Json) (methods : List Json)
  /-- `saveTournamentRecords` of the factory service. -/
  | wholesaleSave (params : Json) (userId : Option String) (records : RecordMap)

/-- The payload that carries the identity of the command. -/
def Command.payload : Command → Json
  | .mutation payload _ _ => payload
  | .wholesaleSave params _ _ => params

/-- The callback handed to `runDurableCommand`. -/
def Command.apply (x : External) (services : Services) (engine : Engine) (borrowed : Bool) :
    Command → Store (Option Json)
  | .mutation payload ids methods => mutate x services engine borrowed payload ids methods
  | .wholesaleSave params userId records =>
    replaceRecords x services borrowed params userId records

/-- The user whose id is stamped on first saves. -/
def Command.userId : Command → Option String
  | .mutation _ _ _ => none
  | .wholesaleSave _ userId _ => userId

end FactoryServer.ExecutionQueue
