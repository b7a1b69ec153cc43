import FactoryServer.DurableSave
import FactoryServer.InsertionMaps
import FactoryServer.PooledConnection

/-!
# The records the mutation queue writes

`executionQueue` locks and fetches the tournaments of its payload, hands the
fetched records to the state provider of the engine, and saves the state that
the engine leaves. The engine acts on that state through the provider's
functions and on the records in place, so the state may end anywhere. The
queue writes only what it has locked if each record that the save reaches sits
under its own id and that id was fetched.
-/

namespace FactoryServer.LockedWrites

open JsonValue InsertionMaps AsyncProgram TournamentAccess CommandTransaction CommandSession
  StorageTables TournamentStorage ExecutionQueue StorageFrames StorageRegime CallbackOutcomes
  PooledConnection
open AsyncProgram.Prog (Ensures Exchange)

/-! ## The state provider -/

/-- What the engine does to `instanceState.tournamentRecords` while the queue runs. -/
inductive ProviderCall where
  /-- `setTournamentRecord(tournamentRecord)`. -/
  | setTournamentRecord (record : TournamentRecord)
  /-- `setTournamentRecords(tournamentRecords)`. -/
  | setTournamentRecords (records : RecordMap)
  /-- `removeTournamentRecord(tournamentId)`. -/
  | removeTournamentRecord (tournamentId : Json)
  /-- The record held under a key is changed in place. -/
  | change (key : String) (record : TournamentRecord)

/-- The property key of `tournamentRecord?.tournamentId`. -/
def stateKey (record : TournamentRecord) : String :=
  (record.tournamentId.map Json.propertyKey).getD "undefined"

/-- The state after one call; a removal of anything but a held key is refused. -/
def ProviderCall.apply (records : RecordMap) : ProviderCall → RecordMap
  | .setTournamentRecord record => setEntry records (stateKey record) record
  | .setTournamentRecords replacement => replacement
  | .removeTournamentRecord (.str tournamentId) =>
    records.filter fun entry => entry.1 ≠ tournamentId
  | .removeTournamentRecord _ => records
  | .change key record => records.map fun entry => if entry.1 = key then (key, record) else entry

/-- The calls of an engine run, given the loaded records, the methods and `rollbackOnError`. -/
abbrev EngineCalls : Type := RecordMap → List Json → Option Json → List ProviderCall

variable (engine : Engine) (calls : EngineCalls)

/-- `asyncGlobalState.getTournamentRecords()` after the queue has run. -/
def stateLeft (loaded : RecordMap) (methods : List Json) (rollbackOnError : Option Json) :
    RecordMap :=
  (calls loaded methods rollbackOnError).foldl ProviderCall.apply loaded

/-- The engine that makes these calls and reports what `engine` reports. -/
def driving : Engine where
  executionQueue loaded methods rollbackOnError :=
    let run := engine.executionQueue loaded methods rollbackOnError
    { run with outcome := run.outcome.map fun outcome =>
        { outcome with records := stateLeft calls loaded methods rollbackOnError } }
  findMatchUp := engine.findMatchUp
  isTestDataMethod := engine.isTestDataMethod

/-! ## The log of a call -/

/-- What a call asks the database and is told. -/
abbrev Log : Type :=
  List (Exchange (Await Statement Effect) (Await.Answer Statement.Answer) Thrown)

/-- The rows an exchange has fetched. -/
def rowsOf : Exchange (Await Statement Effect) (Await.Answer Statement.Answer) Thrown →
    List (String × TournamentRow)
  | ⟨.query _ (.data (.selectTournaments _)), .ok rows⟩ => rows
  | _ => []

/-- The draws an exchange has found in the index. -/
def drawsOf : Exchange (Await Statement Effect) (Await.Answer Statement.Answer) Thrown →
    List (String × String × Option String)
  | ⟨.query _ (.data (.selectMatchUpDraws _ _)), .ok draws⟩ => draws
  | _ => []

/-- The record an exchange asks to write, and the id it is written under. -/
def writeOf : Exchange (Await Statement Effect) (Await.Answer Statement.Answer) Thrown →
    Option (String × TournamentRecord)
  | ⟨.query _ (.data (.upsertTournament id record _)), _⟩ => some (id, record)
  | _ => none

/-- The rows of `fetchTournamentRecords`. -/
def fetchedRows (log : Log) : List (String × TournamentRow) := log.flatMap rowsOf

/-- The draws of `fetchMatchUpDraws`. -/
def indexedDraws (log : Log) : List (String × String × Option String) := log.flatMap drawsOf

/-- The records written, in their order. -/
def writtenRecords (log : Log) : RecordMap := log.filterMap writeOf

/-- The state that the engine of a logged call leaves. -/
def leftBy (payload : Json) (methods : List Json) (log : Log) : RecordMap :=
  let loaded := loadedRecords (fetchedRows log)
  match resolveMatchUpReferences engine loaded (withDraws methods (indexedDraws log)) with
  | .error _ => []
  | .ok resolved => stateLeft calls loaded resolved (payload.field? "rollbackOnError")

/-- A record that is written where it belongs: under its own id, which the call
has locked and fetched, and which it has in the state of the engine as well. -/
structure InPlace (lockedIds : List Json) (fetchedIds : List String) (left : RecordMap)
    (id : String) (record : TournamentRecord) : Prop where
  /-- The record carries the id. -/
  named : record.tournamentId = some (.str id)
  /-- The id is one of the payload's, and its lock is held. -/
  locked : .str id ∈ lockedIds
  /-- The id was fetched. -/
  fetched : id ∈ fetchedIds
  /-- The engine holds the record under the id it was fetched with. -/
  own : (id, record) ∈ left

/-- `executionQueue` writes only what it locked: whatever the database holds and
whatever goes wrong, each record that the locked callback writes is in place. -/
def WritesOnlyLocked (x : External) (services : Services) (patched : CalendarRow → Json → Json)
    (payload : Json) : Prop :=
  ∀ tournamentIds work methods,
    admission x services (driving engine calls) payload = .locked tournamentIds work →
    methodList (payload.field? "methods") = some methods →
    ∀ borrowed w, let log := (work.body borrowed).transcript (handle (backend patched)) w
      ∀ write ∈ writtenRecords log, InPlace work.ids ((fetchedRows log).map Prod.fst)
        (leftBy engine calls payload methods log) write.1 write.2

/-! ## The condition -/

/-- The save accepts the record: it has an id, and a provider or a test id. -/
def accepted (record : TournamentRecord) : Bool :=
  match recordKey record with
  | none => false
  | some key =>
    match hasProviderOrTestId key record with
    | .ok true => true
    | _ => false

/-- The records up to the first one that the save refuses. -/
def reached (records : RecordMap) : RecordMap := records.takeWhile fun entry => accepted entry.2

@[simp] theorem reached_cons_of_accepted {entry : String × TournamentRecord} {rest : RecordMap}
    (h : accepted entry.2 = true) : reached (entry :: rest) = entry :: reached rest :=
  List.takeWhile_cons_of_pos h

@[simp] theorem reached_cons_of_refused {entry : String × TournamentRecord} {rest : RecordMap}
    (h : accepted entry.2 = false) : reached (entry :: rest) = [] :=
  List.takeWhile_cons_of_neg (by simp [h])

/-- Whichever rows are stored, an engine run that succeeds on them leaves its
records in place, up to the first that the save refuses. -/
def LeavesInPlace (x : External) (payload tournamentIds : Json) (lockedIds : List Json)
    (methods : List Json) : Prop :=
  ∀ t indexed rows resolved outcome, indexedMethods x t tournamentIds methods = some indexed →
    storedRows x t tournamentIds = some rows → recordsAreValid rows = true →
    resolveMatchUpReferences engine (loadedRecords rows) indexed = .ok resolved →
    (engine.executionQueue (loadedRecords rows) resolved (payload.field? "rollbackOnError")).outcome
      = .ok outcome →
    truthy (outcome.result.field? "success") = true →
    let left := stateLeft calls (loadedRecords rows) resolved (payload.field? "rollbackOnError")
    ∀ entry ∈ reached left, ∃ id, InPlace lockedIds (rows.map Prod.fst) left id entry.2

/-! ## What the reads of a call tell -/

variable {engine : Engine} {calls : EngineCalls} {x : External} {borrowed : Bool}
  {patched : CalendarRow → Json → Json}

/-- A statement is answered as it executes on some tables. -/
theorem answer_of_handle {w : World Tables Effect} {c : Connection} {st : Statement} {a : st.Answer}
    (h : (handle (backend patched) w (.query c (.data st))).1 = .ok a) :
    ∃ t, a = (exec st t).2 := by
  have hexec : ∀ w' : World Tables Effect, ∀ out,
      execOn (backend patched) w' c (.data st) = some out → ∃ t, out.2 = (exec st t).2 := by
    intro w' out hout
    unfold execOn at hout
    cases hs : w'.session c with
    | closed => rw [hs] at hout; cases hout
    | lost => rw [hs] at hout; cases hout
    | idle =>
      rw [hs] at hout
      cases hout
      exact ⟨w'.tables, rfl⟩
    | inTx tx =>
      rw [hs] at hout
      simp only [execInTx] at hout
      split_ifs at hout
      cases hout
      exact ⟨tx.content, rfl⟩
  rw [CommandAtomicity.handle_query] at h
  cases hf : w.faults.headD .none with
  | none =>
    rw [hf] at h
    simp only [handleQuery] at h
    cases hx : execOn (backend patched) w.advance c (.data st) with
    | none => rw [hx] at h; cases h
    | some out =>
      rw [hx] at h
      cases h
      exact hexec _ _ hx
  | refused => rw [hf] at h; cases h
  | lostBefore => rw [hf] at h; cases h
  | lostAfter =>
    rw [hf] at h
    simp only [handleQuery] at h
    cases hx : execOn (backend patched) w.advance c (.data st) with
    | none => rw [hx] at h; cases h
    | some out => rw [hx] at h; cases h

/-- A statement of the storage asks once, and is answered as it executes on some tables. -/
theorem transcript_queryClient (borrowed : Bool) (patched : CalendarRow → Json → Json)
    (st : Statement) (w : World Tables Effect) :
    (queryClient borrowed st).transcript (handle (backend patched)) w =
      [⟨clientQuery borrowed st, ((queryClient borrowed st).run (handle (backend patched)) w).1⟩] ∧
    ∀ a w', (queryClient borrowed st).run (handle (backend patched)) w = (.ok a, w') →
      ∃ t, a = (exec st t).2 := by
  have hrun : (queryClient borrowed st).run (handle (backend patched)) w =
      handle (backend patched) w (clientQuery borrowed st) := Prog.run_perform _ _ _
  refine ⟨?_, fun a w' h => ?_⟩
  · rw [hrun]
    have hone : (queryClient borrowed st).transcript (handle (backend patched)) w =
        ⟨clientQuery borrowed st, (handle (backend patched) w (clientQuery borrowed st)).1⟩ ::
        (Prog.settled (handle (backend patched) w (clientQuery borrowed st)).1 :
          Store st.Answer).transcript (handle (backend patched))
          (handle (backend patched) w (clientQuery borrowed st)).2 := rfl
    rw [hone]
    cases (handle (backend patched) w (clientQuery borrowed st)).1 <;> rfl
  · rw [hrun] at h
    exact answer_of_handle (congrArg Prod.fst h)

@[simp] theorem withDraws_nil (methods : List Json) : withDraws methods [] = methods := by
  unfold withDraws
  refine (List.map_congr_left fun method _ => ?_).trans (List.map_id methods)
  split_ifs <;> rfl

@[simp] theorem fetchedRows_append (log more : Log) :
    fetchedRows (log ++ more) = fetchedRows log ++ fetchedRows more :=
  List.flatMap_append

@[simp] theorem indexedDraws_append (log more : Log) :
    indexedDraws (log ++ more) = indexedDraws log ++ indexedDraws more :=
  List.flatMap_append

@[simp] theorem writtenRecords_append (log more : Log) :
    writtenRecords (log ++ more) = writtenRecords log ++ writtenRecords more :=
  List.filterMap_append

/-- The log of code that only reads draws, and finds `read` of the tables with some index. -/
structure IndexLog {α : Type} (read : Tables → Option α) (value : Log → α) (log : Log)
    (out : Except Thrown α) : Prop where
  rows : fetchedRows log = []
  writes : writtenRecords log = []
  found : ∀ a, out = .ok a → a = value log ∧
    ∃ index, ∀ t : Tables, t.matchUpIndex = index → read t = some a

theorem draws_log (x : External) (borrowed : Bool) (patched : CalendarRow → Json → Json)
    (id : Option Json) (matchUpIds : List Json) (w : World Tables Effect) :
    IndexLog (fun t => storedDraws x t id matchUpIds) indexedDraws
      ((fetchMatchUpDraws x borrowed id matchUpIds).transcript (handle (backend patched)) w)
      ((fetchMatchUpDraws x borrowed id matchUpIds).run (handle (backend patched)) w).1 := by
  unfold fetchMatchUpDraws storedDraws
  cases id with
  | none => exact ⟨rfl, rfl, fun a h => by cases h; exact ⟨rfl, fun _ _ => none, fun _ _ => rfl⟩⟩
  | some id =>
    dsimp only
    by_cases hskip : (!truthy (some id) || matchUpIds.isEmpty) = true
    · simp only [if_pos hskip]
      exact ⟨rfl, rfl, fun a h => by cases h; exact ⟨rfl, fun _ _ => none, fun _ _ => rfl⟩⟩
    · simp only [if_neg hskip]
      cases x.pg.textArray (.arr matchUpIds) with
      | none => exact ⟨rfl, rfl, fun a h => by cases h⟩
      | some texts =>
        have hq := transcript_queryClient borrowed patched
          (.selectMatchUpDraws (x.pg.text id) texts) w
        dsimp only
        rw [hq.1]
        cases hr : (queryClient borrowed (.selectMatchUpDraws (x.pg.text id) texts)).run
          (handle (backend patched)) w with
        | mk out w' =>
          refine ⟨by cases out <;> rfl, by cases out <;> rfl, fun draws h => ?_⟩
          cases h
          obtain ⟨t, ht⟩ := hq.2 draws w' hr
          refine ⟨(List.append_nil _).symm, t.matchUpIndex, fun t' hindex => ?_⟩
          rw [ht]
          simp only [Option.map_some, exec, hindex]

theorem index_log (x : External) (borrowed : Bool) (patched : CalendarRow → Json → Json)
    (ids : Json) (methods : List Json) (w : World Tables Effect) :
    IndexLog (fun t => indexedMethods x t ids methods)
      (fun log => withDraws methods (indexedDraws log))
      ((resolveMatchUpReferencesFromIndex x borrowed ids methods).transcript
        (handle (backend patched)) w)
      ((resolveMatchUpReferencesFromIndex x borrowed ids methods).run
        (handle (backend patched)) w).1 := by
  unfold resolveMatchUpReferencesFromIndex indexedMethods
  dsimp only
  by_cases hskip : (decide ((ids.iterate?.getD []).length ≠ 1) ||
      (methods.filter isUnresolvedScore).isEmpty) = true
  · simp only [if_pos hskip]
    refine ⟨rfl, rfl, fun a h => ?_⟩
    cases h
    exact ⟨(withDraws_nil methods).symm, fun _ _ => none, fun _ _ => rfl⟩
  · simp only [if_neg hskip]
    have hdraws := draws_log x borrowed patched
      (ids.iterate?.getD []).head? ((methods.filter isUnresolvedScore).map scoredMatchUpId) w
    cases hr : (fetchMatchUpDraws x borrowed (ids.iterate?.getD []).head?
      ((methods.filter isUnresolvedScore).map scoredMatchUpId)).run (handle (backend patched)) w with
    | mk out w' =>
      rw [hr] at hdraws
      cases out with
      | error e =>
        rw [Prog.transcript_bind_error hr, Prog.run_bind, hr]
        exact ⟨hdraws.rows, hdraws.writes, fun a h => by cases h⟩
      | ok draws =>
        rw [Prog.transcript_bind_ok hr, Prog.run_bind, hr]
        have hnone : (Prog.ret (withDraws methods draws) : Store (List Json)).transcript
            (handle (backend patched)) w' = [] := rfl
        rw [hnone, List.append_nil]
        refine ⟨hdraws.rows, hdraws.writes, fun a h => ?_⟩
        cases h
        obtain ⟨hfound, index, hindex⟩ := hdraws.found draws rfl
        refine ⟨congrArg _ hfound, index, fun t ht => ?_⟩
        rw [hindex t ht]
        rfl

/-- The log of the fetch: it finds the rows of the tables with some tournaments. -/
structure FetchLog (x : External) (ids : Json) (log : Log)
    (out : Except Thrown (Option (List (String × TournamentRow)))) : Prop where
  draws : indexedDraws log = []
  writes : writtenRecords log = []
  found : ∀ rows, out = .ok (some rows) → fetchedRows log = rows ∧
    ∃ stored, ∀ t : Tables, t.tournaments = stored → storedRows x t ids = some rows

theorem fetch_log (x : External) (borrowed : Bool) (patched : CalendarRow → Json → Json)
    (ids : Json) (w : World Tables Effect) :
    FetchLog x ids
      ((fetchTournamentRecords x borrowed (some ids) none).transcript (handle (backend patched)) w)
      ((fetchTournamentRecords x borrowed (some ids) none).run (handle (backend patched)) w).1 := by
  unfold fetchTournamentRecords
  dsimp only [Option.bind_some, Option.getD_some]
  by_cases hl : truthy ids.length? = true
  · simp only [hl, if_true, Bool.not_true, Bool.false_eq_true, if_false]
    cases htexts : x.pg.textArray ids with
    | none => exact ⟨rfl, rfl, fun a h => by cases h⟩
    | some texts =>
      have hq := transcript_queryClient borrowed patched (.selectTournaments texts) w
      dsimp only
      cases hr : (queryClient borrowed (.selectTournaments texts)).run
        (handle (backend patched)) w with
      | mk out w' =>
        cases out with
        | error e =>
          rw [Prog.transcript_bind_error hr, Prog.run_bind, hr, hq.1, hr]
          exact ⟨rfl, rfl, fun a h => by cases h⟩
        | ok rows =>
          rw [Prog.transcript_bind_ok hr, Prog.run_bind, hr, hq.1, hr]
          refine ⟨rfl, rfl, fun rows' h => ?_⟩
          obtain ⟨t, ht⟩ := hq.2 rows w' hr
          have hsome : (if rows.isEmpty then none else some rows) = some rows' :=
            Except.ok.inj h
          have hrows : rows = rows' := by
            split_ifs at hsome
            exact Option.some.inj hsome
          subst hrows
          refine ⟨List.append_nil rows, t.tournaments, fun t' hstored => ?_⟩
          have hsame : (exec (.selectTournaments texts) t').2 = rows := by
            rw [ht]
            simp only [exec, hstored]
          unfold storedRows
          rw [if_pos hl, htexts]
          simp only [Option.bind_some, hsame]
          exact hsome
  · simp only [hl, Bool.false_eq_true, if_false, Option.toList_none, List.filter_nil]
    refine ⟨rfl, rfl, fun a h => ?_⟩
    cases h

/-! ## What the save reaches -/

theorem uses_saveLoop_accepted {S : Statement → Prop} {F : Effect → Prop} {ownerEpoch : Nat}
    {userId : Option String} {records : RecordMap}
    (h : ∀ entry ∈ reached records, ∀ st, Saves x ownerEpoch userId entry.2 st → S st)
    (bytes : List (String × Nat)) (updated : List (String × String)) :
    (saveLoop x borrowed ownerEpoch userId records bytes updated).Uses (Issues borrowed S F) := by
  induction records generalizing bytes updated with
  | nil => trivial
  | cons entry rest ih =>
    unfold saveLoop
    cases ha : accepted entry.2 with
    | true =>
      rw [reached_cons_of_accepted ha] at h
      have hhead : (saveTournamentRecord x borrowed ownerEpoch userId entry.2).Uses
          (Issues borrowed S F) := uses_saveTournamentRecord (h entry List.mem_cons_self)
      refine Prog.uses_bind hhead fun result => ?_
      cases result with
      | error failure => trivial
      | ok saved => exact ih (fun e he => h e (List.mem_cons_of_mem _ he)) _ _
    | false =>
      unfold saveTournamentRecord
      unfold accepted at ha
      cases hkey : recordKey entry.2 with
      | none => trivial
      | some key =>
        rw [hkey] at ha
        dsimp only at ha ⊢
        cases hallowed : hasProviderOrTestId key entry.2 with
        | error e => trivial
        | ok allowed =>
          rw [hallowed] at ha
          cases allowed with
          | false => trivial
          | true => cases ha

/-- The write of a record that the save of the engine's state reaches. -/
def ReachedWrite (x : External) (engine : Engine) (payload : Json) (methods : List Json)
    (rows : List (String × TournamentRow)) (id : String) (record : TournamentRecord) : Prop :=
  ∃ resolved outcome, recordsAreValid rows = true ∧
    resolveMatchUpReferences engine (loadedRecords rows) methods = .ok resolved ∧
    (engine.executionQueue (loadedRecords rows) resolved (payload.field? "rollbackOnError")).outcome
      = .ok outcome ∧
    truthy (outcome.result.field? "success") = true ∧
    ∃ entry ∈ reached outcome.records, rowId x entry.2 = some id ∧ record = entry.2

/-- The statements that may follow the fetch: of the writes of tournaments only
those the save reaches, and no further fetch. -/
def FollowsFetch (x : External) (engine : Engine) (payload : Json) (methods : List Json)
    (rows : List (String × TournamentRow)) : Statement → Prop
  | .upsertTournament id record _ => ReachedWrite x engine payload methods rows id record
  | .selectTournaments _ => False
  | .selectMatchUpDraws _ _ => False
  | _ => True

theorem uses_mutateRows_reached (x : External) (services : Services) (engine : Engine)
    (borrowed : Bool) (payload ids : Json) (methods : List Json)
    (rows : List (String × TournamentRow)) :
    (mutateRows x services engine borrowed payload ids methods rows).Uses
      (Issues borrowed (FollowsFetch x engine payload methods rows) fun _ => True) := by
  have hproject : ∀ st, Projects st → FollowsFetch x engine payload methods rows st := by
    intro st h
    cases h <;> trivial
  unfold mutateRows
  cases hresolved : resolveMatchUpReferences engine (loadedRecords rows) methods with
  | error e => trivial
  | ok resolved =>
    rw [Prog.settled_ok, Prog.ret_bind]
    cases hvalid : recordsAreValid rows with
    | false => trivial
    | true =>
      simp only [Bool.not_true, Bool.false_eq_true, if_false]
      refine Prog.uses_bind (Prog.uses_forEach fun effect => uses_defer trivial) fun _ => ?_
      cases hout : (engine.executionQueue (loadedRecords rows) resolved
        (payload.field? "rollbackOnError")).outcome with
      | error e => trivial
      | ok outcome =>
        rw [Prog.settled_ok, Prog.ret_bind]
        unfold saveMutated
        split_ifs with hsuccess
        · have hloop : (saveTournamentRecords x borrowed 0 none outcome.records).Uses
              (Issues borrowed (FollowsFetch x engine payload methods rows) fun _ => True) := by
            refine uses_saveLoop_accepted (fun entry hentry st hst => ?_) _ _
            cases hst with
            | upsert hid =>
              exact ⟨resolved, outcome, hvalid, hresolved, hout, hsuccess, entry, hentry, hid, rfl⟩
            | _ => trivial
          refine Prog.uses_bind hloop fun saved => ?_
          cases saved with
          | error failure => trivial
          | ok summary =>
            refine Prog.uses_bind (uses_defer trivial) fun _ => ?_
            refine Prog.uses_bind
              (uses_flushProjection hproject services outcome resolved ids) fun _ => ?_
            exact Prog.uses_bind (uses_defer trivial) fun _ => trivial
        · exact Prog.uses_bind (uses_defer trivial) fun _ => trivial

/-- What the log of the rest of the call contains. -/
structure FollowsLog (x : External) (engine : Engine) (payload : Json) (methods : List Json)
    (rows : List (String × TournamentRow)) (log : Log) : Prop where
  noRows : fetchedRows log = []
  noDraws : indexedDraws log = []
  writes : ∀ write ∈ writtenRecords log,
    ReachedWrite x engine payload methods rows write.1 write.2

theorem follows_log {α : Type} (patched : CalendarRow → Json → Json) {payload : Json} {methods : List Json}
    {rows : List (String × TournamentRow)} {p : Store α}
    (hp : p.Uses (Issues borrowed (FollowsFetch x engine payload methods rows) fun _ => True))
    (w : World Tables Effect) :
    FollowsLog x engine payload methods rows (p.transcript (handle (backend patched)) w) := by
  have hall : ∀ e ∈ p.transcript (handle (backend patched)) w,
      Issues borrowed (FollowsFetch x engine payload methods rows) (fun _ => True) e.1 :=
    fun e he => Prog.allowed_of_mem_transcript hp he
  refine ⟨List.flatMap_eq_nil_iff.mpr fun e he => ?_, List.flatMap_eq_nil_iff.mpr fun e he => ?_,
    fun write hwrite => ?_⟩
  · have hallowed := hall e he
    obtain ⟨op, answer⟩ := e
    cases op with
    | query c sql =>
      cases sql with
      | data st =>
        cases st with
        | selectTournaments ids => exact hallowed.1.elim
        | _ => cases answer <;> rfl
      | _ => rfl
    | _ => rfl
  · have hallowed := hall e he
    obtain ⟨op, answer⟩ := e
    cases op with
    | query c sql =>
      cases sql with
      | data st =>
        cases st with
        | selectMatchUpDraws id ids => exact hallowed.1.elim
        | _ => cases answer <;> rfl
      | _ => rfl
    | _ => rfl
  · obtain ⟨e, he, hsome⟩ := List.mem_filterMap.mp hwrite
    have hallowed := hall e he
    obtain ⟨op, answer⟩ := e
    cases op with
    | query c sql =>
      cases sql with
      | data st =>
        cases st with
        | upsertTournament id record epoch =>
          cases hsome
          exact hallowed.1
        | _ => cases answer <;> cases hsome
      | _ => cases hsome
    | _ => cases hsome

/-- The log of a mutation whose lookup and fetch have answered: it tells the rows and the
methods, and its writes are those of the rest. -/
theorem mutate_log (services : Services) (engine : Engine) (payload : Json) {ids : Json}
    {methods indexed : List Json} {rows : List (String × TournamentRow)} {w w₁ w₂ : World Tables Effect}
    (hindex : (resolveMatchUpReferencesFromIndex x borrowed ids methods).run
      (handle (backend patched)) w = (.ok indexed, w₁))
    (hfetch : (fetchTournamentRecords x borrowed (some ids) none).run (handle (backend patched)) w₁ =
      (.ok (some rows), w₂)) :
    let log := (mutate x services engine borrowed payload ids methods).transcript
      (handle (backend patched)) w
    fetchedRows log = rows ∧ withDraws methods (indexedDraws log) = indexed ∧
      writtenRecords log = writtenRecords ((mutateRows x services engine borrowed payload ids indexed
        rows).transcript (handle (backend patched)) w₂) := by
  have hfirst := index_log x borrowed patched ids methods w
  have hsecond := fetch_log x borrowed patched ids w₁
  have hrest := follows_log patched
    (uses_mutateRows_reached x services engine borrowed payload ids indexed rows) w₂
  rw [hindex] at hfirst
  rw [hfetch] at hsecond
  unfold mutate
  rw [Prog.transcript_bind_ok hindex, Prog.transcript_bind_ok hfetch]
  simp only [fetchedRows_append, indexedDraws_append, writtenRecords_append, hfirst.rows,
    hfirst.writes, hsecond.draws, hsecond.writes, hrest.noRows, hrest.noDraws, List.nil_append,
    List.append_nil]
  exact ⟨(hsecond.found rows rfl).1, (hfirst.found indexed rfl).1.symm, trivial⟩

/-- A mutation writes only once its lookup and its fetch have answered. -/
theorem answered_of_written (services : Services) {payload ids : Json} {methods : List Json}
    {w : World Tables Effect} {write : String × TournamentRecord}
    (hwrite : write ∈ writtenRecords ((mutate x services engine borrowed payload ids
      methods).transcript (handle (backend patched)) w)) :
    ∃ indexed rows w₁ w₂, (resolveMatchUpReferencesFromIndex x borrowed ids methods).run
        (handle (backend patched)) w = (.ok indexed, w₁) ∧
      (fetchTournamentRecords x borrowed (some ids) none).run (handle (backend patched)) w₁ =
        (.ok (some rows), w₂) := by
  have hindex := index_log x borrowed patched ids methods w
  unfold mutate at hwrite
  cases hr : (resolveMatchUpReferencesFromIndex x borrowed ids methods).run
    (handle (backend patched)) w with
  | mk out w₁ =>
    cases out with
    | error e =>
      rw [Prog.transcript_bind_error hr, hindex.writes] at hwrite
      cases hwrite
    | ok indexed =>
      have hfetch := fetch_log x borrowed patched ids w₁
      rw [Prog.transcript_bind_ok hr, writtenRecords_append, hindex.writes,
        List.nil_append] at hwrite
      cases hr' : (fetchTournamentRecords x borrowed (some ids) none).run
        (handle (backend patched)) w₁ with
      | mk out w₂ =>
        cases out with
        | error e =>
          rw [Prog.transcript_bind_error hr', hfetch.writes] at hwrite
          cases hwrite
        | ok fetched =>
          cases fetched with
          | none =>
            rw [Prog.transcript_bind_ok hr', writtenRecords_append, hfetch.writes,
              List.nil_append] at hwrite
            cases hwrite
          | some rows => exact ⟨indexed, rows, w₁, w₂, rfl, hr'⟩

/-- A mutation writes what the save of the fetched records reaches. -/
theorem reached_of_written (services : Services) {payload ids : Json} {methods : List Json}
    {w : World Tables Effect} {write : String × TournamentRecord}
    (hwrite : write ∈ writtenRecords ((mutate x services engine borrowed payload ids
      methods).transcript (handle (backend patched)) w)) :
    let log := (mutate x services engine borrowed payload ids methods).transcript
      (handle (backend patched)) w
    (∃ t, indexedMethods x t ids methods = some (withDraws methods (indexedDraws log)) ∧
      storedRows x t ids = some (fetchedRows log)) ∧
    ReachedWrite x engine payload (withDraws methods (indexedDraws log)) (fetchedRows log) write.1
      write.2 := by
  obtain ⟨indexed, rows, w₁, w₂, hindex, hfetch⟩ := answered_of_written services hwrite
  obtain ⟨hrows, hmethods, hwrites⟩ := mutate_log services engine payload hindex hfetch
  have hfirst := index_log x borrowed patched ids methods w
  have hsecond := fetch_log x borrowed patched ids w₁
  rw [hindex] at hfirst
  rw [hfetch] at hsecond
  obtain ⟨-, index, hfoundIndex⟩ := hfirst.found indexed rfl
  obtain ⟨-, stored, hfoundRows⟩ := hsecond.found rows rfl
  dsimp only
  rw [hwrites] at hwrite
  rw [hrows, hmethods]
  let t : Tables := ⟨stored, fun _ => none, fun _ => [], fun _ => none, [], fun _ _ => none,
    fun _ _ => none, fun _ => none, index, 0⟩
  have hrest := follows_log patched
    (uses_mutateRows_reached x services engine borrowed payload ids indexed rows) w₂
  exact ⟨⟨t, hfoundIndex t rfl, hfoundRows t rfl⟩, hrest.writes write hwrite⟩

/-! ## What the save writes when nothing goes wrong -/

/-- Pooled connections on which nothing fails. -/
abbrev calm (x : External) (patched : CalendarRow → Json → Json) : Regime x patched false :=
  pooledRegime x patched False False

/-- The frame that says nothing. -/
def noFrame (x : External) : Frame x 0 none where
  rest _ _ := True
  stamps _ := True
  now _ := trivial
  more _ := trivial
  keeps _ _ _ := trivial

theorem savable_of_accepted {rows : String → Option TournamentRow} {record : TournamentRecord}
    (hrows : ∀ id row, rows id = some row → row.ownerEpoch = 0) (h : accepted record = true) :
    Savable x 0 none (fun _ => none) rows record := by
  refine ⟨?_, ?_, fun id row _ hrow => Nat.le_of_eq (hrows id row hrow)⟩
  · unfold accepted at h
    cases hkey : recordKey record with
    | none => rw [hkey] at h; cases h
    | some key =>
      rw [hkey] at h
      dsimp only at h
      refine ⟨key, rfl, ?_⟩
      cases hallowed : hasProviderOrTestId key record with
      | error e => rw [hallowed] at h; cases h
      | ok allowed =>
        rw [hallowed] at h
        cases allowed with
        | false => cases h
        | true => rfl
  · rintro ⟨providerId, e, -, -, hsome, -⟩
    cases hsome

/-- A world in which nothing fails, over these rows and without providers. -/
def Calm (x : External) (patched : CalendarRow → Json → Json)
    (rows : String → Option TournamentRow) (w : World Tables Effect) : Prop :=
  (∀ id row, rows id = some row → row.ownerEpoch = 0) ∧
    ∃ touched, (calm x patched).holds ((noFrame x).At (fun _ => none) rows touched) w

/-- The upsert of a record is the first thing its storage asks. -/
theorem written_upsert {record : TournamentRecord} {key : Json} (hkey : recordKey record = some key)
    (w : World Tables Effect) :
    (x.pg.text key, record) ∈ writtenRecords
      ((PostgresTournamentStorage.saveTournamentRecord x borrowed record 0).transcript
        (handle (backend patched)) w) := by
  unfold PostgresTournamentStorage.saveTournamentRecord
  rw [hkey]
  dsimp only
  rw [Prog.transcript_bind, (transcript_queryClient borrowed patched _ w).1]
  exact List.mem_cons_self

theorem mem_written_bind {α β : Type} {p : Store α} {f : α → Store β} {w w' : World Tables Effect}
    {a : α} {write : String × TournamentRecord}
    (hr : p.run (handle (backend patched)) w = (.ok a, w'))
    (h : write ∈ writtenRecords ((f a).transcript (handle (backend patched)) w')) :
    write ∈ writtenRecords ((p.bind f).transcript (handle (backend patched)) w) := by
  rw [Prog.transcript_bind_ok hr, writtenRecords_append]
  exact List.mem_append_right _ h

/-- The writes of a record reach its upsert when nothing fails. -/
theorem written_writeRecord {rows : String → Option TournamentRow} {record : TournamentRecord}
    {key : Json} {w : World Tables Effect} {touched : RecordMap}
    (hkey : recordKey record = some key)
    (hw : (calm x patched).holds
      ((noFrame x).At (fun _ => none) rows (touched ++ [("", record)])) w) :
    (x.pg.text key, record) ∈ writtenRecords
      ((writeRecord x false 0 none record).transcript (handle (backend patched)) w) := by
  have hthrows : ¬ CalendarThrows x (fun _ => none) none record := by
    rintro ⟨providerId, e, -, -, hsome, -⟩
    cases hsome
  obtain ⟨_, w₁, hcalendar, hw₁⟩ := Prog.Ensures.returns
    ((calm x patched).ensures_calendar "" record) hw fun e w' h =>
      h.1.tables.1.elim id hthrows
  obtain ⟨_, w₂, hparticipation, -⟩ := Prog.Ensures.returns
    ((calm x patched).soft_participation "" record True hkey)
    ((calm x patched).mono (fun t ht => ⟨trivial, ht.2⟩) hw₁) fun e w' h => nomatch h.1
  exact mem_written_bind hcalendar (mem_written_bind hparticipation (written_upsert hkey w₂))

/-- An accepted record is written, and the save goes on. -/
theorem written_of_accepted {rows : String → Option TournamentRow} {record : TournamentRecord}
    {w : World Tables Effect} (hw : Calm x patched rows w) (h : accepted record = true) :
    ∃ id result w' rows', rowId x record = some id ∧
      (saveTournamentRecord x false 0 none record).run (handle (backend patched)) w =
        (.ok (.ok result), w') ∧ Calm x patched rows' w' ∧
      (id, record) ∈ writtenRecords
        ((saveTournamentRecord x false 0 none record).transcript (handle (backend patched)) w) := by
  obtain ⟨hrows, touched, hw⟩ := hw
  have hsavable := savable_of_accepted (x := x) hrows h
  have hsaved := (calm x patched).ensures_saveTournamentRecord "" record w hw
  have hwritten : ∀ key, recordKey record = some key → (x.pg.text key, record) ∈ writtenRecords
      ((saveTournamentRecord x false 0 none record).transcript (handle (backend patched)) w) := by
    intro key hkey
    obtain ⟨key', hkey', hallowed⟩ := hsavable.allowed
    obtain rfl : key' = key := Option.some.inj (hkey'.symm.trans hkey)
    unfold saveTournamentRecord
    rw [hkey]
    dsimp only
    rw [hallowed]
    exact written_writeRecord hkey ((calm x patched).mono (fun t ht => ht.more) hw)
  cases hr : (saveTournamentRecord x false 0 none record).run (handle (backend patched)) w with
  | mk out w' =>
    rw [hr] at hsaved
    cases out with
    | error e =>
      rcases hsaved.1.tables with ⟨hn, -⟩ | ⟨hn, -⟩
      · exact (hn.elim id fun hn => hn hsavable).elim
      · exact hn.elim
    | ok result =>
      cases result with
      | error failure => exact (hsaved.1.tables.1 hsavable).elim
      | ok saved =>
        obtain ⟨id, updatedAt, hid, hafter⟩ := hsaved
        obtain ⟨key, hkey, -⟩ := hsavable.allowed
        obtain rfl : x.pg.text key = id := Option.some.inj ((rowId_of_recordKey hkey).symm.trans hid)
        have hcalm : Calm x patched (saveRow 0 none rows record (x.pg.text key) updatedAt) w' := by
          refine ⟨fun id' row hrow => ?_, _, (calm x patched).mono (fun t ht => ht.2) hafter⟩
          unfold saveRow at hrow
          by_cases he : id' = x.pg.text key
          · rw [he, Function.update_self] at hrow
            exact congrArg TournamentRow.ownerEpoch (Option.some.inj hrow).symm
          · rw [Function.update_of_ne he] at hrow
            exact hrows id' row hrow
        exact ⟨_, saved, w', _, hid, rfl, hcalm, hwritten key hkey⟩

/-- Every record that is reached is written. -/
theorem written_saveLoop {rows : String → Option TournamentRow} {records : RecordMap}
    {w : World Tables Effect} (hw : Calm x patched rows w) (bytes : List (String × Nat))
    (updated : List (String × String)) {entry : String × TournamentRecord}
    (hentry : entry ∈ reached records) :
    ∃ id, rowId x entry.2 = some id ∧ (id, entry.2) ∈ writtenRecords
      ((saveLoop x false 0 none records bytes updated).transcript (handle (backend patched)) w) := by
  induction records generalizing rows w bytes updated with
  | nil => cases hentry
  | cons head rest ih =>
    cases ha : accepted head.2 with
    | false =>
      rw [reached_cons_of_refused ha] at hentry
      cases hentry
    | true =>
      obtain ⟨id, result, w', rows', hid, hr, hcalm, hwritten⟩ := written_of_accepted hw ha
      have hloop : ∀ bytes' updated' write, write ∈ writtenRecords ((saveLoop x false 0 none rest
          bytes' updated').transcript (handle (backend patched)) w') →
          bytes' = bytes ++ [(head.1, result.1)] → updated' = updated ++ [(head.1, result.2)] →
          write ∈ writtenRecords ((saveLoop x false 0 none (head :: rest) bytes
            updated).transcript (handle (backend patched)) w) := by
        rintro _ _ write hwrite rfl rfl
        exact mem_written_bind hr hwrite
      rw [reached_cons_of_accepted ha] at hentry
      rcases List.mem_cons.mp hentry with rfl | hentry
      · refine ⟨id, hid, ?_⟩
        unfold saveLoop
        rw [Prog.transcript_bind_ok hr, writtenRecords_append]
        exact List.mem_append_left _ hwritten
      · obtain ⟨id', hid', hwrite⟩ := ih hcalm _ _ hentry
        exact ⟨id', hid', hloop _ _ _ hwrite rfl rfl⟩

/-- When nothing fails, what a read yields is returned. -/
theorem returns_of_yields {α : Type} {p : Store α} {a : α} {t : Tables} {w : World Tables Effect}
    (h : Yields (calm x patched) t p (some a)) (hw : (calm x patched).holds (· = t) w) :
    ∃ w', p.run (handle (backend patched)) w = (.ok a, w') ∧
      (calm x patched).holds (· = t) w' := by
  obtain ⟨b, w', hrun, hw'⟩ := Prog.Ensures.returns (h (· = t) fun _ h => h) hw fun e w' h =>
    h.1.tables.1.elim id fun h => nomatch h
  have hb : a = b := Option.some.inj hw'.1.tables.1
  exact ⟨w', hb ▸ hrun, (calm x patched).mono (fun _ h => h.2) hw'⟩

/-- When nothing fails, a mutation writes every record that its save reaches. -/
theorem written_of_reached (patched : CalendarRow → Json → Json) (services : Services) {t : Tables}
    {payload ids : Json} {methods indexed resolved : List Json} {rows : List (String × TournamentRow)}
    {outcome : EngineOutcome} (hproviders : t.providers = fun _ => none)
    (hepochs : ∀ id row, t.tournaments id = some row → row.ownerEpoch = 0)
    (hindexed : indexedMethods x t ids methods = some indexed)
    (hstored : storedRows x t ids = some rows) (hvalid : recordsAreValid rows = true)
    (hresolved : resolveMatchUpReferences engine (loadedRecords rows) indexed = .ok resolved)
    (hout : (engine.executionQueue (loadedRecords rows) resolved
      (payload.field? "rollbackOnError")).outcome = .ok outcome)
    (hsuccess : truthy (outcome.result.field? "success") = true)
    {entry : String × TournamentRecord} (hentry : entry ∈ reached outcome.records) :
    let log := (mutate x services engine false payload ids methods).transcript
      (handle (backend patched)) (World.start t [])
    fetchedRows log = rows ∧ withDraws methods (indexedDraws log) = indexed ∧
      ∃ id, rowId x entry.2 = some id ∧ (id, entry.2) ∈ writtenRecords log := by
  let At : Tables → Prop := (noFrame x).At (fun _ => none) t.tournaments []
  have hstart : (calm x patched).holds (· = t) (World.start t []) := by
    refine ⟨⟨rfl, rfl, fun h => ?_, rfl⟩, fun fault h => ?_⟩
    · cases h
    · cases h
  have hfetches : (if truthy ids.length? && (x.pg.textArray ids).isNone then none
      else some (storedRows x t ids)) = some (some rows) := by
    rw [hstored, if_neg]
    intro hnone
    obtain ⟨hl, hn⟩ := Bool.and_eq_true_iff.mp hnone
    unfold storedRows at hstored
    rw [if_pos hl, Option.isNone_iff_eq_none.mp hn] at hstored
    cases hstored
  obtain ⟨w₁, hindex, hw₁⟩ := returns_of_yields
    ((yields_resolveMatchUpReferencesFromIndex ids methods).congr hindexed) hstart
  obtain ⟨w₂, hfetch, hw₂⟩ := returns_of_yields
    ((yields_fetchTournamentRecords ids).congr hfetches) hw₁
  obtain ⟨hrows, hmethods, hwrites⟩ := mutate_log services engine payload hindex hfetch
  have hat : (calm x patched).holds At w₂ :=
    (calm x patched).mono (fun t' ht => by
      obtain rfl : t' = t := ht
      exact ⟨rfl, hproviders, trivial⟩) hw₂
  have hdeferred : Soft patched ((calm x patched).holds At)
      (Prog.forEach (engine.executionQueue (loadedRecords rows) resolved
        (payload.field? "rollbackOnError")).deferred (defer false)) :=
    Soft.forEach fun effect _ => (calm x patched).soft_defer effect fun t' ht =>
      ⟨(effect_tournaments patched effect t').trans ht.tournaments,
        (effect_providers effect t').trans ht.providers, trivial⟩
  obtain ⟨_, w₃, heffects, hw₃⟩ := Prog.Ensures.returns hdeferred hat fun e w' h => nomatch h.1
  have hcalm : Calm x patched t.tournaments w₃ := ⟨hepochs, [], hw₃.2⟩
  obtain ⟨id, hid, hwrite⟩ := written_saveLoop hcalm [] [] hentry
  refine ⟨hrows, hmethods, id, hid, ?_⟩
  rw [hwrites]
  unfold mutateRows
  rw [hresolved, Prog.settled_ok, Prog.ret_bind, hvalid]
  simp only [Bool.not_true, Bool.false_eq_true, if_false]
  refine mem_written_bind heffects ?_
  rw [hout, Prog.settled_ok, Prog.ret_bind]
  unfold saveMutated
  rw [if_pos hsuccess, Prog.transcript_bind, writtenRecords_append]
  exact List.mem_append_left _ hwrite

/-! ## When the queue writes only what it locked -/

/-- A row that no owner has fenced. -/
def unfenced (row : TournamentRow) : TournamentRow := { row with ownerEpoch := 0 }

/-- The same records, without providers and fences. -/
def unguarded (t : Tables) : Tables :=
  { t with
    tournaments := fun id => (t.tournaments id).map unfenced
    providers := fun _ => none }

theorem storedRows_unguarded {t : Tables} {ids : Json} {rows : List (String × TournamentRow)}
    (h : storedRows x t ids = some rows) :
    storedRows x (unguarded t) ids = some (rows.map fun entry => (entry.1, unfenced entry.2)) := by
  have hexec : ∀ texts, (exec (.selectTournaments texts) (unguarded t)).2 =
      ((exec (.selectTournaments texts) t).2).map fun entry => (entry.1, unfenced entry.2) := by
    intro texts
    simp only [exec, unguarded, List.map_filterMap, Option.map_map]
    rfl
  unfold storedRows at h ⊢
  split_ifs at h ⊢ with hl
  cases htexts : x.pg.textArray ids with
  | none => rw [htexts] at h; cases h
  | some texts =>
    rw [htexts] at h
    simp only [Option.bind_some, hexec] at h ⊢
    cases hrows : (exec (.selectTournaments texts) t).2 with
    | nil => rw [hrows] at h; cases h
    | cons row rest =>
      rw [hrows] at h
      cases h
      rfl

theorem loadedRecords_unfenced (rows : List (String × TournamentRow)) :
    loadedRecords (rows.map fun entry => (entry.1, unfenced entry.2)) = loadedRecords rows := by
  unfold loadedRecords
  rw [List.map_map]
  rfl

theorem recordsAreValid_unfenced (rows : List (String × TournamentRow)) :
    recordsAreValid (rows.map fun entry => (entry.1, unfenced entry.2)) = recordsAreValid rows := by
  unfold recordsAreValid
  rw [List.all_map]
  rfl

/-- The admitted work is the mutation of the payload's tournaments. -/
theorem work_of_admission {services : Services} {payload tournamentIds : Json} {work : Locked}
    {methods : List Json} (h : admission x services engine payload = .locked tournamentIds work)
    (hmethods : methodList (payload.field? "methods") = some methods) (b : Bool) :
    work.body b = mutate x services engine b payload tournamentIds methods := by
  unfold admission at h
  dsimp only at h
  split_ifs at h
  rw [hmethods] at h
  dsimp only at h
  split_ifs at h
  cases hi : (queueTournamentIds payload).iterate? with
  | none => rw [hi] at h; cases h
  | some ids =>
    rw [hi] at h
    cases h
    rfl

theorem leftBy_eq (calls : EngineCalls) (payload : Json) (methods : List Json)
    {resolved : List Json} {log : Log} {loaded : RecordMap}
    (hloaded : loadedRecords (fetchedRows log) = loaded)
    (hresolved : resolveMatchUpReferences engine loaded (withDraws methods (indexedDraws log)) =
      .ok resolved) :
    leftBy engine calls payload methods log =
      stateLeft calls loaded resolved (payload.field? "rollbackOnError") := by
  subst hloaded
  unfold leftBy
  dsimp only
  rw [hresolved]

/-- The driven engine reports what the engine reports, with the state it leaves. -/
theorem outcome_of_driving {loaded : RecordMap} {methods : List Json} {rollback : Option Json}
    {outcome : EngineOutcome}
    (h : ((driving engine calls).executionQueue loaded methods rollback).outcome = .ok outcome) :
    ∃ reported, (engine.executionQueue loaded methods rollback).outcome = .ok reported ∧
      outcome = { reported with records := stateLeft calls loaded methods rollback } := by
  simp only [driving] at h
  cases hreported : (engine.executionQueue loaded methods rollback).outcome with
  | error e => rw [hreported] at h; cases h
  | ok reported =>
    rw [hreported] at h
    exact ⟨reported, rfl, (Except.ok.inj h).symm⟩

/-- A record is written under the text of its id. -/
theorem rowId_of_named {record : TournamentRecord} {id named : String}
    (h : record.tournamentId = some (.str named)) (hid : rowId x record = some id) :
    id = named := by
  unfold rowId recordKey at hid
  rw [h] at hid
  split_ifs at hid
  · exact (Option.some.inj hid).symm.trans (x.pg.text_str named)
  · cases hid

/-- A state whose records carry the ids of their keys, all of them fetched. -/
def Owned (fetchedIds : List String) (records : RecordMap) : Prop :=
  ∀ entry ∈ records, entry.1 ∈ fetchedIds ∧ entry.2.tournamentId = some (.str entry.1)

/-- A call that puts no record into the state but under its own fetched id. -/
def ProviderCall.Owned (fetchedIds : List String) : ProviderCall → Prop
  | .setTournamentRecord record =>
    ∃ id ∈ fetchedIds, record.tournamentId = some (.str id)
  | .setTournamentRecords records => LockedWrites.Owned fetchedIds records
  | .removeTournamentRecord _ => True
  | .change key record => record.tournamentId = some (.str key)

theorem owned_apply {fetchedIds : List String} {records : RecordMap} {call : ProviderCall}
    (hcall : call.Owned fetchedIds) (h : Owned fetchedIds records) :
    Owned fetchedIds (call.apply records) := by
  intro entry hentry
  cases call with
  | setTournamentRecord record =>
    obtain ⟨id, hid, hrecord⟩ := hcall
    have hkey : stateKey record = id := by rw [stateKey, hrecord]; rfl
    rcases mem_setEntry.mp hentry with rfl | ⟨hmem, -⟩
    · rw [hkey]
      exact ⟨hid, hrecord⟩
    · exact h entry hmem
  | setTournamentRecords replacement => exact hcall entry hentry
  | removeTournamentRecord id =>
    cases id with
    | str id => exact h entry (List.mem_of_mem_filter hentry)
    | _ => exact h entry hentry
  | change key record =>
    obtain ⟨held, hheld, rfl⟩ := List.mem_map.mp hentry
    by_cases he : held.1 = key
    · rw [if_pos he]
      exact ⟨he ▸ (h held hheld).1, hcall⟩
    · rw [if_neg he]
      exact h held hheld

/-- Calls that put each record under its own fetched id leave every record in place. -/
theorem owned_foldl {fetchedIds : List String} {made : List ProviderCall} {records : RecordMap}
    (hcalls : ∀ call ∈ made, call.Owned fetchedIds) (h : Owned fetchedIds records) :
    Owned fetchedIds (made.foldl ProviderCall.apply records) := by
  induction made generalizing records with
  | nil => exact h
  | cons call rest ih =>
    exact ih (fun c hc => hcalls c (List.mem_cons_of_mem _ hc))
      (owned_apply (hcalls call List.mem_cons_self) h)

/-- An engine that keeps every record under its own fetched id leaves the records
in place, when the fetched ids are locked. -/
theorem leavesInPlace_of_owned {payload tournamentIds : Json} {lockedIds methods : List Json}
    (hlocked : ∀ t rows, storedRows x t tournamentIds = some rows →
      ∀ row ∈ rows, .str row.1 ∈ lockedIds)
    (hcalls : ∀ loaded methods rollback, ∀ call ∈ calls loaded methods rollback,
      call.Owned (loaded.map Prod.fst)) :
    LeavesInPlace engine calls x payload tournamentIds lockedIds methods := by
  intro t indexed rows resolved outcome _ hstored hvalid _ _ _
  dsimp only
  intro entry hentry
  have hids : (loadedRecords rows).map Prod.fst = rows.map Prod.fst := by
    unfold loadedRecords
    rw [List.map_map]
    rfl
  have hloaded : Owned (rows.map Prod.fst) (loadedRecords rows) := by
    intro loaded hmem
    obtain ⟨row, hrow, rfl⟩ := List.mem_map.mp hmem
    refine ⟨List.mem_map_of_mem hrow, ?_⟩
    have hrecord := List.all_eq_true.mp hvalid row hrow
    dsimp only at hrecord ⊢
    cases hid : row.2.record.tournamentId with
    | none => rw [hid] at hrecord; cases hrecord
    | some value =>
      rw [hid] at hrecord
      cases value with
      | str id => rw [beq_iff_eq.mp hrecord]
      | _ => cases hrecord
  have howned := owned_foldl (fun call hcall => hids ▸ hcalls (loadedRecords rows) resolved
    (payload.field? "rollbackOnError") call hcall) hloaded
  have hmem := (List.takeWhile_sublist _).subset hentry
  obtain ⟨hfetched, hnamed⟩ := howned entry hmem
  obtain ⟨row, hrow, hid⟩ := List.mem_map.mp hfetched
  exact ⟨entry.1, hnamed, hid ▸ hlocked t rows hstored row hrow, hfetched, hmem⟩

/-- `executionQueue` writes only what it locked exactly when, for every payload it
locks for, its engine leaves the records in place up to the first that the save
refuses. -/
theorem writesOnlyLocked_iff (engine : Engine) (calls : EngineCalls) (x : External)
    (services : Services) (patched : CalendarRow → Json → Json) (payload : Json) :
    WritesOnlyLocked engine calls x services patched payload ↔
      ∀ tournamentIds work methods,
        admission x services (driving engine calls) payload = .locked tournamentIds work →
        methodList (payload.field? "methods") = some methods →
        LeavesInPlace engine calls x payload tournamentIds work.ids methods := by
  constructor
  · intro h tournamentIds work methods hadmitted hmethods t indexed rows resolved outcome hindexed
      hstored hvalid hresolved hout hsuccess
    dsimp only
    intro entry hentry
    have hbody := work_of_admission hadmitted hmethods false
    let left := stateLeft calls (loadedRecords rows) resolved (payload.field? "rollbackOnError")
    have hloaded := loadedRecords_unfenced rows
    have hepochs : ∀ id row, (unguarded t).tournaments id = some row → row.ownerEpoch = 0 := by
      intro id row hrow
      obtain ⟨row', -, rfl⟩ := Option.map_eq_some_iff.mp hrow
      rfl
    have hresolved' : resolveMatchUpReferences (driving engine calls)
        (loadedRecords (rows.map fun entry => (entry.1, unfenced entry.2))) indexed =
        .ok resolved := hloaded.symm ▸ hresolved
    have hout' : ((driving engine calls).executionQueue
        (loadedRecords (rows.map fun entry => (entry.1, unfenced entry.2))) resolved
        (payload.field? "rollbackOnError")).outcome = .ok { outcome with records := left } := by
      rw [hloaded]
      simp only [driving, hout]
      rfl
    obtain ⟨hrows, hindexed', id, hid, hwrite⟩ := written_of_reached patched services rfl hepochs
      hindexed (storedRows_unguarded hstored) (by rwa [recordsAreValid_unfenced]) hresolved' hout'
      hsuccess hentry
    have hplace := h tournamentIds work methods hadmitted hmethods false (World.start (unguarded t) [])
    dsimp only at hplace
    rw [hbody] at hplace
    have hin := hplace _ hwrite
    have hleft := leftBy_eq calls payload methods (hrows ▸ hloaded) (hindexed'.symm ▸ hresolved)
    rw [hleft, hrows] at hin
    refine ⟨id, hin.named, hin.locked, ?_, hin.own⟩
    simpa [Function.comp_def] using hin.fetched
  · intro h tournamentIds work methods hadmitted hmethods borrowed w
    dsimp only
    rw [work_of_admission hadmitted hmethods borrowed]
    intro write hwrite
    obtain ⟨⟨t, hindexed, hstored⟩, resolved, outcome, hvalid, hresolved, hout, hsuccess, entry,
      hentry, hid, hrecord⟩ := reached_of_written services hwrite
    obtain ⟨reported, hreported, rfl⟩ := outcome_of_driving hout
    obtain ⟨id, hplace⟩ := h tournamentIds work methods hadmitted hmethods t _ _ resolved reported
      hindexed hstored hvalid hresolved hreported hsuccess entry hentry
    have hresolved' : resolveMatchUpReferences engine _ _ = .ok resolved := hresolved
    rw [leftBy_eq calls payload methods rfl hresolved', rowId_of_named hplace.named hid, hrecord]
    exact hplace

/-- An engine that reports a success and nothing else. -/
def succeeding : Engine where
  executionQueue loaded _ _ :=
    ⟨[], .ok ⟨.obj [("success", .bool true)], loaded, [], .ok []⟩, notices_nil⟩
  findMatchUp _ _ := .ok none
  isTestDataMethod _ := false

/-- A queue for the tournament `test`. -/
def testPayload : Json := .obj [("tournamentIds", strings ["test"])]

/-- An engine that sets each loaded record anew. -/
theorem leavesInPlace_of_owned_test :
    LeavesInPlace succeeding
      (fun loaded _ _ => loaded.map fun e => .setTournamentRecord (DurableSave.plainRecord e.1 none))
      DurableSave.plainExternal testPayload (strings ["test"]) [.str "test"] [] := by
  refine leavesInPlace_of_owned (fun t rows h row hrow => ?_) fun loaded _ _ call hcall => ?_
  · unfold storedRows at h
    split_ifs at h
    obtain rfl := Option.some.inj (Option.ite_none_left_eq_some.mp h).2
    obtain ⟨id, hid, hfound⟩ := List.mem_filterMap.mp hrow
    obtain ⟨_, -, rfl⟩ := Option.map_eq_some_iff.mp hfound
    have hin : id ∈ ["test"] := hid
    exact List.mem_map_of_mem hin
  · obtain ⟨entry, hentry, rfl⟩ := List.mem_map.mp hcall
    exact ⟨entry.1, List.mem_map_of_mem hentry, rfl⟩
/-- The database holds `test`. -/
def testTables : Tables :=
  { DurableSave.emptyTables with
    tournaments := fun id =>
      if id = "test" then some ⟨DurableSave.plainRecord "test" none, 0, 0⟩ else none }

/-- The engine adds a record to its state, and the queue writes it: nobody has
locked or fetched `test-2`. -/
theorem added_record_written :
    ¬ WritesOnlyLocked succeeding
      (fun _ _ _ => [.setTournamentRecord (DurableSave.plainRecord "test-2" none)])
      DurableSave.plainExternal DurableSave.plainServices (fun row _ => row.entry) testPayload := by
  intro h
  have hplace := h _ _ [] rfl rfl false (World.start testTables [])
    ("test-2", DurableSave.plainRecord "test-2" none) (List.mem_of_getElem? (i := 1) rfl)
  have hlocked := hplace.locked
  simp at hlocked

end FactoryServer.LockedWrites
