import FactoryServer.LockDiscipline
import FactoryServer.VersionChains
import Mathlib.Data.List.Dedup
import Mathlib.Data.List.Induction

/-!
# The chain of server times

The acknowledgment of a mutation reports, for each of its tournaments, when the row
was written and when it had been written before. The earlier time is read with the
records, under the lock, so it is the time of the preceding upsert. The times of a
tournament are a chain of versions then, and acknowledgments are its updates.
-/

namespace FactoryServer.StampChains

open JsonValue TournamentAccess CommandTransaction CommandReceipts StorageTables TournamentStorage
  ExecutionQueue CallbackOutcomes DurableSave GuardedRuns ConcurrentWrites LockDiscipline
  VersionChains

variable {ι : Type}

/-! ## Acknowledgments -/

/-- What an acknowledgment says about one tournament. -/
structure Ack where
  /-- The tournament. -/
  id : String
  /-- `previousServerUpdatedAt` and `serverUpdatedAt`. -/
  update : Update (Option String)

/-- The acknowledgments in the answer of a mutation. -/
def acksOfAnswer (answer : Json) : List Ack :=
  match answer.field? "serverUpdatedAt" with
  | some (.obj current) => current.map fun (id, time) =>
    ⟨id, (chain (answer.field? "previousServerUpdatedAt") id).bind Json.str?, time.str?⟩
  | _ => []

section Acknowledgments

variable [DecidableEq ι] (h : Host)

/-- The step answers a mutation with success. A repeated command is answered from its
receipt, with what was acknowledged before. -/
def acknowledgment? (s : State ι) (a : WriteAction ι) : Option (ι × Json) :=
  match a with
  | .advance c =>
    match s.calls c, (step h s a).calls c with
    | .writing (.queue _) _ _ [], .ended (.ok (some answer)) =>
      if succeeded (some answer) then some (c, answer) else none
    | _, _ => none
  | _ => none

/-- What a step acknowledges. -/
def acksOf (s : State ι) (a : WriteAction ι) : List Ack :=
  match acknowledgment? h s a with
  | some (_, answer) => acksOfAnswer answer
  | none => []

/-- What a run acknowledges, in its order. -/
def acksOfRun : State ι → List (WriteAction ι) → List Ack
  | _, [] => []
  | s, a :: rest => acksOf h s a ++ acksOfRun (step h s a) rest

end Acknowledgments

/-! ## What is claimed -/

variable (h : Host)

/-- The acknowledgment is of an upsert in the log, and its earlier time is the time of
the row immediately before that upsert. -/
def Linked (base : String → Option TournamentRow) (log : List (Write ι)) (ack : Ack) : Prop :=
  ∃ before w after, log = before ++ w :: after ∧ w.id = ack.id ∧
    ack.update = ⟨timeRead h (putRows base before) ack.id, some (h.external.toIso w.row.updatedAt)⟩

/-- A mutation that is acknowledged has reported each of its upserts. -/
def Reported [DecidableEq ι] (s : State ι) (a : WriteAction ι) : Prop :=
  ∀ c answer, acknowledgment? h s a = some (c, answer) → ∀ w ∈ (step h s a).log, w.call = c →
    ∃ ack ∈ acksOfAnswer answer, ack.id = w.id ∧
      ack.update.current = some (h.external.toIso w.row.updatedAt)

/-- A client that was current at some moment of the log, and has received these
acknowledgments of the tournament, holds the stored time only if it has applied an
acknowledgment of every later upsert. -/
def NoGap (base : String → Option TournamentRow) (log : List (Write ι)) (acks : List Ack) : Prop :=
  ∀ id before after (received : List Ack), log = before ++ after →
    (∀ ack ∈ received, ack ∈ acks ∧ ack.id = id) →
    let held := timeRead h (putRows base before) id
    let updates := received.map Ack.update
    updates.foldl follow held = timeRead h (putRows base log) id →
    ∀ w ∈ after, w.id = id →
      ∃ u ∈ applied held updates, u.current = some (h.external.toIso w.row.updatedAt)

/-! ## The condition -/

/-- The engine keeps each record under its own id. -/
def KeysById (engine : Engine) : Prop :=
  ∀ loaded methods rollbackOnError outcome, (loaded.map Prod.fst).Nodup →
    (∀ entry ∈ loaded, Named entry) →
    (engine.executionQueue loaded methods rollbackOnError).outcome = .ok outcome →
    (outcome.records.map Prod.fst).Nodup ∧ ∀ entry ∈ outcome.records, Named entry

/-- A step of writers that take locks; a mutation names its tournaments by strings. -/
structure Declared [DecidableEq ι] (s : State ι) (a : WriteAction ι) : Prop where
  /-- Rows are written under their locks. -/
  disciplined : Disciplined h s a
  /-- `tournamentIds` has its declared type. -/
  strings : ∀ c payload, a = .queue c payload → ∃ ids, queueTournamentIds payload = strings ids

/-! ## The invariant -/

/-- The mutation of a call. -/
def queue? : Stage ι → Option QueueRequest
  | .locking (.queue request) => some request
  | .receipt (.queue request) _ => some request
  | .resolving request => some request
  | .fetching request _ => some request
  | .writing (.queue request) _ _ _ => some request
  | _ => none

/-- A mutation that names its tournaments by strings. -/
def NamesStrings (stage : Stage ι) : Prop :=
  ∀ request, queue? stage = some request → ∃ ids, request.tournamentIds = strings ids

/-- What a mutation has read is what its upserts follow. -/
structure Following (base : String → Option TournamentRow) (log : List (Write ι)) (c : ι)
    (request : QueueRequest) (previous : List (String × String))
    (written : List (Write ι)) (todo : RecordMap) : Prop where
  /-- What is written follows the time that was read. -/
  linked : ∀ w ∈ written, w.key = w.id ∧
    Linked h base log ⟨w.id, previous.lookup w.id, some (h.external.toIso w.row.updatedAt)⟩
  /-- The keys of an object are distinct. -/
  keys : (todo.map Prod.fst).Nodup
  /-- A locked row still has the time that was read. -/
  coming : ∀ entry ∈ todo, Named entry ∧
    (.tournament entry.1 ∈ (Work.queue request).lockKeys c →
      previous.lookup entry.1 = timeRead h (putRows base log) entry.1)
  /-- The call has written nothing else. -/
  mine : ∀ w ∈ log, w.call = c → w ∈ written

/-- What holds of a call that writes the records of a mutation. -/
def Chained (base : String → Option TournamentRow) (log : List (Write ι)) (c : ι)
    (stage : Stage ι) : Prop :=
  match stage with
  | .writing (.queue request) (.mutated _ _ previous) written todo =>
    Following h base (log ++ pending stage) c request previous written todo
  | .writing (.queue _) .saved _ _ => False
  | _ => True

variable {h}

/-! ## The log and its rows -/

/-- The rows after a log and more. -/
theorem putRows_append (base : String → Option TournamentRow) (log more : List (Write ι)) :
    putRows base (log ++ more) = putRows (putRows base log) more :=
  List.foldl_append

/-- A row depends on the upserts of that row only. -/
theorem putRows_congr {rows rows' : String → Option TournamentRow} {id : String}
    (heq : rows id = rows' id) (writes : List (Write ι)) :
    putRows rows writes id = putRows rows' writes id := by
  unfold putRows
  induction writes generalizing rows rows' with
  | nil => exact heq
  | cons w rest ih =>
    rw [List.foldl_cons, List.foldl_cons]
    refine ih ?_
    by_cases hw : id = w.id
    · rw [hw, Function.update_self, Function.update_self]
    · rw [Function.update_of_ne hw, Function.update_of_ne hw]
      exact heq

/-- Upserts of other rows may be inserted anywhere. -/
theorem putRows_insert {base : String → Option TournamentRow} {log ws more : List (Write ι)}
    {id : String} (hws : ∀ v ∈ ws, v.id ≠ id) :
    putRows base (log ++ ws ++ more) id = putRows base (log ++ more) id := by
  rw [putRows_append, putRows_append base log more]
  refine putRows_congr ?_ more
  rw [putRows_append]
  exact putRows_of_ne hws

theorem Linked.insert {base : String → Option TournamentRow} {log ws more : List (Write ι)}
    {ack : Ack} (hl : Linked h base (log ++ more) ack) (hws : ∀ v ∈ ws, v.id ≠ ack.id) :
    Linked h base (log ++ ws ++ more) ack := by
  obtain ⟨before, w, after, hsplit, hid, hupdate⟩ := hl
  rcases List.append_eq_append_iff.mp hsplit with ⟨as, hbefore, hmore⟩ | ⟨bs, hlog, hafter⟩
  · refine ⟨log ++ ws ++ as, w, after, ?_, hid, ?_⟩
    · rw [hmore, List.append_assoc (log ++ ws)]
    · rw [hupdate, hbefore]
      simp only [timeRead, putRows_insert hws]
  · cases bs with
    | nil =>
      rw [List.nil_append] at hafter
      rw [List.append_nil] at hlog
      refine ⟨log ++ ws, w, after, by rw [hafter], hid, ?_⟩
      rw [hupdate, ← hlog]
      have hrow : putRows base (log ++ ws) ack.id = putRows base log ack.id := by
        have hinserted : putRows base (log ++ ws ++ []) ack.id = putRows base (log ++ []) ack.id :=
          putRows_insert hws
        simpa using hinserted
      simp only [timeRead, hrow]
    | cons v bs =>
      obtain ⟨rfl, hrest⟩ := List.cons.inj hafter
      refine ⟨before, w, bs ++ ws ++ more, ?_, hid, hupdate⟩
      rw [hlog]
      simp

theorem Linked.append {base : String → Option TournamentRow} {log ws : List (Write ι)} {ack : Ack}
    (hl : Linked h base log ack) : Linked h base (log ++ ws) ack := by
  obtain ⟨before, w, after, hsplit, hid, hupdate⟩ := hl
  exact ⟨before, w, after ++ ws, by rw [hsplit]; simp, hid, hupdate⟩

/-! ## The times of a tournament -/

/-- The times a tournament has had: that before the log, and one for each upsert. -/
def versionsOf (h : Host) (base : String → Option TournamentRow) (log : List (Write ι))
    (id : String) : List (Option String) :=
  timeRead h base id ::
    (log.filter fun w => w.id = id).map fun w => some (h.external.toIso w.row.updatedAt)

theorem versionsOf_append (base : String → Option TournamentRow) (log more : List (Write ι))
    (id : String) : versionsOf h base (log ++ more) id = versionsOf h base log id ++
      (more.filter fun w => w.id = id).map fun w => some (h.external.toIso w.row.updatedAt) := by
  simp [versionsOf]

/-- The last version is the stored time. -/
theorem versionsOf_last (base : String → Option TournamentRow) (log : List (Write ι))
    (id : String) :
    (versionsOf h base log id).getLast? = some (timeRead h (putRows base log) id) := by
  induction log using List.reverseRecOn with
  | nil => rfl
  | append_singleton log w ih =>
    have hput : putRows base (log ++ [w]) = Function.update (putRows base log) w.id (some w.row) := by
      rw [putRows_append]
      rfl
    rw [versionsOf_append, hput]
    by_cases hw : w.id = id
    · have hfilter : ([w].filter fun v => v.id = id) = [w] := by simp [hw]
      rw [hfilter, ← hw]
      simp [timeRead]
    · have hfilter : ([w].filter fun v => v.id = id) = [] := by simp [hw]
      rw [hfilter, List.map_nil, List.append_nil, ih]
      simp only [timeRead, Function.update_of_ne (Ne.symm hw)]

/-- The versions of a tournament are distinct. -/
theorem versionsOf_nodup {start : Tables} {log : List (Write ι)} (htimes : DistinctTimes h start)
    (horder : log.Pairwise Earlier) (hclock : ∀ w ∈ log, start.now ≤ w.row.updatedAt)
    (id : String) : (versionsOf h start.tournaments log id).Nodup := by
  refine List.nodup_cons.mpr ⟨fun hin => ?_, ?_⟩
  · obtain ⟨w, hw, heq⟩ := List.mem_map.mp hin
    have hsince := hclock w (List.mem_filter.mp hw).1
    cases hrow : start.tournaments id with
    | none =>
      simp only [timeRead, hrow, Option.map_none] at heq
      cases heq
    | some row =>
      simp only [timeRead, hrow, Option.map_some, Option.some.injEq] at heq
      have htime := htimes.reported heq
      have hstored := htimes.stored id row hrow
      omega
  · have hfiltered : (log.filter fun w => w.id = id).Pairwise fun v w =>
        v.row.updatedAt < w.row.updatedAt := by
      refine (horder.filter fun w => w.id = id).imp_of_mem fun {v w} hv hw hvw => ?_
      have hvid : v.id = id := by simpa using (List.mem_filter.mp hv).2
      have hwid : w.id = id := by simpa using (List.mem_filter.mp hw).2
      exact hvw (hvid.trans hwid.symm)
    refine List.pairwise_map.mpr (hfiltered.imp fun {v w} hlt heq => ?_)
    have htime := htimes.reported (Option.some.inj heq)
    omega

/-- An acknowledgment that is linked leads from a version to the next. -/
theorem Linked.consecutive {base : String → Option TournamentRow} {log : List (Write ι)} {ack : Ack}
    (hl : Linked h base log ack) : Consecutive (versionsOf h base log ack.id) ack.update := by
  obtain ⟨before, w, after, hsplit, hid, hupdate⟩ := hl
  obtain ⟨init, hinit⟩ := List.getLast?_eq_some_iff.mp (versionsOf_last (h := h) base before ack.id)
  refine ⟨init, (after.filter fun v => v.id = ack.id).map fun v =>
    some (h.external.toIso v.row.updatedAt), ?_⟩
  have hfilter : ((w :: after).filter fun v => v.id = ack.id) =
      w :: after.filter fun v => v.id = ack.id := by simp [hid]
  rw [hsplit, versionsOf_append, hinit, hfilter, hupdate]
  simp

/-- Linked acknowledgments leave no gap. -/
theorem noGap_of_linked {start : Tables} {log : List (Write ι)} {acks : List Ack}
    (htimes : DistinctTimes h start) (horder : log.Pairwise Earlier)
    (hclock : ∀ w ∈ log, start.now ≤ w.row.updatedAt)
    (hlinked : ∀ ack ∈ acks, Linked h start.tournaments log ack) :
    NoGap h start.tournaments log acks := by
  intro id before after received hsplit hreceived held updates hlast w hw hid
  obtain ⟨init, hinit⟩ := List.getLast?_eq_some_iff.mp
    (versionsOf_last (h := h) start.tournaments before id)
  have hversions : versionsOf h start.tournaments log id = init ++ held ::
      (after.filter fun v => v.id = id).map fun v => some (h.external.toIso v.row.updatedAt) := by
    rw [hsplit, versionsOf_append, hinit, List.append_assoc]
    rfl
  have hconsecutive : ∀ u ∈ updates, Consecutive (versionsOf h start.tournaments log id) u := by
    intro u hu
    obtain ⟨ack, hack, rfl⟩ := List.mem_map.mp hu
    obtain ⟨hissued, hackid⟩ := hreceived ack hack
    rw [← hackid]
    exact (hlinked ack hissued).consecutive
  have hcaught := caught_up (versionsOf_nodup htimes horder hclock id) hversions hconsecutive
    (by rw [versionsOf_last]; exact congrArg some hlast.symm)
  exact hcaught _ (List.mem_map.mpr ⟨w, List.mem_filter.mpr ⟨hw, by simp [hid]⟩, rfl⟩)

/-! ## What an answer acknowledges -/

/-- A time of a map reads back. -/
theorem lookup_timesJson (times : List (String × String)) (id : String) :
    ((timesJson times).field? id).bind Json.str? = times.lookup id := by
  simp only [timesJson, Json.field?]
  induction times with
  | nil => rfl
  | cons entry rest ih =>
    obtain ⟨key, time⟩ := entry
    by_cases hid : key = id
    · simp [hid, Json.str?]
    · have hkey : (id == key) = false := beq_false_of_ne (Ne.symm hid)
      simpa [List.lookup_cons, hid, hkey] using ih

/-- Properties of other names acknowledge nothing. -/
theorem acksOfAnswer_spread {fields extra : List (String × Json)}
    (hextra : ∀ f ∈ extra, "serverUpdatedAt" ≠ f.1 ∧ "previousServerUpdatedAt" ≠ f.1) :
    acksOfAnswer (spread (some (.obj fields)) extra) = acksOfAnswer (.obj fields) := by
  unfold acksOfAnswer
  rw [field_spread_obj fields fun f hf => (hextra f hf).1,
    field_spread_obj fields fun f hf => (hextra f hf).2]

/-- A mutation acknowledges each of its upserts, with the time read before. -/
theorem acks_replyAnswer (work : Work) (result : Json) (methods : List Json)
    (previous : List (String × String)) (written : List (Write ι)) :
    acksOfAnswer (replyAnswer h work (.mutated result methods previous) written) =
      written.map fun w =>
        ⟨w.key, previous.lookup w.key, some (h.external.toIso w.row.updatedAt)⟩ := by
  simp only [replyAnswer, mutationAnswer]
  generalize (if truthy (work.payload.field? "serverStamped") &&
    truthy (result.field? "success") then _ else result) = canonical
  generalize htimes : (written.map fun w => (w.key, h.external.toIso w.row.updatedAt)) = times
  have hcurrent : (spread (some canonical) [("serverUpdatedAt", timesJson times),
      ("previousServerUpdatedAt", timesJson previous)]).field? "serverUpdatedAt" =
      some (timesJson times) :=
    field_spread_assigned (some canonical) [] _ (by simp)
  have hprevious : (spread (some canonical) [("serverUpdatedAt", timesJson times),
      ("previousServerUpdatedAt", timesJson previous)]).field? "previousServerUpdatedAt" =
      some (timesJson previous) :=
    field_spread_assigned (some canonical) [("serverUpdatedAt", timesJson times)] _ (by simp)
  unfold acksOfAnswer
  rw [hcurrent, hprevious, ← htimes]
  simp [timesJson, chain, Json.str?, ← lookup_timesJson previous]

/-- So does the answer that carries the receipt. -/
theorem acks_withReceipt (work : Work) (result : Json) (methods : List Json)
    (previous : List (String × String)) (written : List (Write ι)) (commandId : String) :
    acksOfAnswer
        (withReceipt (some (replyAnswer h work (.mutated result methods previous) written))
          commandId) =
      written.map fun w =>
        ⟨w.key, previous.lookup w.key, some (h.external.toIso w.row.updatedAt)⟩ := by
  rw [← acks_replyAnswer work result methods previous written]
  exact acksOfAnswer_spread (by simp)

/-! ## What a call does to its own chain -/

/-- Only the loop over the records of a mutation is in a chain. -/
theorem chained_of_other {base : String → Option TournamentRow} {log : List (Write ι)} {c : ι}
    {stage : Stage ι}
    (hother : ∀ request reply written todo, stage ≠ .writing (.queue request) reply written todo) :
    Chained h base log c stage := by
  cases stage with
  | writing work reply written todo =>
    cases work with
    | save request roles records => trivial
    | queue request => exact absurd rfl (hother request reply written todo)
  | _ => trivial

/-- The fetch reports the time of every row it selects. -/
theorem lookup_selected (rows : String → Option TournamentRow) (ids : List String) {id : String}
    (hid : id ∈ ids) :
    ((ids.filterMap fun id => (rows id).map (id, ·)).map fun entry =>
      (entry.1, h.external.toIso entry.2.updatedAt)).lookup id = timeRead h rows id := by
  induction ids with
  | nil => cases hid
  | cons i rest ih =>
    by_cases hi : id = i
    · subst hi
      cases hrow : rows id with
      | some row => simp [timeRead, hrow]
      | none =>
        by_cases hrest : id ∈ rest
        · simpa [hrow] using ih hrest
        · have hfresh : ∀ entry ∈ (rest.filterMap fun id => (rows id).map (id, ·)).map fun entry =>
              (entry.1, h.external.toIso entry.2.updatedAt), (id != entry.1) = true := by
            intro entry hentry
            obtain ⟨read, hread, rfl⟩ := List.mem_map.mp hentry
            obtain ⟨j, hj, hsome⟩ := List.mem_filterMap.mp hread
            obtain ⟨row, -, rfl⟩ := Option.map_eq_some_iff.mp hsome
            have hne : id ≠ j := fun heq => hrest (heq ▸ hj)
            simp [hne]
          simp [timeRead, hrow, List.lookup_eq_none_iff.mpr hfresh]
    · have hrest : id ∈ rest := (List.mem_cons.mp hid).resolve_left hi
      cases hrow : rows i with
      | some row =>
        have hkey : (id == i) = false := beq_false_of_ne hi
        simpa [hrow, List.lookup_cons, hkey] using ih hrest
      | none => simpa [hrow] using ih hrest

/-- A fetch selects every row once. -/
theorem nodup_selected (t : Tables) (texts : List String) :
    ((loadedRecords (exec (.selectTournaments texts) t).2).map Prod.fst).Nodup := by
  have hkeys : (loadedRecords (exec (.selectTournaments texts) t).2).map Prod.fst =
      texts.dedup.filterMap fun id => (t.tournaments id).map fun _ => id := by
    simp [loadedRecords, exec, List.map_filterMap, Function.comp_def]
  rw [hkeys]
  refine (List.nodup_dedup texts).filterMap fun id id' key hid hid' => ?_
  obtain ⟨_, -, rfl⟩ := Option.map_eq_some_iff.mp hid
  obtain ⟨_, -, rfl⟩ := Option.map_eq_some_iff.mp hid'
  rfl

/-- The records of valid rows are under their own ids. -/
theorem named_of_valid {rows : List (String × TournamentRow)}
    (hvalid : recordsAreValid rows = true) : ∀ entry ∈ loadedRecords rows, Named entry := by
  intro entry hentry
  obtain ⟨read, hread, rfl⟩ := List.mem_map.mp hentry
  have hid := List.all_eq_true.mp hvalid read hread
  dsimp only at hid
  unfold Named
  split at hid
  · next tournamentId heq => rw [heq, beq_iff_eq.mp hid]
  · cases hid

/-- The tournaments a mutation has locked are those it names, when it names them by strings. -/
theorem mem_of_lockKeys {request : QueueRequest} {ids : List String} {c : ι} {id : String}
    (hids : request.tournamentIds = strings ids)
    (hlock : .tournament id ∈ (Work.queue request).lockKeys c) : id ∈ ids := by
  obtain ⟨i, hi, hkey⟩ := List.mem_mapIdx.mp hlock
  simp only [hids, iterate_strings, Option.getD_some, List.getElem_map, lockKey,
    LockKey.tournament.injEq] at hkey
  rw [← hkey]
  exact List.getElem_mem _

/-- After the fetch nothing is written, and what was read is stored. -/
theorem following_fetched {base : String → Option TournamentRow} {log : List (Write ι)}
    {t : Tables} {c : ι} {request : QueueRequest} {ids : List String} {methods : List Json}
    {rollbackOnError : Option Json} {outcome : EngineOutcome} (hkeys : KeysById h.engine)
    (hids : request.tournamentIds = strings ids)
    (hrows : t.tournaments = putRows base log)
    (hvalid : recordsAreValid (exec (.selectTournaments ids) t).2 = true)
    (hrun : (h.engine.executionQueue (loadedRecords (exec (.selectTournaments ids) t).2) methods
      rollbackOnError).outcome = .ok outcome)
    (hquiet : ∀ w ∈ log, w.call ≠ c) :
    Following h base log c request
      ((exec (.selectTournaments ids) t).2.map fun (id, row) =>
        (id, h.external.toIso row.updatedAt)) [] outcome.records := by
  obtain ⟨hdistinct, hnamed⟩ :=
    hkeys _ _ _ _ (nodup_selected t ids) (named_of_valid hvalid) hrun
  refine ⟨fun w hw => absurd hw List.not_mem_nil, hdistinct,
    fun entry hentry => ⟨hnamed entry hentry, fun hlock => ?_⟩,
    fun w hw hcall => absurd hcall (hquiet w hw)⟩
  have hselected : entry.1 ∈ ids.dedup := List.mem_dedup.mpr (mem_of_lockKeys hids hlock)
  rw [← hrows]
  exact lookup_selected t.tournaments ids.dedup hselected

/-- An upsert follows the time that was read of its row. -/
theorem Following.put {base : String → Option TournamentRow} {log : List (Write ι)} {c : ι}
    {request : QueueRequest} {previous : List (String × String)} {written : List (Write ι)}
    {key : String} {record : TournamentRecord} {rest : RecordMap}
    {w : Write ι} (hf : Following h base log c request previous written ((key, record) :: rest))
    (hkey : w.key = key) (hid : w.id = key)
    (hlock : .tournament w.id ∈ (Work.queue request).lockKeys c) :
    Following h base (log ++ [w]) c request previous (written ++ [w]) rest := by
  obtain ⟨hfresh, hkeys⟩ := List.nodup_cons.mp hf.keys
  refine ⟨fun v hv => ?_, hkeys, fun entry hentry => ?_, fun v hv hcall => ?_⟩
  · rcases List.mem_append.mp hv with hold | hnew
    · exact ⟨(hf.linked v hold).1, (hf.linked v hold).2.append⟩
    · rw [List.mem_singleton.mp hnew]
      refine ⟨hkey.trans hid.symm, log, w, [], rfl, rfl, ?_⟩
      have hread := (hf.coming (key, record) List.mem_cons_self).2 (hid ▸ hlock)
      dsimp only at hread ⊢
      rw [hid, hread]
  · obtain ⟨hnamed, hread⟩ := hf.coming entry (List.mem_cons_of_mem _ hentry)
    refine ⟨hnamed, fun hentryLock => (hread hentryLock).trans ?_⟩
    have hne : w.id ≠ entry.1 := by
      intro heq
      exact hfresh (List.mem_map.mpr ⟨entry, hentry, heq.symm.trans hid⟩)
    have hrow : putRows base (log ++ [w]) entry.1 = putRows base log entry.1 := by
      rw [putRows_append]
      exact putRows_of_ne fun v hv => by rw [List.mem_singleton.mp hv]; exact hne
    simp only [timeRead, hrow]
  · rcases List.mem_append.mp hv with hold | hnew
    · exact List.mem_append_left _ (hf.mine v hold hcall)
    · exact List.mem_append_right _ hnew

/-- Upserts of rows that the call has not locked leave its chain. -/
theorem Chained.transfer {since : ℕ} {base : String → Option TournamentRow} {s s' : State ι}
    {c : ι} {stage : Stage ι} (hc : Chained h base s.log c stage) (hs : CallHolds since s c stage)
    (hl : Leaves since s s' c) : Chained h base s'.log c stage := by
  obtain ⟨vs, hlog, hforeign⟩ := hl.log
  cases stage with
  | writing work reply written todo =>
    cases work with
    | save request roles records => trivial
    | queue request =>
      cases reply with
      | saved => exact hc
      | mutated result methods previous =>
        have hunlocked : ∀ id, .tournament id ∈ (Work.queue request).lockKeys c →
            ∀ v ∈ vs, v.id ≠ id := by
          intro id hlock v hv heq
          rw [← heq] at hlock
          exact (hforeign v hv).2 (hs.locks _ rfl _ hlock)
        refine ⟨fun w hw => ⟨(hc.linked w hw).1, ?_⟩, hc.keys, fun entry hentry => ?_,
          fun w hw hcall => ?_⟩
        · rw [hlog]
          exact (hc.linked w hw).2.insert (hunlocked w.id (hs.mine _ rfl w hw).2)
        · obtain ⟨hnamed, hread⟩ := hc.coming entry hentry
          refine ⟨hnamed, fun hlock => (hread hlock).trans ?_⟩
          rw [hlog]
          simp only [timeRead, putRows_insert (hunlocked entry.1 hlock)]
        · rw [hlog] at hw
          rcases List.mem_append.mp hw with hlogged | hopen
          · rcases List.mem_append.mp hlogged with hold | hnew
            · exact hc.mine w (List.mem_append_left _ hold) hcall
            · exact absurd hcall (hforeign w hnew).1
          · exact hc.mine w (List.mem_append_right _ hopen) hcall
  | _ => trivial

section Steps

variable [DecidableEq ι] {base : String → Option TournamentRow} {s : State ι} {d : ι}

/-- A call that has ended is in no chain. -/
theorem chained_ended {s' : State ι} {outcome : Except Thrown (Option Json)}
    (hcalls : s'.calls = Function.update s.calls d (.ended outcome)) :
    Chained h base s'.log d (s'.calls d) := by
  rw [hcalls, Function.update_self]
  trivial

/-- A call whose work returns is in no chain. -/
theorem chained_conclude (work : Work) (ws : List (Write ι)) (result : Option Json) :
    Chained h base (s.conclude h d work ws result).log d ((s.conclude h d work ws result).calls d) :=
  (conclude_calls s d work ws result).elim fun _ hcalls => chained_ended hcalls

/-- A call that goes on to another stage than the loop of a mutation is in no chain. -/
theorem chained_setCall {s₁ : State ι} {stage : Stage ι}
    (hother : ∀ request reply written todo, stage ≠ .writing (.queue request) reply written todo) :
    Chained h base (s₁.setCall d stage).log d ((s₁.setCall d stage).calls d) := by
  rw [setCall_calls, Function.update_self]
  exact chained_of_other hother

omit [DecidableEq ι] in
/-- The upserts of the call's own transaction end the log that it sees. -/
theorem put_log (work : Work) (reply : Reply) (ws : List (Write ι)) (w : Write ι)
    (todo rest : RecordMap) :
    (s.put work w).log ++ pending (.writing work reply (ws ++ [w]) rest) =
      s.log ++ pending (.writing work reply ws todo) ++ [w] := by
  unfold State.put
  cases hd : work.isDurable <;> simp [pending, hd, State.commit]

omit [DecidableEq ι] in
/-- Work that opens does not write yet. -/
theorem opened_not_writing (work : Work) (request : QueueRequest) (reply : Reply)
    (ws : List (Write ι)) (todo : RecordMap) :
    (opened work : Stage ι) ≠ .writing (.queue request) reply ws todo := by
  cases work with
  | queue request' => exact fun heq => by cases heq
  | save request' roles records =>
    cases hf : expectedFields (request'.params.field? "expectedServerUpdatedAt") <;>
      simp only [opened, hf] <;> exact fun heq => by cases heq

omit [DecidableEq ι] in
/-- Work that opens is the work that was locked. -/
theorem queue_opened (work : Work) :
    queue? (opened work : Stage ι) = queue? (.locking work : Stage ι) := by
  cases work with
  | queue request => rfl
  | save request roles records =>
    cases hf : expectedFields (request.params.field? "expectedServerUpdatedAt") <;>
      simp only [opened, hf] <;> rfl

/-- A call whose await is answered keeps its mutation, or has none any more. -/
theorem queue_advance {request : QueueRequest}
    (hq : queue? ((advance h s d).calls d) = some request) :
    queue? (s.calls d) = some request := by
  have hended : ∀ {s' : State ι} {outcome : Except Thrown (Option Json)},
      s'.calls = Function.update s.calls d (.ended outcome) →
      queue? (s'.calls d) ≠ some request := by
    intro s' outcome hcalls
    rw [hcalls, Function.update_self]
    exact fun heq => nomatch heq
  have hconclude : ∀ work ws result,
      queue? ((s.conclude h d work ws result).calls d) ≠ some request := by
    intro work ws result
    obtain ⟨outcome, hcalls⟩ := conclude_calls (h := h) s d work ws result
    exact hended hcalls
  cases hstage : s.calls d with
  | idle => simpa only [advance, hstage] using hq
  | ended outcome => simpa only [advance, hstage] using hq
  | gating request' ctx roles gated todo =>
    cases todo with
    | nil =>
      simp only [advance, hstage, setCall_calls, Function.update_self] at hq
      cases hq
    | cons entry todo =>
      simp only [advance, hstage] at hq
      cases hgate : gateRecord h ctx roles entry.1 entry.2 (viewOf s.tables entry.1) <;>
        simp only [hgate, setCall_calls, Function.update_self] at hq <;> cases hq
  | attaching request' roles attached todo =>
    cases todo with
    | nil =>
      simp only [advance, hstage, setCall_calls, Function.update_self] at hq
      split_ifs at hq <;> cases hq
    | cons entry todo =>
      simp only [advance, hstage, setCall_calls, Function.update_self] at hq
      cases hq
  | locking work =>
    simp only [advance, hstage] at hq
    rcases acquire_cases (h := h) s d work with
      heq | ⟨-, ⟨_, heq⟩ | ⟨-, heq⟩ | ⟨_, -, heq⟩⟩ <;> rw [heq] at hq
    · rw [← hstage]
      exact hq
    · exact absurd hq (hended rfl)
    · rw [setCall_calls, Function.update_self, queue_opened] at hq
      exact hq
    · rw [setCall_calls, Function.update_self] at hq
      cases work <;> exact hq
  | receipt work identity =>
    simp only [advance, hstage] at hq
    rcases readReceipt_cases s d work identity with
      heq | ⟨-, -, heq⟩ | ⟨_, heq⟩ | ⟨_, -, heq⟩ <;> rw [heq] at hq
    · rw [← hstage]
      exact hq
    · rw [setCall_calls, Function.update_self, queue_opened] at hq
      cases work <;> exact hq
    · exact absurd hq (hended rfl)
    · exact absurd hq (hended rfl)
  | checking request' roles records todo =>
    simp only [advance, hstage] at hq
    rcases checkKey_cases (h := h) s d request' roles records todo with
      ⟨-, heq⟩ | ⟨_, _, -, ⟨heq, -⟩ | ⟨_, _, heq⟩⟩ <;> rw [heq] at hq
    · rw [setCall_calls, Function.update_self] at hq
      cases hq
    · rw [setCall_calls, Function.update_self] at hq
      cases hq
    · exact absurd hq (hconclude _ _ _)
  | resolving request' =>
    simp only [advance, hstage] at hq
    cases hindexed : indexedMethods h.external s.tables request'.tournamentIds request'.methods with
    | none =>
      rw [hindexed] at hq
      exact absurd hq (hended rfl)
    | some methods =>
      simp only [hindexed, setCall_calls, Function.update_self] at hq
      exact hq
  | fetching request' methods =>
    simp only [advance, hstage] at hq
    rcases fetchAndRun_cases (h := h) s d request' methods with
      ⟨_, heq⟩ | ⟨_, heq⟩ | ⟨_, _, _, -, -, -, heq⟩ <;> rw [heq] at hq
    · exact absurd hq (hended rfl)
    · exact absurd hq (hconclude _ _ _)
    · rw [setCall_calls, Function.update_self] at hq
      exact hq
  | writing work reply ws todo =>
    simp only [advance, hstage] at hq
    rcases saveNext_cases (h := h) s d work reply ws todo with
      ⟨-, heq⟩ | ⟨_, _, _, -, ⟨_, heq⟩ | ⟨_, heq⟩ | ⟨_, -, heq⟩⟩ <;> rw [heq] at hq
    · exact absurd hq (hconclude _ _ _)
    · exact absurd hq (hended rfl)
    · exact absurd hq (hconclude _ _ _)
    · rw [setCall_calls, put_calls, Function.update_self] at hq
      cases work <;> exact hq

/-- A call that goes on with a mutation has had it, or it has just come. -/
theorem queue_step {a : WriteAction ι} {c : ι} {request : QueueRequest}
    (hq : queue? ((step h s a).calls c) = some request) :
    queue? (s.calls c) = some request ∨
      ∃ payload, a = .queue c payload ∧ request.tournamentIds = queueTournamentIds payload := by
  by_cases hcall : a.call? = some c
  · have hreject : queue? ((reject s c).calls c) = some request →
        queue? (s.calls c) = some request := by
      intro hr
      cases hstage : s.calls c with
      | idle => simpa only [reject, hstage] using hr
      | ended outcome => simpa only [reject, hstage] using hr
      | attaching request' roles attached todo =>
        cases todo <;> simp only [reject, hstage, abort_calls, setCall_calls,
          Function.update_self] at hr <;> cases hr
      | _ =>
        simp only [reject, hstage, abort_calls, Function.update_self] at hr
        cases hr
    cases a with
    | save d request' =>
      obtain rfl : d = c := Option.some.inj hcall
      cases hstage : s.calls d with
      | idle =>
        simp only [step, hstage, setCall_calls, Function.update_self, arriveSave] at hq
        split_ifs at hq
        · cases hq
        · cases hq
        · cases hctx : request'.userContext <;> rw [hctx] at hq <;> cases hq
      | _ =>
        simp only [step, hstage] at hq
        exact Or.inl hq
    | queue d payload =>
      obtain rfl : d = c := Option.some.inj hcall
      cases hstage : s.calls d with
      | idle =>
        simp only [step, hstage, setCall_calls, Function.update_self] at hq
        refine Or.inr ⟨payload, rfl, ?_⟩
        unfold arriveQueue at hq
        split at hq
        · next tournamentIds work methods hadmitted hmethods =>
          cases hq
          obtain ⟨_, hids, -⟩ := work_of_admission hadmitted
          exact hids
        · cases hq
        · cases hq
        · cases hq
      | _ =>
        simp only [step, hstage] at hq
        exact Or.inl hq
    | advance d =>
      obtain rfl : d = c := Option.some.inj hcall
      exact Or.inl (queue_advance hq)
    | reject d =>
      obtain rfl : d = c := Option.some.inj hcall
      exact Or.inl (hreject hq)
    | lose d =>
      obtain rfl : d = c := Option.some.inj hcall
      refine Or.inl ?_
      cases hstage : s.calls d with
      | idle => simpa only [step, hstage] using hq
      | ended outcome => simpa only [step, hstage] using hq
      | attaching request' roles attached todo =>
        rw [← hstage]
        cases todo with
        | nil =>
          simp only [step, hstage, abort_calls, Function.update_self] at hq
          cases hq
        | cons entry todo =>
          simp only [step, hstage] at hq
          exact hreject hq
      | _ =>
        simp only [step, hstage, abort_calls, Function.update_self] at hq
        cases hq
    | outside tables roles => cases hcall
  · rw [step_calls_other hcall] at hq
    exact Or.inl hq

/-- A call whose await is answered goes on in its chain. -/
theorem chained_advance {since : ℕ} {a : WriteAction ι} (hkeys : KeysById h.engine)
    (hd : Disciplined h s a) (ha : a = .advance d ∨ a = .lose d)
    (hrows : s.tables.tournaments = putRows base s.log) (hn : NamesStrings (s.calls d))
    (hs : CallHolds since s d (s.calls d)) (hc : Chained h base s.log d (s.calls d)) :
    Chained h base (advance h s d).log d ((advance h s d).calls d) := by
  cases hstage : s.calls d with
  | idle =>
    simp only [advance, hstage]
    trivial
  | ended outcome =>
    simp only [advance, hstage]
    trivial
  | gating request ctx roles gated todo =>
    cases todo with
    | nil =>
      simp only [advance, hstage]
      exact chained_setCall fun _ _ _ _ heq => by cases heq
    | cons entry todo =>
      simp only [advance, hstage]
      cases gateRecord h ctx roles entry.1 entry.2 (viewOf s.tables entry.1) <;>
        exact chained_setCall fun _ _ _ _ heq => by cases heq
  | attaching request roles attached todo =>
    cases todo with
    | nil =>
      simp only [advance, hstage]
      split_ifs <;> exact chained_setCall fun _ _ _ _ heq => by cases heq
    | cons entry todo =>
      simp only [advance, hstage]
      exact chained_setCall fun _ _ _ _ heq => by cases heq
  | locking work =>
    simp only [advance, hstage]
    rcases acquire_cases (h := h) s d work with
      heq | ⟨-, ⟨_, heq⟩ | ⟨-, heq⟩ | ⟨_, -, heq⟩⟩ <;> rw [heq]
    · rw [hstage]
      trivial
    · exact chained_ended rfl
    · exact chained_setCall (opened_not_writing work)
    · exact chained_setCall fun _ _ _ _ heq => by cases heq
  | receipt work identity =>
    simp only [advance, hstage]
    rcases readReceipt_cases s d work identity with
      heq | ⟨-, -, heq⟩ | ⟨_, heq⟩ | ⟨_, -, heq⟩ <;> rw [heq]
    · rw [hstage]
      trivial
    · exact chained_setCall (opened_not_writing work)
    · exact chained_ended rfl
    · exact chained_ended rfl
  | checking request roles records todo =>
    simp only [advance, hstage]
    rcases checkKey_cases (h := h) s d request roles records todo with
      ⟨-, heq⟩ | ⟨_, _, -, ⟨heq, -⟩ | ⟨_, _, heq⟩⟩ <;> rw [heq]
    · exact chained_setCall fun _ _ _ _ heq => by cases heq
    · exact chained_setCall fun _ _ _ _ heq => by cases heq
    · exact chained_conclude _ _ _
  | resolving request =>
    simp only [advance, hstage]
    cases indexedMethods h.external s.tables request.tournamentIds request.methods with
    | none => exact chained_ended rfl
    | some methods => exact chained_setCall fun _ _ _ _ heq => by cases heq
  | fetching request methods =>
    simp only [advance, hstage]
    rcases fetchAndRun_cases (h := h) s d request methods with
      ⟨_, heq⟩ | ⟨_, heq⟩ | ⟨texts, resolved, outcome, htexts, hvalid, hrun, heq⟩ <;> rw [heq]
    · exact chained_ended rfl
    · exact chained_conclude _ _ _
    · rw [setCall_calls, Function.update_self]
      obtain ⟨ids, hids⟩ := hn request (by rw [hstage]; rfl)
      rw [hids, h.external.pg.textArray_strings] at htexts
      cases htexts
      have hfetched := following_fetched hkeys (c := d) hids hrows hvalid hrun
        (hs.quiet (by rw [hstage]; rfl))
      simpa [Chained, pending] using hfetched
  | writing work reply ws todo =>
    rw [hstage] at hs hc
    simp only [advance, hstage]
    rcases saveNext_cases (h := h) s d work reply ws todo with
      ⟨-, heq⟩ | ⟨key, record, rest, rfl, ⟨_, heq⟩ | ⟨_, heq⟩ | ⟨w, hw, heq⟩⟩ <;> rw [heq]
    · exact chained_conclude _ _ _
    · exact chained_ended rfl
    · exact chained_conclude _ _ _
    · rw [setCall_calls, put_calls, Function.update_self, setCall_log]
      cases work with
      | save request roles records => trivial
      | queue request =>
        cases reply with
        | saved => exact hc
        | mutated result methods previous =>
          have hlock := locked_nextWrite hd ha hstage hs hw
          have hwrite := (nextWrite_named (hc.coming (key, record) List.mem_cons_self).1 hw).2
          have hput := Following.put hc (w := w) (by rw [hwrite]) (by rw [hwrite]) hlock
          simp only [Chained]
          rw [put_log]
          exact hput

/-- One disciplined step leaves every call in its chain. -/
theorem chained_step {start : Tables} {a : WriteAction ι} (hkeys : KeysById h.engine)
    (hd : Disciplined h s a) (hi : Inv h start s) (hn : ∀ c, NamesStrings (s.calls c))
    (hc : ∀ c, Chained h start.tournaments s.log c (s.calls c)) (c : ι) :
    Chained h start.tournaments (step h s a).log c ((step h s a).calls c) := by
  by_cases hcall : a.call? = some c
  · have hadvance : ∀ ha : a = .advance c ∨ a = .lose c, Chained h start.tournaments
        (advance h s c).log c ((advance h s c).calls c) := fun ha =>
      chained_advance hkeys hd ha hi.rows (hn c) (hi.calls c) (hc c)
    have hreject : Chained h start.tournaments (reject s c).log c ((reject s c).calls c) := by
      cases hstage : s.calls c with
      | idle => simpa only [reject, hstage] using hc c
      | ended outcome => simpa only [reject, hstage] using hc c
      | attaching request roles attached todo =>
        simp only [reject, hstage]
        cases todo with
        | nil => exact chained_ended rfl
        | cons entry todo => exact chained_setCall fun _ _ _ _ heq => by cases heq
      | _ =>
        simp only [reject, hstage]
        exact chained_ended rfl
    cases a with
    | save d request =>
      obtain rfl : d = c := Option.some.inj hcall
      cases hstage : s.calls d with
      | idle =>
        simp only [step, hstage]
        refine chained_setCall fun request' reply ws todo => ?_
        unfold arriveSave
        split_ifs
        · exact fun heq => by cases heq
        · exact fun heq => by cases heq
        · cases request.userContext <;> exact fun heq => by cases heq
      | _ => simpa only [step, hstage] using hc d
    | queue d payload =>
      obtain rfl : d = c := Option.some.inj hcall
      cases hstage : s.calls d with
      | idle =>
        simp only [step, hstage]
        refine chained_setCall fun request' reply ws todo => ?_
        unfold arriveQueue
        split <;> exact fun heq => by cases heq
      | _ => simpa only [step, hstage] using hc d
    | advance d =>
      obtain rfl : d = c := Option.some.inj hcall
      exact hadvance (Or.inl rfl)
    | reject d =>
      obtain rfl : d = c := Option.some.inj hcall
      exact hreject
    | lose d =>
      obtain rfl : d = c := Option.some.inj hcall
      cases hstage : s.calls d with
      | idle => simpa only [step, hstage] using hc d
      | ended outcome => simpa only [step, hstage] using hc d
      | attaching request roles attached todo =>
        simp only [step, hstage]
        cases todo with
        | nil => exact chained_ended (abort_calls _ _ _)
        | cons entry todo => exact hreject
      | _ =>
        simp only [step, hstage]
        exact chained_ended (abort_calls _ _ _)
    | outside tables roles => cases hcall
  · rw [step_calls_other hcall]
    cases hother : a.call? with
    | none =>
      cases a with
      | outside tables roles => exact hc c
      | _ => cases hother
    | some d =>
      have hm := moves_step hd hother hi.now (hi.calls d) hi.receipts
      exact (hc c).transfer (hi.calls c) (hm.leaves fun heq => hcall (hother.trans (by rw [heq])))

/-! ## What is acknowledged -/

/-- A mutation that is acknowledged has committed what it wrote, and reports it. -/
theorem acknowledged {a : WriteAction ι} {c : ι} {answer : Json}
    (hc : Chained h base s.log c (s.calls c)) (hack : acknowledgment? h s a = some (c, answer)) :
    ∃ request result methods previous ws,
      s.calls c = .writing (.queue request) (.mutated result methods previous) ws [] ∧
      (step h s a).log = s.log ++ pending (s.calls c) ∧
      acksOfAnswer answer = ws.map fun w =>
        ⟨w.key, previous.lookup w.key, some (h.external.toIso w.row.updatedAt)⟩ := by
  cases a with
  | advance d =>
    simp only [acknowledgment?] at hack
    split at hack
    · next request reply ws answer' hstage hended =>
      split_ifs at hack with hsucceeded
      cases hack
      rw [hstage] at hc
      cases reply with
      | saved => exact absurd hc id
      | mutated result methods previous =>
        refine ⟨request, result, methods, previous, ws, hstage, ?_⟩
        have hstep : step h s (.advance c) = s.conclude h c (.queue request) ws
            (some (replyAnswer h (.queue request) (.mutated result methods previous) ws)) := by
          simp only [step, advance, hstage, saveNext]
        rw [hstep] at hended ⊢
        rcases conclude_cases (h := h) s c (.queue request) ws
            (some (replyAnswer h (.queue request) (.mutated result methods previous) ws)) with
          ⟨outcome, heq, hreturned, hrolled⟩ | ⟨identity, hdurable, -, -, heq⟩
        · rw [heq, setCall_calls, release_calls, Function.update_self] at hended
          cases hended
          have hanswer : answer =
              replyAnswer h (.queue request) (.mutated result methods previous) ws := by
            rcases hreturned with hok | ⟨_, herror⟩
            · exact Option.some.inj (Except.ok.inj hok)
            · cases herror
          have hplain : (Work.queue request).isDurable = false := by
            cases hd : (Work.queue request).isDurable with
            | false => rfl
            | true => exact absurd (hrolled hd (by rw [hanswer])) (by rw [← hanswer, hsucceeded]; simp)
          refine ⟨?_, by rw [hanswer, acks_replyAnswer]⟩
          rw [heq, hstage]
          simp [pending, hplain]
        · rw [heq, commitCommand_calls, Function.update_self] at hended
          cases hended
          refine ⟨?_, acks_withReceipt _ _ _ _ _ _⟩
          rw [heq, hstage]
          simp [pending, hdurable, State.commitCommand, State.commit]
    · cases hack
  | _ => cases hack

/-- What a step acknowledges is linked. -/
theorem acks_linked {a : WriteAction ι} (hc : ∀ c, Chained h base s.log c (s.calls c)) :
    ∀ ack ∈ acksOf h s a, Linked h base (step h s a).log ack := by
  intro ack hin
  unfold acksOf at hin
  cases hack : acknowledgment? h s a with
  | none =>
    rw [hack] at hin
    cases hin
  | some acknowledged =>
    obtain ⟨c, answer⟩ := acknowledged
    rw [hack] at hin
    obtain ⟨request, result, methods, previous, ws, hstage, hlog, hacks⟩ := acknowledged (hc c) hack
    have hchained := hc c
    rw [hstage] at hchained hlog
    dsimp only at hin
    rw [hacks] at hin
    obtain ⟨w, hw, rfl⟩ := List.mem_map.mp hin
    obtain ⟨hkey, hlinked⟩ := hchained.linked w hw
    rw [hlog, hkey]
    exact hlinked

/-- Nothing that was written goes unreported. -/
theorem acks_reported {a : WriteAction ι} (hc : ∀ c, Chained h base s.log c (s.calls c)) :
    Reported h s a := by
  intro c answer hack w hw hcall
  obtain ⟨request, result, methods, previous, ws, hstage, hlog, hacks⟩ := acknowledged (hc c) hack
  have hchained := hc c
  rw [hstage] at hchained hlog
  rw [hlog] at hw
  have hin := hchained.mine w hw hcall
  refine ⟨⟨w.key, previous.lookup w.key, some (h.external.toIso w.row.updatedAt)⟩, ?_,
    (hchained.linked w hin).1, rfl⟩
  rw [hacks]
  exact List.mem_map.mpr ⟨w, hin, rfl⟩

/-- A disciplined step only adds to the log. -/
theorem step_log {start : Tables} {a : WriteAction ι} (hd : Disciplined h s a)
    (hi : Inv h start s) : ∃ ws, (step h s a).log = s.log ++ ws := by
  cases hcall : a.call? with
  | none =>
    cases a with
    | outside tables roles => exact ⟨[], (List.append_nil _).symm⟩
    | _ => cases hcall
  | some d =>
    obtain ⟨ws, hlog, -⟩ := (moves_step hd hcall hi.now (hi.calls d) hi.receipts).log
    exact ⟨ws, hlog⟩

/-! ## Whole runs -/

/-- What holds after every step. -/
structure StampInv (h : Host) (start : Tables) (s : State ι) : Prop where
  /-- The rows are what the log says. -/
  inv : Inv h start s
  /-- Mutations name their tournaments by strings. -/
  strings : ∀ c, NamesStrings (s.calls c)
  /-- Every call is in its chain. -/
  chained : ∀ c, Chained h start.tournaments s.log c (s.calls c)

theorem stampInv_step (hkeys : KeysById h.engine) {start : Tables} (s : State ι)
    (a : WriteAction ι) (hd : Declared h s a) (hi : StampInv h start s) :
    StampInv h start (step h s a) := by
  refine ⟨inv_step s a hd.disciplined hi.inv, fun c request hq => ?_,
    chained_step hkeys hd.disciplined hi.inv hi.strings hi.chained⟩
  rcases queue_step hq with hold | ⟨payload, hcame, hids⟩
  · exact hi.strings c request hold
  · rw [hids]
    exact hd.strings c payload hcame

omit [DecidableEq ι] in
theorem stampInv_start (tables : Tables) (roles : String → List (String × String)) :
    StampInv h tables (State.start tables roles : State ι) :=
  ⟨inv_start tables roles, fun _ _ hq => (nomatch hq), fun _ => trivial⟩

/-- A run only adds to the log. -/
theorem run_log (hkeys : KeysById h.engine) {start : Tables} {actions : List (WriteAction ι)}
    (hmeets : RunMeets (step h) (Declared h) s actions) (hi : StampInv h start s) :
    ∃ ws, (run (step h) s actions).log = s.log ++ ws := by
  induction actions generalizing s with
  | nil => exact ⟨[], (List.append_nil _).symm⟩
  | cons a rest ih =>
    obtain ⟨ws, hfirst⟩ := step_log hmeets.1.disciplined hi.inv
    obtain ⟨vs, hrest⟩ := ih hmeets.2 (stampInv_step hkeys s a hmeets.1 hi)
    refine ⟨ws ++ vs, ?_⟩
    rw [← List.append_assoc, ← hfirst]
    exact hrest

/-- Everything a run acknowledges is linked in its log. -/
theorem run_linked (hkeys : KeysById h.engine) {start : Tables} {actions : List (WriteAction ι)}
    (hmeets : RunMeets (step h) (Declared h) s actions) (hi : StampInv h start s) :
    ∀ ack ∈ acksOfRun h s actions,
      Linked h start.tournaments (run (step h) s actions).log ack := by
  induction actions generalizing s with
  | nil => exact fun ack hin => absurd hin List.not_mem_nil
  | cons a rest ih =>
    have hnext := stampInv_step hkeys s a hmeets.1 hi
    intro ack hin
    rcases List.mem_append.mp hin with hfirst | hlater
    · obtain ⟨ws, hlog⟩ := run_log hkeys hmeets.2 hnext
      have hlinked : Linked h start.tournaments ((step h s a).log ++ ws) ack :=
        (acks_linked hi.chained ack hfirst).append
      rw [← hlog] at hlinked
      exact hlinked
    · exact ih hmeets.2 hnext ack hlater

/-- Among writers that take locks, every acknowledgment follows the upsert immediately
before it, no upsert is left out, and no client skips one unnoticed. -/
theorem acknowledgments_chained (start : Tables) (roles : String → List (String × String))
    (actions : List (WriteAction ι)) (hkeys : KeysById h.engine)
    (htimes : DistinctTimes h start)
    (hmeets : RunMeets (step h) (Declared h) (State.start start roles) actions) :
    let final := run (step h) (State.start start roles) actions
    let acks := acksOfRun h (State.start start roles) actions
    (∀ ack ∈ acks, Linked h start.tournaments final.log ack) ∧
      RunMeets (step h) (Reported h) (State.start start roles) actions ∧
      NoGap h start.tournaments final.log acks := by
  intro final acks
  have hstart := stampInv_start (h := h) (ι := ι) start roles
  have hlinked : ∀ ack ∈ acks, Linked h start.tournaments final.log ack :=
    run_linked hkeys hmeets hstart
  have hfinal : StampInv h start final := run_keeps (stampInv_step hkeys) hmeets hstart
  refine ⟨hlinked, ?_, ?_⟩
  · exact run_meets (stampInv_step hkeys) (fun s a _ hi => acks_reported hi.chained) hmeets hstart
  · intro id before after received hsplit hreceived
    cases hlog : final.log with
    | nil =>
      rw [hlog] at hsplit
      obtain ⟨-, hafter⟩ := List.append_eq_nil_iff.mp hsplit.symm
      intro _ _ _ w hw
      rw [hafter] at hw
      exact absurd hw List.not_mem_nil
    | cons v rest =>
      obtain ⟨horder, hclock⟩ := (hfinal.inv.calls v.call).log_ordered
      rw [← hlog]
      exact noGap_of_linked htimes horder (fun w hw => (hclock w hw).1) hlinked id before after
        received hsplit hreceived

end Steps

/-! ## A mutation alone -/

/-- An engine that succeeds and leaves the records as they are. -/
def keepingEngine : Engine where
  executionQueue records _ _ :=
    ⟨[], .ok ⟨.obj [("success", .bool true)], records, [], .ok []⟩, notices_nil⟩
  findMatchUp _ _ := .ok none
  isTestDataMethod _ := false

/-- The host with this engine. -/
def keepingHost : Host := { plainHost with engine := keepingEngine }

/-- A mutation of the tournament `t`. -/
def mutationOf (id : String) : Json := .obj [("tournamentIds", strings [id]), ("methods", .arr [])]

/-- It is run to its answer. -/
def mutatedOnce : List (WriteAction Unit) :=
  .queue () (mutationOf "t") :: List.replicate 5 (.advance ())

/-- The engine keeps its records. -/
theorem keysById_keeping : KeysById keepingHost.engine := by
  intro loaded methods rollbackOnError outcome hnodup hnamed hrun
  cases hrun
  exact ⟨hnodup, hnamed⟩

/-- A mutation of `t` is as declared while its records are named and locked. -/
theorem declared_mutation {s : State Unit} {a : WriteAction Unit} {c : Unit}
    (ha : a = .queue c (mutationOf "t") ∨ a = .advance c)
    (hlocked : ∀ request reply ws key record todo,
      s.calls c = .writing (.queue request) reply ws ((key, record) :: todo) →
      Named (key, record) ∧ .tournament key ∈ (Work.queue request).lockKeys c) :
    Declared keepingHost s a := by
  refine ⟨⟨fun d request hcall => ?_, fun d request reply ws key record todo w hadvance hstage hw => ?_,
    fun tables roles hout => ?_⟩, fun d payload hcall => ?_⟩
  · rcases ha with rfl | rfl <;> cases hcall
  · obtain rfl : d = c := by
      rcases ha with rfl | rfl <;> rcases hadvance with heq | heq <;> cases heq
      rfl
    obtain ⟨hnamed, hlock⟩ := hlocked request reply ws key record todo hstage
    rw [(nextWrite_named hnamed hw).2]
    exact hlock
  · rcases ha with rfl | rfl <;> cases hout
  · rcases ha with rfl | rfl <;> cases hcall
    exact ⟨["t"], rfl⟩

/-- It is acknowledged. -/
theorem acknowledgments_chained_once :
    let start := createdBy "a" "t"
    let final := run (step keepingHost) (State.start start fun _ => []) mutatedOnce
    let acks := acksOfRun keepingHost (State.start start fun _ => []) mutatedOnce
    acks.map Ack.id = ["t"] ∧
      (∀ ack ∈ acks, Linked keepingHost start.tournaments final.log ack) ∧
      RunMeets (step keepingHost) (Reported keepingHost) (State.start start fun _ => [])
        mutatedOnce ∧
      NoGap keepingHost start.tournaments final.log acks := by
  intro start final acks
  refine ⟨by decide, acknowledgments_chained start _ mutatedOnce keysById_keeping ?_ ?_⟩
  · have hplain : DistinctTimes plainHost start := by
      refine distinctTimes_plain start fun id row hrow => ?_
      by_cases hid : id = "t"
      · subst hid
        cases hrow
        exact Nat.zero_lt_one
      · have hnone : start.tournaments id = none := by simp [start, createdBy, hid]
        cases hnone.symm.trans hrow
    exact ⟨hplain.reported, hplain.stored⟩
  · have hunwritten : ∀ {s : State Unit} {a : WriteAction Unit} {c : Unit},
        a = .queue c (mutationOf "t") ∨ a = .advance c →
        (∀ request reply ws entry todo,
          s.calls c ≠ .writing (.queue request) reply ws (entry :: todo)) →
        Declared keepingHost s a := fun ha hstage =>
      declared_mutation ha fun request reply ws key record todo heq =>
        absurd heq (hstage request reply ws (key, record) todo)
    have hwriting : ∀ {s : State Unit} {a : WriteAction Unit} {c : Unit}
        {request : QueueRequest} {reply : Reply} {ws : List (Write Unit)},
        a = .advance c → s.calls c = .writing (.queue request) reply ws
          (loadedRecords [("t", ⟨stampCreatedBy (some "a") (plainRecord "t" (some "p")), 0, 0⟩)]) →
        request.tournamentIds = strings ["t"] → Declared keepingHost s a := by
      intro s a c request reply ws ha hstage hids
      refine declared_mutation (Or.inr ha) fun request' reply' ws' key record todo heq => ?_
      cases hstage.symm.trans heq
      refine ⟨rfl, ?_⟩
      rw [Work.lockKeys, hids]
      exact List.mem_cons_self
    refine ⟨hunwritten (Or.inl rfl) ?_, hunwritten (Or.inr rfl) ?_, hunwritten (Or.inr rfl) ?_,
      hunwritten (Or.inr rfl) ?_, hwriting rfl rfl rfl, hunwritten (Or.inr rfl) ?_, trivial⟩
    all_goals exact fun _ _ _ _ _ hstage => nomatch hstage

end FactoryServer.StampChains
