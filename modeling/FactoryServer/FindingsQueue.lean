import FactoryServer.GuardedRuns
import FactoryServer.IntegrityScans

/-!
# The queue of integrity findings

The scans hand their rows to a service that only queues them. A drain writes the queue
in batches, one at a time; concurrent flushes share the drain in progress, whose promise
is forgotten one microtask after the drain has returned. A write that fails puts its
batch back in front of the rows recorded meanwhile and starts a retry timer. A seed
read flushes the queue before it queries the table.
-/

namespace FactoryServer.FindingsQueue

open GuardedRuns
open IntegrityScans (DrawIntegrityFindingRow DrawOpenFindings loadOpenFindings
  MAX_QUEUED_FINDING_ROWS MAX_FINDING_ROWS_PER_WRITE)

/-- A row with its place among the rows that were recorded. -/
abbrev NumberedRow := DrawIntegrityFindingRow × ℕ

/-- How far a drain has come. -/
inductive DrainStage where
  /-- Awaiting `append`. -/
  | appending (batch : List NumberedRow)
  /-- `append` has resolved; the drain goes on in a microtask. -/
  | appended (batch : List NumberedRow)
  /-- `append` has rejected; the drain goes on in a microtask. -/
  | refused (batch : List NumberedRow)
  /-- The drain has returned; the callback of its `finally` is a microtask. -/
  | ended
  deriving DecidableEq

/-- The rows that the drain holds and the table does not. -/
def DrainStage.batch : DrainStage → List NumberedRow
  | .appending batch => batch
  | .refused batch => batch
  | .appended _ => []
  | .ended => []

/-- Nothing of the drain waits in the microtask queue. -/
def DrainStage.isAppending : DrainStage → Bool
  | .appending _ => true
  | _ => false

/-- One call of `drain`. -/
structure Drain where
  /-- The promise that `flush` answers. -/
  id : ℕ
  /-- How far it has come. -/
  stage : DrainStage
  deriving DecidableEq

/-- How far a seed read has come. -/
inductive SeedStage where
  /-- Awaiting the drain that `flush` answered. -/
  | awaiting (drain : ℕ)
  /-- The query is on its way. -/
  | querying
  /-- The database has answered. -/
  | answered (found : DrawOpenFindings)

/-- One call of `loadOpen`. -/
structure SeedRead where
  /-- `tournamentId`. -/
  tournamentId : String
  /-- `drawId`. -/
  drawId : String
  /-- How many rows were recorded before the call. -/
  recorded : ℕ
  /-- How far it has come. -/
  stage : SeedStage

/-- The counters of `getStatus`. -/
structure FindingsStats where
  /-- Rows accepted into the queue. -/
  recorded : ℕ := 0
  /-- Rows written. -/
  written : ℕ := 0
  /-- Rows dropped. -/
  dropped : ℕ := 0
  /-- Writes that failed. -/
  writeFailures : ℕ := 0

/-- The service, the drains and reads in progress, the table and the history. -/
structure QueueState where
  /-- `queue`. -/
  queue : List NumberedRow := []
  /-- `flushing`: the shared drain. -/
  flushing : Option ℕ := none
  /-- `flushScheduled`. -/
  flushScheduled : Bool := false
  /-- `retryTimer` is set. -/
  retryTimer : Bool := false
  /-- `destroyed`. -/
  destroyed : Bool := false
  /-- `failingSince`. -/
  failingSince : ℕ := 0
  /-- `stats`. -/
  stats : FindingsStats := {}
  /-- The drains whose `finally` has not run yet. -/
  drains : List Drain := []
  /-- How many drains have begun. -/
  begun : ℕ := 0
  /-- The seed reads, in the order of their calls. -/
  reads : List SeedRead := []
  /-- `draw_integrity_findings`, by id. -/
  table : List DrawIntegrityFindingRow := []
  /-- Every row that `record` was given while the mode was not `off`. -/
  recorded : List DrawIntegrityFindingRow := []
  /-- The rows this process has written. -/
  stored : List NumberedRow := []
  /-- The rows that were counted as dropped. -/
  droppedRows : List NumberedRow := []

/-- The rows of the batch in flight, then those queued. -/
def QueueState.held (s : QueueState) : List NumberedRow :=
  s.drains.flatMap (·.stage.batch) ++ s.queue

/-- The process has just started over a table. -/
def QueueState.start (table : List DrawIntegrityFindingRow) : QueueState := { table := table }

/-! ## The service -/

/-- `recordDropped`. -/
def recordDropped (s : QueueState) (rows : List NumberedRow) : QueueState :=
  { s with
    stats := { s.stats with dropped := s.stats.dropped + rows.length }
    droppedRows := s.droppedRows ++ rows }

/-- `scheduleFlush`. -/
def scheduleFlush (s : QueueState) : QueueState := { s with flushScheduled := true }

/-- `record` of rows that are not empty, while the mode is not `off`. -/
def recordRows (s : QueueState) (rows : List DrawIntegrityFindingRow) : QueueState :=
  let room := MAX_QUEUED_FINDING_ROWS - s.queue.length
  let numbered := rows.zipIdx s.recorded.length
  let accepted := numbered.take room
  let counted := recordDropped { s with recorded := s.recorded ++ rows } (numbered.drop room)
  if accepted.isEmpty then counted
  else
    scheduleFlush { counted with
      queue := s.queue ++ accepted
      stats := { counted.stats with recorded := s.stats.recorded + accepted.length } }

/-- `record`. -/
def record (s : QueueState) (off : Bool) (rows : List DrawIntegrityFindingRow) : QueueState :=
  if rows.isEmpty || off then s else recordRows s rows

/-- The test of the drain's loop, and the next batch where it goes on. -/
def nextStage (queue : List NumberedRow) : DrainStage :=
  if queue.isEmpty then .ended else .appending (queue.take MAX_FINDING_ROWS_PER_WRITE)

/-- `flush`: a drain in progress is shared, and one that begins runs up to its first `await`. -/
def flush (s : QueueState) : QueueState :=
  match s.flushing with
  | some _ => s
  | none =>
    { s with
      flushing := some s.begun
      begun := s.begun + 1
      drains := s.drains ++ [⟨s.begun, nextStage s.queue⟩]
      queue := s.queue.drop MAX_FINDING_ROWS_PER_WRITE }

/-- The promise that `flush` answers. -/
def flushed (s : QueueState) : ℕ := s.flushing.getD s.begun

/-- The drains after one of them has moved on. -/
def moveDrain (drains : List Drain) (id : ℕ) (stage : DrainStage) : List Drain :=
  drains.map fun drain => if drain.id = id then { drain with stage := stage } else drain

/-- The drain goes on after a batch that was written. -/
def resumeWritten (s : QueueState) (id : ℕ) (batch : List NumberedRow) : QueueState :=
  { s with
    drains := moveDrain s.drains id (nextStage s.queue)
    queue := s.queue.drop MAX_FINDING_ROWS_PER_WRITE
    stats := { s.stats with written := s.stats.written + batch.length }
    failingSince := 0 }

/-- `scheduleRetry`. -/
def scheduleRetry (s : QueueState) : QueueState :=
  if s.retryTimer || s.destroyed then s else { s with retryTimer := true }

/-- The drain's `catch`: the batch goes back in front, and what is beyond the bound is
dropped. -/
def resumeRefused (s : QueueState) (id : ℕ) (batch : List NumberedRow) : QueueState :=
  let queue := batch ++ s.queue
  let requeued := recordDropped { s with
    drains := moveDrain s.drains id .ended
    queue := queue.take MAX_QUEUED_FINDING_ROWS } (queue.drop MAX_QUEUED_FINDING_ROWS)
  scheduleRetry { requeued with
    stats := { requeued.stats with writeFailures := s.stats.writeFailures + 1 }
    failingSince := s.failingSince + 1 }

/-- A drain goes on. -/
def resumeDrain (s : QueueState) (id : ℕ) : QueueState :=
  match s.drains.find? fun drain => drain.id = id with
  | some ⟨_, .appended batch⟩ => resumeWritten s id batch
  | some ⟨_, .refused batch⟩ => resumeRefused s id batch
  | _ => s

/-- `append` of the drain's batch is one statement: it writes all rows or none. -/
def settleAppend (s : QueueState) (id : ℕ) (written : Bool) : QueueState :=
  match s.drains.find? fun drain => drain.id = id with
  | some ⟨_, .appending batch⟩ =>
    if written then
      { s with
        drains := moveDrain s.drains id (.appended batch)
        table := s.table ++ batch.map Prod.fst
        stored := s.stored ++ batch }
    else { s with drains := moveDrain s.drains id (.refused batch) }
  | _ => s

/-- The callback of `finally`. -/
def finishDrain (s : QueueState) (id : ℕ) : QueueState :=
  match s.drains.find? fun drain => drain.id = id with
  | some ⟨_, .ended⟩ =>
    { s with
      flushing := none
      drains := s.drains.filter fun drain => drain.id ≠ id }
  | _ => s

/-- `loadOpen` up to its first `await`. -/
def loadOpen (s : QueueState) (tournamentId drawId : String) : QueueState :=
  let read : SeedRead := ⟨tournamentId, drawId, s.recorded.length, .awaiting (flushed s)⟩
  { flush s with reads := s.reads ++ [read] }

/-- The read goes on once the drain it awaits is over. -/
def resumeRead (s : QueueState) (read : SeedRead) : SeedRead :=
  match read.stage with
  | .awaiting id =>
    if s.drains.any fun drain => drain.id = id then read else { read with stage := .querying }
  | _ => read

/-- The database answers the read's query. -/
def answerRead (s : QueueState) (read : SeedRead) : SeedRead :=
  match read.stage with
  | .querying =>
    { read with stage := .answered (loadOpenFindings s.table read.tournamentId read.drawId) }
  | _ => read

/-- `onModuleDestroy` up to its first `await`. -/
def onModuleDestroy (s : QueueState) : QueueState :=
  flush { s with destroyed := true, retryTimer := false }

/-- No drain waits in the microtask queue: the next turn of the event loop may start. -/
def QueueState.quiet (s : QueueState) : Bool := s.drains.all (·.stage.isAppending)

/-! ## Steps -/

/-- What may happen next. -/
inductive QueueAction where
  /-- `record` is called; the mode is `off` or not. -/
  | record (off : Bool) (rows : List DrawIntegrityFindingRow)
  /-- `loadOpen` is called. -/
  | loadOpen (tournamentId drawId : String)
  /-- `flush` is called. -/
  | flush
  /-- The immediate of `scheduleFlush` runs. -/
  | immediate
  /-- The retry timer fires. -/
  | retry
  /-- The `append` of a drain settles. -/
  | settle (id : ℕ) (written : Bool)
  /-- A drain goes on after its `append`. -/
  | resume (id : ℕ)
  /-- The `finally` of a drain runs. -/
  | finish (id : ℕ)
  /-- A read goes on after its flush. -/
  | resumeRead (read : ℕ)
  /-- The database answers a read. -/
  | query (read : ℕ)
  /-- The module is destroyed. -/
  | destroy
  /-- Another process writes rows. -/
  | elsewhere (rows : List DrawIntegrityFindingRow)

/-- One step. The microtasks of a turn run before the next turn starts. -/
def step (s : QueueState) : QueueAction → QueueState
  | .record off rows => record s off rows
  | .loadOpen tournamentId drawId => loadOpen s tournamentId drawId
  | .flush => flush s
  | .immediate =>
    if s.flushScheduled && s.quiet then flush { s with flushScheduled := false } else s
  | .retry => if s.retryTimer && s.quiet then flush { s with retryTimer := false } else s
  | .settle id written => settleAppend s id written
  | .resume id => resumeDrain s id
  | .finish id => finishDrain s id
  | .resumeRead read => { s with reads := s.reads.modify read (resumeRead s) }
  | .query read => { s with reads := s.reads.modify read (answerRead s) }
  | .destroy => onModuleDestroy s
  | .elsewhere rows => { s with table := s.table ++ rows }

/-! ## What a step moves -/

/-- The rows that a step records, with their places. -/
def incoming (s : QueueState) : QueueAction → List NumberedRow
  | .record off rows => if rows.isEmpty || off then [] else rows.zipIdx s.recorded.length
  | _ => []

/-- Rows move from the end of the service to storage in order; what is dropped is at the
end. -/
structure Moves (s s' : QueueState) (rows : List NumberedRow) (dropped : List NumberedRow) :
    Prop where
  /-- What was stored, held and recorded is stored, held and dropped. -/
  kept : s'.stored ++ s'.held ++ dropped = s.stored ++ s.held ++ rows
  /-- The dropped rows. -/
  droppedRows : s'.droppedRows = s.droppedRows ++ dropped
  /-- They are counted. -/
  counted : s'.stats.dropped = s.stats.dropped + dropped.length
  /-- The rows recorded. -/
  recorded : s'.recorded.zipIdx = s.recorded.zipIdx ++ rows

/-- The only drain is the one whose promise is shared. -/
def Shared (s : QueueState) : Prop := s.drains.map (·.id) = s.flushing.toList

/-- No drain is in progress, or one is. -/
theorem Shared.cases {s : QueueState} (h : Shared s) :
    s.drains = [] ∧ s.flushing = none ∨
      ∃ id stage, s.drains = [⟨id, stage⟩] ∧ s.flushing = some id := by
  rw [Shared] at h
  cases hflushing : s.flushing with
  | none =>
    rw [hflushing] at h
    exact .inl ⟨List.map_eq_nil_iff.mp h, rfl⟩
  | some id =>
    rw [hflushing] at h
    obtain ⟨drain, hdrains, hid⟩ := List.map_eq_singleton_iff.mp h
    exact .inr ⟨id, drain.stage, by rw [hdrains, ← hid], rfl⟩

/-- The drain that is found is the only one. -/
theorem Shared.drains_of_find {s : QueueState} (h : Shared s) {id : ℕ} {drain : Drain}
    (hfind : (s.drains.find? fun drain => drain.id = id) = some drain) :
    s.drains = [drain] ∧ drain.id = id ∧ s.flushing = some id := by
  have hid : drain.id = id := by simpa using List.find?_some hfind
  have hmem := List.mem_of_find?_eq_some hfind
  obtain ⟨hnone, -⟩ | ⟨found, stage, hdrains, hflushing⟩ := h.cases
  · rw [hnone] at hmem
    cases hmem
  · rw [hdrains, List.mem_singleton] at hmem
    rw [hmem] at hid ⊢
    exact ⟨hdrains, hid, by rw [hflushing, ← hid]⟩

/-- A drain's next look leaves the rows where they are in the order. -/
theorem batch_nextStage (queue : List NumberedRow) :
    (nextStage queue).batch ++ queue.drop MAX_FINDING_ROWS_PER_WRITE = queue := by
  rw [nextStage]
  cases queue with
  | nil => rfl
  | cons first rest => exact List.take_append_drop MAX_FINDING_ROWS_PER_WRITE (first :: rest)

/-- What a step without incoming and dropped rows has to keep. -/
theorem moves_of_eq {s s' : QueueState} (hkept : s'.stored ++ s'.held = s.stored ++ s.held)
    (hdropped : s'.droppedRows = s.droppedRows) (hstats : s'.stats.dropped = s.stats.dropped)
    (hrecorded : s'.recorded = s.recorded) : Moves s s' [] [] where
  kept := by rw [List.append_nil, List.append_nil, hkept]
  droppedRows := by rw [hdropped, List.append_nil]
  counted := hstats
  recorded := by rw [hrecorded, List.append_nil]

/-- A flush moves no row past another. -/
theorem moves_flush (s : QueueState) : Moves s (flush s) [] [] := by
  rw [flush]
  split
  · exact moves_of_eq rfl rfl rfl rfl
  · have hheld : (s.drains ++ [Drain.mk s.begun (nextStage s.queue)]).flatMap
        (fun drain => drain.stage.batch) ++ s.queue.drop MAX_FINDING_ROWS_PER_WRITE = s.held := by
      rw [List.flatMap_append, List.flatMap_singleton, List.append_assoc, batch_nextStage]
      rfl
    exact moves_of_eq (congrArg (s.stored ++ ·) hheld) rfl rfl rfl

/-- `record` accepts what there is room for and drops the rest. -/
theorem moves_record (s : QueueState) (off : Bool) (rows : List DrawIntegrityFindingRow) :
    ∃ dropped, Moves s (record s off rows) (incoming s (.record off rows)) dropped := by
  rw [record, incoming]
  split
  · exact ⟨[], moves_of_eq rfl rfl rfl rfl⟩
  · set room := MAX_QUEUED_FINDING_ROWS - s.queue.length with hroom
    set numbered := rows.zipIdx s.recorded.length with hnumbered
    have hsplit := List.take_append_drop room numbered
    have hrecorded : (s.recorded ++ rows).zipIdx = s.recorded.zipIdx ++ numbered := by
      rw [List.zipIdx_append, Nat.zero_add]
    refine ⟨numbered.drop room, ?_⟩
    rw [recordRows]
    simp only [← hroom, ← hnumbered]
    split
    next hempty =>
      rw [List.isEmpty_iff] at hempty
      rw [hempty, List.nil_append] at hsplit
      exact ⟨congrArg (s.stored ++ s.held ++ ·) hsplit, rfl, rfl, hrecorded⟩
    next =>
      refine ⟨?_, rfl, rfl, hrecorded⟩
      have hheld : s.held ++ numbered.take room = s.drains.flatMap (·.stage.batch) ++
          (s.queue ++ numbered.take room) := List.append_assoc _ _ _
      calc s.stored ++ (s.drains.flatMap (·.stage.batch) ++ (s.queue ++ numbered.take room)) ++
            numbered.drop room
          = s.stored ++ (s.held ++ (numbered.take room ++ numbered.drop room)) := by
            rw [← hheld]; simp only [List.append_assoc]
        _ = s.stored ++ s.held ++ numbered := by rw [hsplit, List.append_assoc]

/-- The only drain moves on. -/
theorem moveDrain_single (id : ℕ) (before after : DrainStage) :
    moveDrain [⟨id, before⟩] id after = [⟨id, after⟩] := by
  simp [moveDrain]

/-- The rows held next to one drain. -/
theorem held_single {s : QueueState} {d : Drain} (hdrains : s.drains = [d]) :
    s.held = d.stage.batch ++ s.queue := by
  rw [QueueState.held, hdrains, List.flatMap_singleton]

/-- A batch that is written moves from those held to those stored. -/
theorem moves_settle {s : QueueState} (hshared : Shared s) (id : ℕ) (written : Bool) :
    Moves s (settleAppend s id written) [] [] := by
  rw [settleAppend]
  split
  next found batch hfind =>
    obtain ⟨hdrains, rfl, -⟩ := hshared.drains_of_find hfind
    have hheld : s.held = batch ++ s.queue := held_single hdrains
    cases written with
    | true =>
      refine moves_of_eq ?_ rfl rfl rfl
      simp only [if_true]
      rw [held_single (d := ⟨found, .appended batch⟩) (by rw [hdrains, moveDrain_single]),
        hheld]
      exact List.append_assoc _ _ _
    | false =>
      refine moves_of_eq ?_ rfl rfl rfl
      simp only [Bool.false_eq_true, if_false]
      rw [held_single (d := ⟨found, .refused batch⟩) (by rw [hdrains, moveDrain_single]),
        hheld]
      rfl
  next => exact moves_of_eq rfl rfl rfl rfl

/-- `scheduleRetry` moves no row. -/
theorem scheduleRetry_eq (s : QueueState) :
    scheduleRetry s = { s with retryTimer := s.retryTimer || !s.destroyed } := by
  rw [scheduleRetry]
  split
  next hset =>
    have hsame : (s.retryTimer || !s.destroyed) = s.retryTimer := by
      revert hset
      cases s.retryTimer <;> cases s.destroyed <;> simp
    rw [hsame]
  next hunset =>
    have hset : (s.retryTimer || !s.destroyed) = true := by
      revert hunset
      cases s.retryTimer <;> cases s.destroyed <;> simp
    rw [hset]

/-- A drain that goes on takes the next batch, or puts its batch back within the bound. -/
theorem moves_resume {s : QueueState} (hshared : Shared s) (id : ℕ) :
    ∃ dropped, Moves s (resumeDrain s id) [] dropped := by
  rw [resumeDrain]
  split
  next found batch hfind =>
    obtain ⟨hdrains, rfl, -⟩ := hshared.drains_of_find hfind
    have hafter : (resumeWritten s found batch).held = s.held := by
      have hmoved : (resumeWritten s found batch).drains = [⟨found, nextStage s.queue⟩] := by
        rw [resumeWritten, hdrains, moveDrain_single]
      rw [held_single hmoved, held_single hdrains]
      exact batch_nextStage s.queue
    exact ⟨[], moves_of_eq (congrArg (s.stored ++ ·) hafter) rfl rfl rfl⟩
  next found batch hfind =>
    obtain ⟨hdrains, rfl, -⟩ := hshared.drains_of_find hfind
    have hmoved : (resumeRefused s found batch).drains = [⟨found, .ended⟩] := by
      rw [resumeRefused, scheduleRetry_eq, hdrains]
      exact moveDrain_single found _ _
    have hqueue : (resumeRefused s found batch).queue =
        (batch ++ s.queue).take MAX_QUEUED_FINDING_ROWS := by
      rw [resumeRefused, scheduleRetry_eq]
      rfl
    refine ⟨(batch ++ s.queue).drop MAX_QUEUED_FINDING_ROWS, ?_⟩
    rw [resumeRefused, scheduleRetry_eq] at hmoved hqueue ⊢
    refine ⟨?_, rfl, rfl, (List.append_nil _).symm⟩
    rw [held_single hmoved, hqueue, held_single hdrains, List.append_nil]
    simp only [recordDropped, DrainStage.batch, List.nil_append]
    rw [List.append_assoc, List.take_append_drop]
  next => exact ⟨[], moves_of_eq rfl rfl rfl rfl⟩

/-- A drain that is over holds nothing. -/
theorem moves_finish {s : QueueState} (hshared : Shared s) (id : ℕ) :
    Moves s (finishDrain s id) [] [] := by
  rw [finishDrain]
  split
  next found hfind =>
    obtain ⟨hdrains, rfl, -⟩ := hshared.drains_of_find hfind
    refine moves_of_eq ?_ rfl rfl rfl
    have hafter : s.held = s.queue := held_single hdrains
    rw [hafter, QueueState.held, hdrains]
    simp
  next => exact moves_of_eq rfl rfl rfl rfl

/-- A flush that also changes a flag moves no row past another. -/
theorem moves_flags {s t : QueueState} (h : Moves t (flush t) [] [])
    (hrows : s.stored ++ s.held = t.stored ++ t.held) (hdropped : s.droppedRows = t.droppedRows)
    (hstats : s.stats = t.stats) (hrecorded : s.recorded = t.recorded) :
    Moves s (flush t) [] [] where
  kept := by rw [h.kept, hrows]
  droppedRows := by rw [h.droppedRows, hdropped]
  counted := by rw [h.counted, hstats]
  recorded := by rw [h.recorded, hrecorded]

/-- What one step does to the rows. -/
theorem moves_step {s : QueueState} (hshared : Shared s) (a : QueueAction) :
    ∃ dropped, Moves s (step s a) (incoming s a) dropped := by
  cases a with
  | record off rows => exact moves_record s off rows
  | loadOpen tournamentId drawId =>
    have hflush := moves_flush s
    exact ⟨[], ⟨hflush.kept, hflush.droppedRows, hflush.counted, hflush.recorded⟩⟩
  | flush => exact ⟨[], moves_flush s⟩
  | immediate =>
    refine ⟨[], ?_⟩
    simp only [step]
    split
    · exact moves_flags (moves_flush { s with flushScheduled := false }) rfl rfl rfl rfl
    · exact moves_of_eq rfl rfl rfl rfl
  | retry =>
    refine ⟨[], ?_⟩
    simp only [step]
    split
    · exact moves_flags (moves_flush { s with retryTimer := false }) rfl rfl rfl rfl
    · exact moves_of_eq rfl rfl rfl rfl
  | settle id written => exact ⟨[], moves_settle hshared id written⟩
  | resume id => exact moves_resume hshared id
  | finish id => exact ⟨[], moves_finish hshared id⟩
  | resumeRead read => exact ⟨[], moves_of_eq rfl rfl rfl rfl⟩
  | query read => exact ⟨[], moves_of_eq rfl rfl rfl rfl⟩
  | destroy =>
    have hflush := moves_flush { s with destroyed := true, retryTimer := false }
    exact ⟨[], moves_flags hflush rfl rfl rfl rfl⟩
  | elsewhere rows => exact ⟨[], moves_of_eq rfl rfl rfl rfl⟩

/-! ## One drain -/

/-- A flush begins a drain only where none is shared. -/
theorem shared_flush {s : QueueState} (h : Shared s) : Shared (flush s) := by
  rw [flush]
  split
  · exact h
  next hnone =>
    have hdrains : s.drains.map (·.id) = [] := by rw [h, hnone]; rfl
    rw [Shared, List.map_append, hdrains]
    rfl

/-- A drain that moves on keeps its promise. -/
theorem ids_moveDrain (drains : List Drain) (id : ℕ) (stage : DrainStage) :
    (moveDrain drains id stage).map (·.id) = drains.map (·.id) := by
  rw [moveDrain, List.map_map]
  refine List.map_congr_left fun drain _ => ?_
  rw [Function.comp_apply]
  split <;> rfl

/-- Every step leaves at most one drain, the shared one. -/
theorem shared_step {s : QueueState} (h : Shared s) (a : QueueAction) : Shared (step s a) := by
  have hmoved : ∀ id stage, (moveDrain s.drains id stage).map (·.id) = s.flushing.toList :=
    fun id stage => (ids_moveDrain s.drains id stage).trans h
  cases a with
  | record off rows =>
    simp only [step, record]
    split
    · exact h
    · rw [recordRows]
      split <;> exact h
  | loadOpen tournamentId drawId =>
    have hflush := shared_flush h
    exact hflush
  | flush => exact shared_flush h
  | immediate =>
    simp only [step]
    split
    · have hunset : Shared { s with flushScheduled := false } := h
      exact shared_flush hunset
    · exact h
  | retry =>
    simp only [step]
    split
    · have hunset : Shared { s with retryTimer := false } := h
      exact shared_flush hunset
    · exact h
  | settle id written =>
    simp only [step, settleAppend]
    split
    · split
      · exact hmoved id _
      · exact hmoved id _
    · exact h
  | resume id =>
    simp only [step, resumeDrain]
    split
    · exact hmoved id _
    · rw [resumeRefused, scheduleRetry_eq]
      exact hmoved id _
    · exact h
  | finish id =>
    simp only [step, finishDrain]
    split
    next found hfind =>
      obtain ⟨hdrains, rfl, -⟩ := h.drains_of_find hfind
      rw [Shared, hdrains]
      simp
    next => exact h
  | resumeRead read => exact h
  | query read => exact h
  | destroy =>
    have hdestroyed : Shared { s with destroyed := true, retryTimer := false } := h
    exact shared_flush hdestroyed
  | elsewhere rows => exact h

/-! ## The bound and the next flush -/

/-- The queue is within its bound. -/
def Bounded (s : QueueState) : Prop := s.queue.length ≤ MAX_QUEUED_FINDING_ROWS

/-- A flush takes rows from the queue. -/
theorem bounded_flush {s : QueueState} (h : Bounded s) : Bounded (flush s) := by
  rw [flush]
  split
  · exact h
  · rw [Bounded, List.length_drop]
    exact (Nat.sub_le _ _).trans h

/-- Every step keeps the queue within its bound. -/
theorem bounded_step {s : QueueState} (h : Bounded s) (a : QueueAction) : Bounded (step s a) := by
  cases a with
  | record off rows =>
    simp only [step, record]
    split
    · exact h
    · rw [recordRows]
      split
      · exact h
      · simp only [Bounded, scheduleFlush, List.length_append, List.length_take]
        have hbound : s.queue.length ≤ MAX_QUEUED_FINDING_ROWS := h
        omega
  | loadOpen tournamentId drawId => exact bounded_flush h
  | flush => exact bounded_flush h
  | immediate =>
    simp only [step]
    split
    · have hunset : Bounded { s with flushScheduled := false } := h
      exact bounded_flush hunset
    · exact h
  | retry =>
    simp only [step]
    split
    · have hunset : Bounded { s with retryTimer := false } := h
      exact bounded_flush hunset
    · exact h
  | settle id written =>
    simp only [step, settleAppend]
    split
    · split <;> exact h
    · exact h
  | resume id =>
    simp only [step, resumeDrain]
    split
    · rw [resumeWritten, Bounded, List.length_drop]
      exact (Nat.sub_le _ _).trans h
    · rw [resumeRefused, scheduleRetry_eq, Bounded]
      exact List.length_take_le _ _
    · exact h
  | finish id =>
    simp only [step, finishDrain]
    split <;> exact h
  | resumeRead read => exact h
  | query read => exact h
  | destroy =>
    have hdestroyed : Bounded { s with destroyed := true, retryTimer := false } := h
    exact bounded_flush hdestroyed
  | elsewhere rows => exact h

/-- A flush is scheduled, running or awaiting its retry timer. -/
def FlushAhead (s : QueueState) : Prop :=
  s.flushScheduled = true ∨ (∃ drain ∈ s.drains, drain.stage ≠ .ended) ∨ s.retryTimer = true

/-- Queued rows are not left behind. -/
def Alive (s : QueueState) : Prop := s.destroyed = false → s.queue ≠ [] → FlushAhead s

/-- A drain that finds more rows than it takes is running. -/
theorem running_of_rest {queue : List NumberedRow}
    (h : queue.drop MAX_FINDING_ROWS_PER_WRITE ≠ []) : nextStage queue ≠ .ended := by
  cases queue with
  | nil => exact absurd List.drop_nil h
  | cons first rest => exact fun heq => DrainStage.noConfusion heq

/-- After a flush that begins a drain, or shares one that is running, rows are not left
behind. -/
theorem alive_flush {s : QueueState} (h : s.flushing ≠ none → Alive s) : Alive (flush s) := by
  rw [flush]
  split
  next heq => exact h (by rw [heq]; exact Option.some_ne_none _)
  next =>
    intro _ hrest
    refine .inr (.inl ⟨⟨s.begun, nextStage s.queue⟩, ?_, running_of_rest hrest⟩)
    exact List.mem_append_right _ (List.mem_singleton_self _)

/-- In a new turn of the event loop the shared drain is running. -/
theorem running_of_quiet {s : QueueState} (hshared : Shared s) (hquiet : s.quiet = true)
    (hflushing : s.flushing ≠ none) : ∃ drain ∈ s.drains, drain.stage ≠ .ended := by
  obtain ⟨-, hnone⟩ | ⟨id, stage, hdrains, -⟩ := hshared.cases
  · exact absurd hnone hflushing
  · have hmem : (⟨id, stage⟩ : Drain) ∈ s.drains := hdrains ▸ List.mem_singleton_self _
    refine ⟨⟨id, stage⟩, hmem, fun heq => ?_⟩
    have happending := List.all_eq_true.mp hquiet _ hmem
    rw [heq] at happending
    cases happending

/-- Every step leaves a flush ahead of the queued rows. -/
theorem alive_step {s : QueueState} (hshared : Shared s) (h : Alive s) (a : QueueAction) :
    Alive (step s a) := by
  cases a with
  | record off rows =>
    simp only [step, record]
    split
    · exact h
    · rw [recordRows]
      split
      · exact h
      · exact fun _ _ => .inl rfl
  | loadOpen tournamentId drawId =>
    have hflush := alive_flush fun _ => h
    exact hflush
  | flush => exact alive_flush fun _ => h
  | immediate =>
    simp only [step]
    split
    next hset =>
      rw [Bool.and_eq_true] at hset
      exact alive_flush fun hflushing _ _ => .inr (.inl (running_of_quiet hshared hset.2 hflushing))
    next => exact h
  | retry =>
    simp only [step]
    split
    next hset =>
      rw [Bool.and_eq_true] at hset
      exact alive_flush fun hflushing _ _ => .inr (.inl (running_of_quiet hshared hset.2 hflushing))
    next => exact h
  | settle id written =>
    simp only [step, settleAppend]
    split
    next found batch hfind =>
      obtain ⟨hdrains, rfl, -⟩ := hshared.drains_of_find hfind
      split
      · refine fun _ _ => .inr (.inl ⟨⟨found, .appended batch⟩, ?_, DrainStage.noConfusion⟩)
        rw [hdrains, moveDrain_single]
        exact List.mem_singleton_self _
      · refine fun _ _ => .inr (.inl ⟨⟨found, .refused batch⟩, ?_, DrainStage.noConfusion⟩)
        rw [hdrains, moveDrain_single]
        exact List.mem_singleton_self _
    next => exact h
  | resume id =>
    simp only [step, resumeDrain]
    split
    next found batch hfind =>
      obtain ⟨hdrains, rfl, -⟩ := hshared.drains_of_find hfind
      refine fun _ hrest => .inr (.inl ⟨⟨found, nextStage s.queue⟩, ?_, running_of_rest hrest⟩)
      rw [resumeWritten, hdrains, moveDrain_single]
      exact List.mem_singleton_self _
    next =>
      rw [resumeRefused, scheduleRetry_eq]
      intro hdestroyed _
      have hnot : s.destroyed = false := hdestroyed
      refine .inr (.inr ?_)
      simp [recordDropped, hnot]
    next => exact h
  | finish id =>
    simp only [step, finishDrain]
    split
    next found hfind =>
      obtain ⟨hdrains, rfl, -⟩ := hshared.drains_of_find hfind
      intro hdestroyed hqueue
      obtain hscheduled | ⟨drain, hmem, hrunning⟩ | hretry := h hdestroyed hqueue
      · exact .inl hscheduled
      · rw [hdrains, List.mem_singleton] at hmem
        rw [hmem] at hrunning
        exact absurd rfl hrunning
      · exact .inr (.inr hretry)
    next => exact h
  | resumeRead read => exact h
  | query read => exact h
  | destroy =>
    have hdestroyed : (onModuleDestroy s).destroyed = true := by
      rw [onModuleDestroy, flush]
      split <;> rfl
    intro hnot
    rw [step, hdestroyed] at hnot
    cases hnot
  | elsewhere rows => exact h

/-! ## The rows of a run -/

/-- The rows that the calls of `record` were given. -/
def passedRows (actions : List QueueAction) : List DrawIntegrityFindingRow :=
  actions.flatMap fun
    | .record _ rows => rows
    | _ => []

/-- The rows that the calls of `record` were given while the mode was not `off`. -/
def recordedRows (actions : List QueueAction) : List DrawIntegrityFindingRow :=
  actions.flatMap fun
    | .record false rows => rows
    | _ => []

/-- The rows `given` are stored, held or counted as dropped, each of them once, and those
stored and held are in the order in which they were given. -/
structure RowsKept (given : List DrawIntegrityFindingRow) (s : QueueState) : Prop where
  /-- The rows stored, in flight and queued are in order. -/
  ordered : (s.stored ++ s.held).Sublist given.zipIdx
  /-- The table has the stored rows in this order. -/
  written : (s.stored.map Prod.fst).Sublist s.table
  /-- Each row is exactly one of stored, held and dropped. -/
  conserved : (s.stored ++ s.held ++ s.droppedRows).Perm given.zipIdx
  /-- The dropped rows are counted. -/
  counted : s.stats.dropped = s.droppedRows.length

/-- What holds of the findings queue. -/
structure QueueKept (given : List DrawIntegrityFindingRow) (s : QueueState) : Prop
    extends RowsKept given s where
  /-- The queue is within its bound. -/
  bounded : s.queue.length ≤ MAX_QUEUED_FINDING_ROWS
  /-- At most one drain is in progress. -/
  oneDrain : s.drains.length ≤ 1
  /-- Queued rows have a flush ahead of them. -/
  alive : Alive s

/-- The rows that a step drops were recorded after every row that is still held. -/
def NewestDropped (s : QueueState) (a : QueueAction) : Prop :=
  ∃ dropped, (step s a).droppedRows = s.droppedRows ++ dropped ∧
    ∀ row ∈ dropped, ∀ other ∈ (step s a).held, other.2 < row.2

/-- A flush writes nothing by itself. -/
theorem flush_storage (s : QueueState) :
    (flush s).stored = s.stored ∧ (flush s).table = s.table ∧ (flush s).recorded = s.recorded := by
  rw [flush]
  split <;> exact ⟨rfl, rfl, rfl⟩

/-- What a step stores it writes to the end of the table. -/
theorem written_step {s : QueueState} (h : (s.stored.map Prod.fst).Sublist s.table)
    (a : QueueAction) : ((step s a).stored.map Prod.fst).Sublist (step s a).table := by
  have hflush : ∀ t : QueueState, t.stored = s.stored → t.table = s.table →
      ((flush t).stored.map Prod.fst).Sublist (flush t).table := by
    intro t hstored htable
    rw [(flush_storage t).1, (flush_storage t).2.1, hstored, htable]
    exact h
  cases a with
  | record off rows =>
    simp only [step, record]
    split
    · exact h
    · rw [recordRows]
      split <;> exact h
  | loadOpen tournamentId drawId =>
    have hloaded := hflush s rfl rfl
    exact hloaded
  | flush => exact hflush s rfl rfl
  | immediate =>
    simp only [step]
    split
    · exact hflush _ rfl rfl
    · exact h
  | retry =>
    simp only [step]
    split
    · exact hflush _ rfl rfl
    · exact h
  | settle id written =>
    simp only [step, settleAppend]
    split
    · split
      · rw [List.map_append]
        exact h.append (List.Sublist.refl _)
      · exact h
    · exact h
  | resume id =>
    simp only [step, resumeDrain]
    split
    · exact h
    · rw [resumeRefused, scheduleRetry_eq]
      exact h
    · exact h
  | finish id =>
    simp only [step, finishDrain]
    split <;> exact h
  | resumeRead read => exact h
  | query read => exact h
  | destroy => exact hflush _ rfl rfl
  | elsewhere rows => exact h.trans (List.sublist_append_left _ _)

/-- The places of recorded rows increase. -/
theorem places_increase (rows : List DrawIntegrityFindingRow) :
    rows.zipIdx.Pairwise fun row other => row.2 < other.2 := by
  have hplaces : (rows.zipIdx.map Prod.snd).Pairwise (· < ·) := by
    rw [List.zipIdx_map_snd]
    exact List.pairwise_lt_range'
  exact List.pairwise_map.mp hplaces

/-- What a step keeps of the rows. -/
theorem rowsKept_moves {s s' : QueueState} {rows dropped : List NumberedRow}
    (h : RowsKept s.recorded s) (hmoves : Moves s s' rows dropped)
    (hwritten : (s'.stored.map Prod.fst).Sublist s'.table) : RowsKept s'.recorded s' where
  ordered := by
    have hall : (s'.stored ++ s'.held ++ dropped).Sublist s'.recorded.zipIdx := by
      rw [hmoves.kept, hmoves.recorded]
      exact h.ordered.append (List.Sublist.refl rows)
    exact (List.sublist_append_left _ dropped).trans hall
  written := hwritten
  conserved := by
    have hswap : (s.droppedRows ++ dropped).Perm (dropped ++ s.droppedRows) :=
      List.perm_append_comm
    have hend : (rows ++ s.droppedRows).Perm (s.droppedRows ++ rows) := List.perm_append_comm
    rw [hmoves.droppedRows, hmoves.recorded]
    refine (hswap.append_left _).trans ?_
    rw [← List.append_assoc, hmoves.kept, List.append_assoc]
    refine (hend.append_left _).trans ?_
    rw [← List.append_assoc]
    exact h.conserved.append_right rows
  counted := by rw [hmoves.counted, h.counted, hmoves.droppedRows, List.length_append]

/-- What a step drops is newer than what it holds. -/
theorem newest_of_moves {s s' : QueueState} {rows dropped : List NumberedRow}
    (h : RowsKept s.recorded s) (hmoves : Moves s s' rows dropped) :
    ∀ row ∈ dropped, ∀ other ∈ s'.held, other.2 < row.2 := by
  have hall : (s'.stored ++ s'.held ++ dropped).Sublist s'.recorded.zipIdx := by
    rw [hmoves.kept, hmoves.recorded]
    exact h.ordered.append (List.Sublist.refl rows)
  have hplaces := (places_increase s'.recorded).sublist hall
  intro row hrow other hother
  exact (List.pairwise_append.mp hplaces).2.2 other (List.mem_append_right _ hother) row hrow

/-- What holds of the service in every run. -/
structure ServiceKept (s : QueueState) : Prop extends RowsKept s.recorded s where
  /-- The only drain is the shared one. -/
  shared : Shared s
  /-- The queue is within its bound. -/
  bounded : Bounded s
  /-- Queued rows have a flush ahead of them. -/
  alive : Alive s

/-- Every step keeps it. -/
theorem serviceKept_step (s : QueueState) (a : QueueAction) (h : ServiceKept s) :
    ServiceKept (step s a) := by
  obtain ⟨dropped, hmoves⟩ := moves_step h.shared a
  have hrows := rowsKept_moves h.toRowsKept hmoves (written_step h.written a)
  exact ⟨hrows, shared_step h.shared a, bounded_step h.bounded a, alive_step h.shared h.alive a⟩

/-- It holds at the start. -/
theorem serviceKept_start (table : List DrawIntegrityFindingRow) :
    ServiceKept (QueueState.start table) where
  ordered := List.Sublist.refl []
  written := List.nil_sublist table
  conserved := List.Perm.refl []
  counted := rfl
  shared := rfl
  bounded := Nat.zero_le _
  alive := fun _ hqueue => absurd rfl hqueue

/-- What one step records. -/
theorem recorded_step {s : QueueState} (hshared : Shared s) (a : QueueAction) :
    (step s a).recorded = s.recorded ++ recordedRows [a] := by
  obtain ⟨dropped, hmoves⟩ := moves_step hshared a
  have hrows : (incoming s a).map Prod.fst = recordedRows [a] := by
    cases a with
    | record off rows =>
      rw [incoming]
      cases off with
      | true => simp [recordedRows]
      | false =>
        cases rows with
        | nil => rfl
        | cons first rest => simp [recordedRows, List.zipIdx_map_fst]
    | _ => rfl
  have hmapped := congrArg (List.map Prod.fst) hmoves.recorded
  rw [List.map_append, List.zipIdx_map_fst, List.zipIdx_map_fst, hrows] at hmapped
  exact hmapped

/-- What a run records. -/
theorem recorded_run {s : QueueState} (h : ServiceKept s) (actions : List QueueAction) :
    (run step s actions).recorded = s.recorded ++ recordedRows actions := by
  induction actions generalizing s with
  | nil => exact (List.append_nil _).symm
  | cons a rest ih =>
    have hsplit : recordedRows (a :: rest) = recordedRows [a] ++ recordedRows rest := by
      rw [recordedRows, ← List.singleton_append, List.flatMap_append]
      rfl
    have hrest := ih (serviceKept_step s a h)
    rw [recorded_step h.shared a, List.append_assoc, ← hsplit] at hrest
    exact hrest

/-- In every run the rows recorded while the mode is not `off` are conserved, in order and
within the bound, what is dropped is the newest, drains do not overlap, and queued rows
have a flush ahead of them. -/
theorem findings_conserved (table : List DrawIntegrityFindingRow) (actions : List QueueAction) :
    QueueKept (recordedRows actions) (run step (QueueState.start table) actions) ∧
      ∀ a, NewestDropped (run step (QueueState.start table) actions) a := by
  have hstart := serviceKept_start table
  have hkept := run_always serviceKept_step actions hstart
  have hrecorded : (run step (QueueState.start table) actions).recorded = recordedRows actions :=
    recorded_run hstart actions
  set s := run step (QueueState.start table) actions
  constructor
  · have hrows := hkept.toRowsKept
    rw [hrecorded] at hrows
    have hdrains : s.drains.length ≤ 1 := by
      obtain ⟨hnone, -⟩ | ⟨id, stage, hone, -⟩ := hkept.shared.cases
      · rw [hnone]; exact Nat.zero_le 1
      · rw [hone]; exact Nat.le_refl 1
    exact ⟨hrows, hkept.bounded, hdrains, hkept.alive⟩
  · intro a
    obtain ⟨dropped, hmoves⟩ := moves_step hkept.shared a
    exact ⟨dropped, hmoves.droppedRows, newest_of_moves hkept.toRowsKept hmoves⟩

/-- A finding of a draw. -/
def sampleRow : DrawIntegrityFindingRow where
  fingerprint := "f"
  code := "MISSING_POSITION"
  severity := "error"
  structureId := none
  matchUpId := none
  tournamentId := "t"
  drawId := "d"
  event := .introduced
  methods := ["setMatchUpStatus"]
  observedAt := 0

/-- A row that is passed while the mode is `off` is neither stored, queued nor counted. -/
theorem row_ignored :
    ¬ ∀ (table : List DrawIntegrityFindingRow) (actions : List QueueAction),
      QueueKept (passedRows actions) (run step (QueueState.start table) actions) ∧
        ∀ a, NewestDropped (run step (QueueState.start table) actions) a := by
  intro h
  have hconserved := (h [] [.record true [sampleRow]]).1.conserved.length_eq
  have hnone : 0 = 1 := hconserved
  exact absurd hnone (by decide)

end FactoryServer.FindingsQueue
