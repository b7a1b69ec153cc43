import FactoryServer.InsertionMaps
import FactoryServer.PrimaryKeys
import FactoryServer.PromiseJobs
import Mathlib.Data.List.Sort

/-!
# Integrity scans of the touched draws

A mutation schedules one scan for each draw it touched, on later turns of the event
loop. A scan diffs the draw's findings against the set this process remembers, which
is read back from the findings table when the process does not hold it, and records
the changes. The scans of one draw chain behind a read that is in flight. Rows are
queued and written in batches.
-/

namespace FactoryServer.IntegrityScans

open InsertionMaps PrimaryKeys PromiseJobs

/-! ## Findings -/

/-- What `toIntegrityIssue` reads of an inconsistency. -/
structure IntegrityIssue where
  /-- `issueType`. -/
  issueType : String
  /-- `severity`. -/
  severity : String
  /-- `message`. -/
  message : String
  /-- `structureId`. -/
  structureId : Option String
  /-- `matchUpId`. -/
  matchUpId : Option String
  /-- The fingerprint of the factory. -/
  fingerprint : Option String

/-- One finding of a draw's open set. -/
structure OpenDrawFinding where
  /-- What identifies the finding within its draw. -/
  fingerprint : String
  /-- The issue type. -/
  code : String
  /-- `severity`. -/
  severity : String
  /-- `structureId`. -/
  structureId : Option String
  /-- `matchUpId`. -/
  matchUpId : Option String
  deriving DecidableEq

/-- What happened to one finding of one draw. -/
inductive FindingEvent where
  | introduced
  | baseline
  | resolved
  deriving DecidableEq

/-- One change in a draw's finding set. -/
structure DrawIntegrityFindingRow extends OpenDrawFinding where
  /-- `tournament_id`. -/
  tournamentId : String
  /-- `draw_id`. -/
  drawId : String
  /-- `event`. -/
  event : FindingEvent
  /-- The methods of the mutation. -/
  methods : List String
  /-- When the scan observed the change. -/
  observedAt : ℕ
  deriving DecidableEq

/-- The factory's scan of a draw and the hash of the server. -/
structure DrawScanner (D : Type) where
  /-- `getDrawInconsistencies`: `none` where it throws, answers an error or answers no array. -/
  getDrawInconsistencies : D → String → Option (List IntegrityIssue)
  /-- The first 32 digits of `sha256`. -/
  sha256 : String → String

variable {D : Type}

/-- What identifies an issue: an issue without a fingerprint is located instead. -/
def fingerprintOf (scanner : DrawScanner D) (issue : IntegrityIssue) : String :=
  (issue.fingerprint.filter (· ≠ "")).getD <|
    "unfingerprinted:" ++ scanner.sha256 ("|".intercalate
      [issue.issueType, issue.structureId.getD "", issue.matchUpId.getD "", issue.message])

/-- The finding of an issue. -/
def findingOf (scanner : DrawScanner D) (issue : IntegrityIssue) : OpenDrawFinding where
  fingerprint := fingerprintOf scanner issue
  code := issue.issueType
  severity := issue.severity
  structureId := issue.structureId
  matchUpId := issue.matchUpId

/-- A draw's findings by fingerprint, in the order of the map. -/
abbrev Fingerprints := List (String × OpenDrawFinding)

/-- `fingerprints.has(fingerprint)`. -/
def Fingerprints.has (fingerprints : Fingerprints) (fingerprint : String) : Bool :=
  fingerprint ∈ fingerprints.map Prod.fst

/-- `current`: the findings of one scan. -/
def currentOf (scanner : DrawScanner D) (issues : List IntegrityIssue) : Fingerprints :=
  mapOf (issues.map fun issue => (fingerprintOf scanner issue, findingOf scanner issue))

/-- The findings that a seed read gives back, as the memory holds them. -/
def fingerprintsOf (findings : List OpenDrawFinding) : Fingerprints :=
  mapOf (findings.map fun finding => (finding.fingerprint, finding))

/-! ## Draws -/

/-- A draw that a mutation touched. -/
structure DrawScanTarget (D : Type) where
  /-- `tournamentId`. -/
  tournamentId : String
  /-- `drawId`. -/
  drawId : String
  /-- The mutation's own draw definition. -/
  drawDefinition : D
  /-- The mutation created the draw. -/
  added : Bool

/-- A draw that a mutation deleted. -/
structure DeletedDraw where
  /-- `tournamentId`, where it is known. -/
  tournamentId : Option String
  /-- `drawId`. -/
  drawId : String

/-- The scans of one mutation. -/
structure DrawIntegrityBatch (D : Type) where
  /-- The names of its methods. -/
  methods : List String
  /-- The draws it touched. -/
  draws : List (DrawScanTarget D)
  /-- The draws it deleted. -/
  deleted : List DeletedDraw

/-- The key of a draw in the memory. -/
def memoryKey (tournamentId drawId : String) : String := tournamentId ++ ":" ++ drawId

/-- The key of a target. -/
def DrawScanTarget.key (target : DrawScanTarget D) : String :=
  memoryKey target.tournamentId target.drawId

/-- One scan that was scheduled. -/
structure ScheduledScan (D : Type) where
  /-- The draw. -/
  target : DrawScanTarget D
  /-- The methods of its mutation. -/
  methods : List String
  /-- The caller passed a findings sink. -/
  findings : Bool

/-- The key of the scan's draw. -/
def ScheduledScan.key (scan : ScheduledScan D) : String := scan.target.key

/-! ## The memory -/

/-- `MAX_TRACKED_DRAWS`. -/
def MAX_TRACKED_DRAWS : ℕ := 5000

/-- `MAX_PENDING_SCANS`. -/
def MAX_PENDING_SCANS : ℕ := 500

/-- `MAX_QUEUED_FINDING_ROWS`. -/
def MAX_QUEUED_FINDING_ROWS : ℕ := 5000

/-- `MAX_FINDING_ROWS_PER_WRITE`. -/
def MAX_FINDING_ROWS_PER_WRITE : ℕ := 500

/-- The last finding set of each draw, the least recently used first. -/
abbrev Memory := List (String × Fingerprints)

/-- `memory.get(key)`. -/
def Memory.get (memory : Memory) (key : String) : Option Fingerprints := memory.lookup key

/-- `memory.delete(key)`. -/
def Memory.delete (memory : Memory) (key : String) : Memory :=
  memory.filter fun entry => entry.1 ≠ key

/-- `recall`: a read makes the entry the most recently used one. -/
def recalling (memory : Memory) (key : String) : Memory :=
  match memory.get key with
  | some entry => memory.delete key ++ [(key, entry)]
  | none => memory

/-- `remember`: the oldest entries beyond the bound are evicted. -/
def remember (memory : Memory) (key : String) (entry : Fingerprints) : Memory :=
  let entries := memory.delete key ++ [(key, entry)]
  entries.drop (entries.length - MAX_TRACKED_DRAWS)

/-- `forgetDraw`: without a tournament, the draw id is dropped under every tournament. -/
def forgetDraw (memory : Memory) (deleted : DeletedDraw) : Memory :=
  match deleted.tournamentId with
  | some tournamentId => memory.delete (memoryKey tournamentId deleted.drawId)
  | none => memory.filter fun entry => !(":" ++ deleted.drawId).toList.isSuffixOf entry.1.toList

/-! ## The changes of a scan -/

/-- `changeRows`. -/
def changeRows (scan : ScheduledScan D) (observedAt : ℕ)
    (baseline introduced resolved : List OpenDrawFinding) : List DrawIntegrityFindingRow :=
  let row (event : FindingEvent) (finding : OpenDrawFinding) : DrawIntegrityFindingRow :=
    { finding with
      tournamentId := scan.target.tournamentId
      drawId := scan.target.drawId
      event := event
      methods := scan.methods
      observedAt := observedAt }
  baseline.map (row .baseline) ++ introduced.map (row .introduced) ++ resolved.map (row .resolved)

/-- The rows of a scan that found `current` where `previous` was known. -/
def scanRows (scan : ScheduledScan D) (observedAt : ℕ) (previous : Option Fingerprints)
    (current : Fingerprints) : List DrawIntegrityFindingRow :=
  match previous with
  | none => changeRows scan observedAt (current.map Prod.snd) [] []
  | some previous =>
    changeRows scan observedAt []
      ((current.map Prod.snd).filter fun finding => !previous.has finding.fingerprint)
      ((previous.map Prod.snd).filter fun finding => !Fingerprints.has current finding.fingerprint)

/-- The set a scan diffs against: a draw that its mutation created had nothing before it. -/
def previousOf (memory : Memory) (target : DrawScanTarget D) : Option Fingerprints :=
  if target.added then some [] else memory.get target.key

/-! ## The findings table -/

/-- What a seed read answers. -/
structure DrawOpenFindings where
  /-- The table holds a row of the draw. -/
  known : Bool
  /-- The latest rows that are not resolved. -/
  findings : List OpenDrawFinding

/-- `ORDER BY fingerprint, observed_at DESC`, the later row first among equals. -/
def latestFirst (a b : DrawIntegrityFindingRow) : Bool :=
  a.fingerprint < b.fingerprint ∨ a.fingerprint = b.fingerprint ∧ b.observedAt ≤ a.observedAt

/-- The rows of one draw. -/
def rowsOf (table : List DrawIntegrityFindingRow) (tournamentId drawId : String) :
    List DrawIntegrityFindingRow :=
  table.filter fun row => row.drawId = drawId ∧ row.tournamentId = tournamentId

/-- `loadOpenFindings`: the table lists its rows by their ids. -/
def loadOpenFindings (table : List DrawIntegrityFindingRow) (tournamentId drawId : String) :
    DrawOpenFindings :=
  let rows := (rowsOf table tournamentId drawId).reverse.mergeSort latestFirst
  let latest := distinctOn [] (rows.map fun row => (row.fingerprint, row))
  { known := !latest.isEmpty
    findings := ((latest.map Prod.snd).filter fun row => row.event ≠ .resolved).map
      (·.toOpenDrawFinding) }

/-! ## The process -/

/-- A callback that `setImmediate` has queued. -/
inductive Immediate (D : Type) where
  /-- `forgetDraw`. -/
  | forget (deleted : DeletedDraw)
  /-- `runScan`. -/
  | run (scan : ScheduledScan D)

/-- What runs when a promise of a chain settles. -/
inductive Reaction (D : Type) where
  /-- `finishScan`, which then settles the scan's own promise. -/
  | finish (scan : ScheduledScan D) (work : ℕ)
  /-- The chain is dropped where this promise is still its tail. -/
  | dropTail (key : String) (work : ℕ)

/-- The draw of a reaction. -/
def Reaction.key : Reaction D → String
  | .finish scan _ => scan.key
  | .dropTail key _ => key

/-- How far a seed read has come. -/
inductive ReadStage where
  /-- Awaiting the flush of the queue. -/
  | flushing
  /-- Awaiting the query. -/
  | querying
  /-- The database has answered. -/
  | answered (seed : DrawOpenFindings)

/-- A seed read in flight. -/
structure SeedRead (D : Type) where
  /-- The promise of `seedDraw`. -/
  seed : ℕ
  /-- The draw that is read back. -/
  target : DrawScanTarget D
  /-- How far it has come. -/
  stage : ReadStage

/-- The scanner's process, its findings service and the findings table. -/
structure ScanState (D : Type) where
  /-- `memory`. -/
  memory : Memory := []
  /-- `seeding`. -/
  seeding : String → Option ℕ := fun _ => none
  /-- `pendingScans`. -/
  pendingScans : ℤ := 0
  /-- The immediates, first in first out. -/
  immediates : List (Immediate D) := []
  /-- The promises and the microtasks. -/
  promises : Promises (Reaction D) := .start
  /-- The seed reads in flight. -/
  reads : List (SeedRead D) := []
  /-- `queue` of the findings service. -/
  queue : List DrawIntegrityFindingRow := []
  /-- The batch that `append` is writing. -/
  writing : List DrawIntegrityFindingRow := []
  /-- `draw_integrity_findings`, by id. -/
  table : List DrawIntegrityFindingRow := []
  /-- The clock. -/
  now : ℕ := 0
  /-- The scans this process has scheduled and not shed. -/
  accepted : List (ScheduledScan D) := []
  /-- The scans this process has run. -/
  ran : List (ScheduledScan D) := []
  /-- The scans that the factory completed, over all processes. -/
  completed : List (DrawScanTarget D) := []

/-- `record`: rows beyond the bound are dropped. -/
def recordRows (s : ScanState D) (rows : List DrawIntegrityFindingRow) : ScanState D :=
  { s with queue := s.queue ++ rows.take (MAX_QUEUED_FINDING_ROWS - s.queue.length) }

/-- `scanDraw`. -/
def scanDraw (scanner : DrawScanner D) (s : ScanState D) (scan : ScheduledScan D) : ScanState D :=
  match scanner.getDrawInconsistencies scan.target.drawDefinition scan.target.drawId with
  | none => s
  | some issues =>
    let current := currentOf scanner issues
    let rows := scanRows scan s.now (previousOf s.memory scan.target) current
    let recalled := if scan.target.added then s.memory else recalling s.memory scan.key
    let scanned : ScanState D :=
      { s with
        memory := remember recalled scan.key current
        completed := s.completed ++ [scan.target] }
    if scan.findings then recordRows scanned rows else scanned

/-- `finishScan`. -/
def finishScan (scanner : DrawScanner D) (s : ScanState D) (scan : ScheduledScan D) :
    ScanState D :=
  scanDraw scanner { s with pendingScans := s.pendingScans - 1, ran := s.ran ++ [scan] } scan

/-- `seedDraw` after its read: the open set is remembered unless the draw came back meanwhile. -/
def seedMemory (memory : Memory) (key : String) (seed : DrawOpenFindings) : Memory :=
  if seed.known ∧ memory.get key = none then remember memory key (fingerprintsOf seed.findings)
  else memory

/-- `chainDraw`: the work becomes the tail of the draw's chain. -/
def chainDraw (s : ScanState D) (key : String) (work : ℕ) : ScanState D :=
  { s with
    seeding := Function.update s.seeding key (some work)
    promises := s.promises.react work (.dropTail key work) }

/-- `runScan` behind a chain: the scan reacts to the tail. -/
def chainScan (s : ScanState D) (scan : ScheduledScan D) (inFlight : ℕ) : ScanState D :=
  let work := s.promises.next
  chainDraw { s with promises := s.promises.create.react inFlight (.finish scan work) } scan.key
    work

/-- `runScan` of a draw that must be read back: the scan reacts to the read. -/
def seedScan (s : ScanState D) (scan : ScheduledScan D) : ScanState D :=
  let seed := s.promises.next
  let work := s.promises.create.next
  chainDraw
    { s with
      promises := s.promises.create.create.react seed (.finish scan work)
      reads := s.reads ++ [⟨seed, scan.target, .flushing⟩] } scan.key work

/-- `runScan`. -/
def runScan (scanner : DrawScanner D) (s : ScanState D) (scan : ScheduledScan D) : ScanState D :=
  match s.seeding scan.key with
  | some inFlight => chainScan s scan inFlight
  | none =>
    if scan.findings ∧ ¬scan.target.added ∧ s.memory.get scan.key = none then seedScan s scan
    else finishScan scanner s scan

/-- One draw of a batch: it is shed where too many scans are pending. -/
def scheduleScan (s : ScanState D) (scan : ScheduledScan D) : ScanState D :=
  if s.pendingScans ≥ MAX_PENDING_SCANS then s
  else
    { s with
      pendingScans := s.pendingScans + 1
      immediates := s.immediates ++ [.run scan]
      accepted := s.accepted ++ [scan] }

/-- `scheduleDrawIntegrityScan`. -/
def scheduleDrawIntegrityScan (s : ScanState D) (batch : DrawIntegrityBatch D) (findings : Bool) :
    ScanState D :=
  (batch.draws.map fun target => ⟨target, batch.methods, findings⟩).foldl scheduleScan
    { s with immediates := s.immediates ++ batch.deleted.map .forget }

/-! ## Steps -/

/-- What may happen next. -/
inductive ScanAction (D : Type) where
  /-- A mutation schedules its scans. -/
  | schedule (batch : DrawIntegrityBatch D) (findings : Bool)
  /-- The first immediate runs. -/
  | immediate
  /-- The first microtask runs. -/
  | job
  /-- The drain takes a batch of the queue. -/
  | drain
  /-- The batch is written. -/
  | appended
  /-- The batch is not written. -/
  | appendFailed
  /-- The flush that a read awaits is over. -/
  | flushed (seed : ℕ)
  /-- The database answers a read. -/
  | query (seed : ℕ)
  /-- A read's answer arrives. -/
  | deliver (seed : ℕ)
  /-- A read fails or times out. -/
  | failRead (seed : ℕ)
  /-- The clock moves on. -/
  | tick
  /-- The process ends and another one starts. -/
  | restart

/-- The reads after one of them has moved on. -/
def moveRead (s : ScanState D) (seed : ℕ) (move : SeedRead D → ReadStage) : ScanState D :=
  { s with reads := s.reads.map fun read =>
      if read.seed = seed then { read with stage := move read } else read }

/-- The read has settled: it is in flight no longer. -/
def settleRead (s : ScanState D) (seed : ℕ) : ScanState D :=
  { s with
    reads := s.reads.filter fun read => read.seed ≠ seed
    promises := s.promises.settle seed }

/-- A microtask. -/
def runReaction (scanner : DrawScanner D) (s : ScanState D) : Reaction D → ScanState D
  | .finish scan work =>
    let finished := finishScan scanner s scan
    { finished with promises := finished.promises.settle work }
  | .dropTail key work =>
    if s.seeding key = some work then { s with seeding := Function.update s.seeding key none }
    else s

/-- An immediate. -/
def runImmediate (scanner : DrawScanner D) (s : ScanState D) : Immediate D → ScanState D
  | .forget deleted => { s with memory := forgetDraw s.memory deleted }
  | .run scan => runScan scanner s scan

/-- A failed write puts its batch back in front, within the bound; the drain is over. -/
def requeue (s : ScanState D) : ScanState D :=
  { s with
    queue := (s.writing ++ s.queue).take MAX_QUEUED_FINDING_ROWS
    writing := []
    reads := s.reads.map fun read =>
      match read.stage with
      | .flushing => { read with stage := .querying }
      | _ => read }

/-- One step. The microtasks of a turn run before the next turn starts. -/
def step (scanner : DrawScanner D) (s : ScanState D) : ScanAction D → ScanState D
  | .schedule batch findings => scheduleDrawIntegrityScan s batch findings
  | .immediate =>
    match s.promises.jobs, s.immediates with
    | [], first :: rest => runImmediate scanner { s with immediates := rest } first
    | _, _ => s
  | .job =>
    match s.promises.jobs with
    | [] => s
    | first :: _ => runReaction scanner { s with promises := s.promises.take } first
  | .drain =>
    if s.writing = [] then
      { s with
        writing := s.queue.take MAX_FINDING_ROWS_PER_WRITE
        queue := s.queue.drop MAX_FINDING_ROWS_PER_WRITE }
    else s
  | .appended => { s with table := s.table ++ s.writing, writing := [] }
  | .appendFailed => if s.writing = [] then s else requeue s
  | .flushed seed =>
    if s.queue = [] ∧ s.writing = [] then
      moveRead s seed fun read => match read.stage with
        | .flushing => .querying
        | stage => stage
    else s
  | .query seed =>
    moveRead s seed fun read => match read.stage with
      | .querying => .answered (loadOpenFindings s.table read.target.tournamentId read.target.drawId)
      | stage => stage
  | .deliver seed =>
    match s.promises.jobs, s.reads.find? fun read => read.seed = seed with
    | [], some ⟨_, target, .answered found⟩ =>
      settleRead { s with memory := seedMemory s.memory target.key found } seed
    | _, _ => s
  | .failRead seed =>
    match s.promises.jobs, s.reads.find? fun read => read.seed = seed with
    | [], some _ => settleRead s seed
    | _, _ => s
  | .tick => { s with now := s.now + 1 }
  | .restart => { table := s.table, now := s.now, completed := s.completed }

/-- The findings table is new, and the process has just started. -/
def ScanState.start : ScanState D := {}

end FactoryServer.IntegrityScans
