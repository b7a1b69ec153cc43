import FactoryServer.GuardedRuns
import FactoryServer.TextCodes
import Mathlib.Logic.Function.Basic
import Mathlib.Tactic.SplitIfs

/-!
# The migration runner

Every process that starts applies the migrations that are not recorded yet. It takes
an advisory lock on a connection of its own, reads the recorded names, and runs each
pending file in a transaction on another connection, which records the name as well.
Any number of processes start together, every statement can fail, a process can stop
anywhere, and the session that holds the lock can end while its process goes on.
-/

namespace FactoryServer.MigrationRunner

open GuardedRuns TextCodes

/-! ## The files -/

/-- The directory of the migrations. -/
structure MigrationsDir where
  /-- `readdir(migrationsDir)`. -/
  listing : List String
  /-- The entries of a directory have distinct names. -/
  distinct : listing.Nodup

/-- `f.endsWith('.sql')`. -/
def isSql (name : String) : Bool := ".sql".toList.isSuffixOf name.toList

/-- `files.filter((f) => f.endsWith('.sql')).sort()`. -/
def MigrationsDir.files (dir : MigrationsDir) : List String :=
  (sortTexts ((dir.listing.filter isSql).map String.toList)).map String.ofList

/-- A name stands before another one in filename order. -/
def Precedes (name other : String) : Prop :=
  name ≠ other ∧ notAfter name.toList other.toList = true

/-! ## The database -/

/-- A row of `schema_migrations`, with the runner that inserted it. -/
structure MigrationRow (ι : Type) where
  name : String
  /-- No runner of this run inserted a row that was there before. -/
  runner : Option ι

/-- `schema_migrations` before the run. -/
structure MigrationTable where
  names : List String
  /-- The primary key. -/
  keyed : names.Nodup

/-- An open transaction of `applyMigration`: nothing of it is visible yet. -/
structure Tx where
  file : String
  /-- The statements of the file have run. -/
  ran : Bool
  /-- The row of the file is inserted. -/
  recorded : Bool
  deriving DecidableEq, Repr

/-- The statements of `applyMigration`. -/
inductive Statement where
  /-- `BEGIN`. -/
  | begin
  /-- The text of the file. -/
  | run
  /-- `INSERT INTO schema_migrations … ON CONFLICT DO NOTHING`. -/
  | record
  /-- `COMMIT`. -/
  | commit
  deriving DecidableEq, Repr

/-- Where a runner stands: ended, or before an answer. -/
inductive Stage where
  /-- `ensureTrackingTable`. -/
  | starting
  /-- `SELECT pg_advisory_lock($1)`. -/
  | locking
  /-- `getAppliedMigrations` and `getPendingMigrations`. -/
  | reading
  /-- `applyMigration`, before the file is read and a connection taken. -/
  | opening (file : String) (rest : List String)
  /-- `applyMigration`, before a statement of its transaction. -/
  | applying (statement : Statement) (tx : Tx) (rest : List String)
  /-- `ROLLBACK`. -/
  | rollingBack
  /-- `SELECT pg_advisory_unlock($1)`. -/
  | unlocking (failed : Bool)
  /-- `onModuleInit` has returned or thrown, or the process has stopped. -/
  | ended (failed : Bool)
  deriving DecidableEq, Repr

/-- The database and the processes. -/
structure State (ι : Type) where
  /-- The runner whose session holds the advisory lock. -/
  lock : Option ι
  /-- The stage of each process. -/
  runners : ι → Stage
  /-- Transactions whose `COMMIT` was sent and never answered, with their runners. -/
  inDoubt : List (ι × Tx)
  /-- `schema_migrations`. -/
  rows : List (MigrationRow ι)
  /-- The files whose statements were committed, in order, with their runners. -/
  applied : List (ι × String)
  /-- The files whose application has failed, with their runners. -/
  failed : List (ι × String)

variable {ι : Type} [DecidableEq ι]

/-- The names that are recorded. -/
def State.names (s : State ι) : List String := s.rows.map MigrationRow.name

/-- No process has started. -/
def initial (ι : Type) (table : MigrationTable) : State ι :=
  ⟨none, fun _ => .starting, [], table.names.map fun name => ⟨name, none⟩, [], []⟩

/-- A process goes on to a stage. -/
def State.moveTo (s : State ι) (c : ι) (stage : Stage) : State ι :=
  { s with runners := Function.update s.runners c stage }

/-- The application of a file fails. -/
def State.fail (s : State ι) (c : ι) (file : String) : State ι :=
  { s with failed := s.failed ++ [(c, file)] }

/-- A `COMMIT` was sent, and its answer does not come. -/
def State.doubt (s : State ι) (c : ι) (tx : Tx) : State ι :=
  { s with inDoubt := s.inDoubt ++ [(c, tx)] }

/-- What the server does at `COMMIT`. An insert waits for the row of the same name that
another transaction has open, so that the rows committed by then settle the conflict. -/
def State.commit (s : State ι) (c : ι) (tx : Tx) : State ι :=
  { s with
    applied := if tx.ran then s.applied ++ [(c, tx.file)] else s.applied
    rows :=
      if tx.recorded = true ∧ tx.file ∉ s.names then s.rows ++ [⟨tx.file, some c⟩] else s.rows }

/-- The loop over the files that are left. -/
def loop : List String → Stage
  | [] => .unlocking false
  | file :: rest => .opening file rest

/-- What the runner makes of the recorded names. A directory without migrations throws. -/
def pending (files names : List String) : Stage :=
  if files = [] then .unlocking true else loop (files.filter fun file => file ∉ names)

/-- How a statement, or the reading of a file, ends. -/
inductive Fate where
  /-- It is executed and answered. -/
  | answered
  /-- It is refused. -/
  | refused
  /-- Its connection is lost, and whether it was executed is not known. -/
  | lost
  deriving DecidableEq, Repr

/-- One statement of a runner. -/
def proceed (files : List String) (s : State ι) (c : ι) (fate : Fate) : State ι :=
  match s.runners c, fate with
  | .starting, .answered => s.moveTo c .locking
  | .starting, _ => s.moveTo c (.ended true)
  | .locking, .answered =>
    if s.lock = none then { s.moveTo c .reading with lock := some c } else s
  | .locking, _ => s.moveTo c (.unlocking true)
  | .reading, .answered => s.moveTo c (pending files s.names)
  | .reading, _ => s.moveTo c (.unlocking true)
  | .opening file rest, .answered => s.moveTo c (.applying .begin ⟨file, false, false⟩ rest)
  | .opening file _, _ => (s.fail c file).moveTo c (.unlocking true)
  | .applying .begin tx rest, .answered => s.moveTo c (.applying .run tx rest)
  | .applying .run tx rest, .answered =>
    s.moveTo c (.applying .record { tx with ran := true } rest)
  | .applying .record tx rest, .answered =>
    s.moveTo c (.applying .commit { tx with recorded := true } rest)
  | .applying .commit tx rest, .answered => (s.commit c tx).moveTo c (loop rest)
  | .applying .commit tx _, .lost => (s.doubt c tx).moveTo c .rollingBack
  | .applying _ tx _, _ => (s.fail c tx.file).moveTo c .rollingBack
  | .rollingBack, _ => s.moveTo c (.unlocking true)
  | .unlocking failed, .answered =>
    { s.moveTo c (.ended failed) with lock := if s.lock = some c then none else s.lock }
  | .unlocking _, _ => s.moveTo c (.ended true)
  | .ended _, _ => s

/-- A process stops. The server rolls its transaction back, unless `COMMIT` was sent. -/
def crash (s : State ι) (c : ι) : State ι :=
  match s.runners c with
  | .applying .commit tx _ => (s.doubt c tx).moveTo c (.ended true)
  | .applying _ tx _ => (s.fail c tx.file).moveTo c (.ended true)
  | _ => s.moveTo c (.ended true)

/-- What happens. -/
inductive Step (ι : Type) where
  /-- The statement a runner waits for ends. -/
  | proceed (c : ι) (fate : Fate)
  /-- A process stops. -/
  | crash (c : ι)
  /-- The session that holds the lock ends, and the server frees the lock. -/
  | sessionEnds
  /-- A `COMMIT` that was not answered is carried out, or its session ends first. -/
  | settle (position : ℕ) (committed : Bool)

/-- One step. -/
def step (files : List String) (s : State ι) : Step ι → State ι
  | .proceed c fate => proceed files s c fate
  | .crash c => crash s c
  | .sessionEnds => { s with lock := none }
  | .settle position committed =>
    match s.inDoubt[position]? with
    | none => s
    | some (c, tx) =>
      let rest := { s with inDoubt := s.inDoubt.eraseIdx position }
      if committed then rest.commit c tx else rest.fail c tx.file

/-! ## What is promised -/

/-- The promises of the runner about a state, for a directory and the rows before. -/
structure Promised (dir : MigrationsDir) (table : MigrationTable) (s : State ι) : Prop where
  /-- Each file is recorded at most once. -/
  recorded : s.names.Nodup
  /-- The statements of each file are committed at most once. -/
  once : (s.applied.map Prod.snd).Nodup
  /-- No file that was recorded before is applied again. -/
  pending : ∀ file ∈ s.applied.map Prod.snd, file ∉ table.names
  /-- No file is applied ahead of an earlier one that is pending. -/
  ordered : ∀ past c file later, s.applied = past ++ (c, file) :: later →
    ∀ other ∈ dir.files, Precedes other file →
      other ∈ table.names ∨ other ∈ past.map Prod.snd
  /-- A file that fails leaves neither its statements nor its row. -/
  traceless : ∀ c file, (c, file) ∈ s.failed →
    (c, file) ∉ s.applied ∧ ∀ row ∈ s.rows, row.name = file → row.runner ≠ some c

/-- The runner can still commit a file. -/
def Busy : Stage → Prop
  | .reading => True
  | .opening _ _ => True
  | .applying _ _ _ => True
  | _ => False

instance : (stage : Stage) → Decidable (Busy stage)
  | .reading => .isTrue trivial
  | .opening _ _ => .isTrue trivial
  | .applying _ _ _ => .isTrue trivial
  | .starting => .isFalse id
  | .locking => .isFalse id
  | .rollingBack => .isFalse id
  | .unlocking _ => .isFalse id
  | .ended _ => .isFalse id

/-- The lock is not granted while another runner, or a `COMMIT` in doubt, can still
commit a file. -/
def Alone (s : State ι) : Step ι → Prop
  | .proceed c .answered => s.runners c = .locking → s.lock = none →
      (∀ d, ¬ Busy (s.runners d)) ∧ s.inDoubt = []
  | _ => True

end FactoryServer.MigrationRunner
