import FactoryServer.BorrowedConnection
import FactoryServer.CallbackOutcomes

/-!
# Durable mutations and durable saves

`executionQueue` and the wholesale save, run as durable commands. Whatever
fails on the way, a command that does not commit leaves nothing behind; one
that commits has its records and its receipt, also when the participation rows
or the projection were rolled back to their savepoints.
-/

namespace FactoryServer.DurableSave

open JsonValue AsyncProgram SqlTransaction TournamentAccess CommandTransaction CommandReceipts
  CommandSession CommandAtomicity CommandCommit StorageTables TournamentStorage ExecutionQueue
  StorageFrames StorageRegime BorrowedConnection CallbackOutcomes
open AsyncProgram.Prog (Ensures Keeps)

variable {x : External} {patched : CalendarRow → Json → Json}

/-! ## The records of a command -/

/-- The records of a successful engine run on the stored rows. -/
def Mutated (x : External) (engine : Engine) (payload tournamentIds : Json) (tables : Tables)
    (records : RecordMap) : Prop :=
  ∃ ids methods outcome, x.pg.textArray tournamentIds = some ids ∧
    (engine.executionQueue (loadedRecords (exec (.selectTournaments ids) tables).2) methods
      (payload.field? "rollbackOnError")).outcome = .ok outcome ∧
    truthy (outcome.result.field? "success") = true ∧ outcome.records = records

variable {tables : Tables}

/-- The rows are those the records of some map leave. -/
def LeavesRecords (x : External) (userId : Option String) (tables : Tables)
    (saved : RecordMap → Prop) (t : Tables) : Prop :=
  ∃ records, saved records ∧ SavedRows x 0 userId tables.tournaments records t.tournaments

/-- The records the command saves when it finds these tables. -/
def Command.Records (x : External) (engine : Engine) (tables : Tables) :
    Command → RecordMap → Prop
  | .mutation payload ids _, records => Mutated x engine payload ids tables records
  | .wholesaleSave _ _ given, records => records = given

/-- The records of a plan are those the command saves. -/
theorem records_of_plan {engine : Engine} {command : Command} {p : Plan} {records : RecordMap}
    (hplan : planOf x engine tables command = some p) (hrecords : p.records = some records) :
    Command.Records x engine tables command records := by
  cases command with
  | wholesaleSave params userId given =>
    rw [savePlan_eq hplan] at hrecords
    exact (Option.some.inj hrecords).symm
  | mutation payload ids methods =>
    obtain ⟨texts, resolved, htexts, rfl⟩ := run_of_mutationPlan hplan
    obtain ⟨outcome, hout, hsuccess, houtcome⟩ := outcome_of_savedRecords hrecords
    exact ⟨texts, resolved, outcome, htexts, hout, hsuccess, houtcome⟩

/-- The callback of a durable command stays on its connection. -/
theorem inCommand (services : Services) (engine : Engine) (command : Command) :
    (command.apply x services engine true).Uses InCommand := by
  have hall : (command.apply x services engine true).Uses
      (Issues true (fun _ => True) fun _ => True) := by
    cases command with
    | mutation payload ids methods =>
      exact uses_mutate (fun _ _ => trivial) (fun _ _ => trivial) (fun _ _ _ => trivial)
        (fun _ => trivial) services engine payload ids methods
    | wholesaleSave params userId records =>
      exact uses_replaceRecords (fun _ _ => trivial) (fun _ _ => trivial) services params
        fun _ _ _ _ => trivial
  exact hall.mono fun op h => issues_inCommand h

/-- A command that succeeds has its records in the transaction. -/
theorem leaves_records (services : Services) (engine : Engine) (command : Command) :
    Leaves (backend patched) tables (command.apply x services engine true) fun _ _ =>
      LeavesRecords x command.userId tables (Command.Records x engine tables command) := by
  have hends := ensures_apply services engine command (clockKept x patched command.userId tables)
    (commandRegime x patched)
  intro w hw r hr hs
  have hend := hends w hw
  rw [hr] at hend
  refine (hend.1 (Bool.and_eq_true_iff.mp hs).1).mono fun tx htx => htx.mono fun t ht => ?_
  obtain ⟨p, records, hplan, hrecords, hdone⟩ := ht
  refine ⟨records, records_of_plan hplan hrecords, ?_⟩
  have hsaved := hdone.saved
  rwa [List.take_length] at hsaved

/-- The tables of a command that has committed: a replay changes no record and
no receipt, and a fresh command has its records and its receipt. -/
def CommittedTogether (x : External) (engine : Engine) (storedJson : Json → Json)
    (command : Command) (identity : CommandIdentity) (before after : Tables) : Prop :=
  (before.commandReceipts identity.actor identity.commandId ≠ none ∧
    after.tournaments = before.tournaments ∧ after.commandReceipts = before.commandReceipts) ∨
  (before.commandReceipts identity.actor identity.commandId = none ∧
    LeavesRecords x command.userId before (Command.Records x engine before command) after ∧
    ∃ result, after.commandReceipts identity.actor identity.commandId =
      some ⟨identity.fingerprint, storedJson (withReceipt result identity.commandId)⟩)

/-- A durable mutation or wholesale save that answers no committed success has
run no effect, and has changed no table unless its commit was executed and the
answer lost. One that committed, answered or not, has its records and its
receipt, whatever the participation and outbox savepoints rolled back. -/
theorem durable_command_all_or_nothing (x : External) (services : Services) (engine : Engine)
    (patched : CalendarRow → Json → Json) (storedJson : Json → Json) (command : Command)
    (tables : Tables) (faults : List Fault) :
    let r := (execute storedJson command.payload (command.apply x services engine true)).run
      (handle (backend patched)) (World.start tables faults)
    ((∀ answer, r.1 = .ok answer → succeeded answer = false) →
      r.2.effects = [] ∧ (r.2.commitLost = false → r.2.tables = tables)) ∧
    (r.2.savepointRefused = false →
      (∃ answer, r.1 = .ok answer ∧ succeeded answer = true) ∨ r.2.commitLost = true →
      ∃ identity, identityOf command.payload = some identity ∧
        CommittedTogether x engine storedJson command identity tables r.2.tables) := by
  refine ⟨nothing_left_behind storedJson command.payload (inCommand services engine command)
    tables faults, ?_⟩
  intro hflag hcommitted
  cases hid : identityOf command.payload with
  | none =>
    exfalso
    simp only [execute, hid, Prog.run_fail] at hcommitted
    rcases hcommitted with ⟨answer, h, -⟩ | h
    · cases h
    · cases h
  | some identity =>
    refine ⟨identity, rfl, ?_⟩
    let L : List Effect → Tables → Prop := fun _ =>
      CommittedTogether x engine storedJson command identity tables
    have hall := committed_tables (L := L) hid (inCommand services engine command)
      (leaves_records services engine command) ?_ ?_ ?_ faults hflag
    · rcases hcommitted with h | h
      · exact hall.1 h
      · exact (hall.2 h).elim fun _ hl => hl
    · exact fun h => Or.inl ⟨h, rfl, rfl⟩
    · intro hnone _ result t hs ht
      refine Or.inr ⟨hnone, ht, result, ?_⟩
      simp [backend]
    · intro _ effect t ht
      have htournaments := effect_tournaments patched effect t
      have hreceipts := effect_commandReceipts patched effect t
      rcases ht with ⟨h, h₁, h₂⟩ | ⟨h, ⟨records, hr, hrows⟩, result, h₂⟩
      · exact Or.inl ⟨h, htournaments.trans h₁, hreceipts.trans h₂⟩
      · refine Or.inr ⟨h, ⟨records, hr, ?_⟩, result, ?_⟩
        · rw [htournaments]
          exact hrows
        · rw [hreceipts]
          exact h₂

/-! ## A lost answer of the commit -/

/-- An environment without calendar entries and participants. -/
def plainExternal : External where
  pg := plainBinding
  getTournamentCalendarEntry _ := .ok none
  isPublished _ := false
  getParticipation _ := .ok []
  fingerprintRows _ := "no rows"
  serializedLength _ := 2
  toIso n := toString n

/-- Only the command receipts are switched on. -/
def plainServices : Services where
  outboxEnabled := false
  deferredSnapshots := false
  snapshotDeltas _ := .ok []
  commandReceipts := true
  warmEventDataCache := .ok ()

/-- An empty database. -/
def emptyTables : Tables where
  tournaments _ := none
  calendarTournaments _ := none
  participationIndex _ := []
  participationState _ := none
  projectionQueue := []
  projectionRequests _ _ := none
  commandReceipts _ _ := none
  providers _ := none
  matchUpIndex _ _ := none
  now := 1

/-- A record with an id and a provider, and nothing else. -/
def plainRecord (id : String) (providerId : Option String) : TournamentRecord :=
  ⟨some (.str id), providerId, [], none, none, none, false, .null⟩

/-- A wholesale save of one tournament under a valid identity. -/
def plainSave : Command :=
  .wholesaleSave (.obj [("commandId", .str "command-1"), ("commandActor", .str "user-1"),
    ("commandFingerprint", .str
      "0123456789abcdef0123456789abcdef0123456789abcdef0123456789abcdef")])
    none [("test", plainRecord "test" none)]

/-- An engine that is never reached. -/
def noEngine : Engine where
  executionQueue _ _ _ := ⟨[], .error databaseError, notices_nil⟩
  findMatchUp _ _ := .ok none
  isTestDataMethod _ := false

/-- The wholesale save with the answer of its eleventh await, the commit, lost. -/
def lostCommitRun : Except Thrown (Option Json) × World Tables Effect :=
  (execute id plainSave.payload (plainSave.apply plainExternal plainServices noEngine true)).run
    (handle (backend fun row _ => row.entry))
    (World.start emptyTables (List.replicate 10 .none ++ [.lostAfter]))

/-- The call throws, and its tournament is stored. -/
theorem lost_commit_answer :
    (∀ answer, lostCommitRun.1 = .ok answer → succeeded answer = false) ∧
      lostCommitRun.2.tables ≠ emptyTables := by
  refine ⟨fun answer h => ?_, fun h => ?_⟩
  · have he : lostCommitRun.1.isOk = false := by decide
    rw [h] at he
    cases he
  · have hrow := congrArg (fun t => (t.tournaments "test").isSome) h
    revert hrow
    decide

end FactoryServer.DurableSave
