import FactoryServer.StorageRegime
import FactoryServer.CommandCommit

/-!
# Storage code on the command's connection

Inside a durable command every statement goes to one transaction. A failed one
aborts it, and a savepoint brings back what was there before: whatever is
written below a savepoint, what its statements keep is kept. So storage code
inside a command obeys the rules of a regime.
-/

namespace FactoryServer.BorrowedConnection

open JsonValue AsyncProgram SqlTransaction TournamentAccess CommandTransaction CommandSession
  CommandCommit StorageTables TournamentStorage ExecutionQueue StorageFrames StorageRegime
open AsyncProgram.Prog (Ensures Keeps)

variable {x : External} {patched : CalendarRow → Json → Json} {P : Tables → Prop}

/-! ## Nested savepoints -/

theorem keeps_queryOn_under {name : String} {st : Statement} (h : KeepsProperty P st) :
    Keeps (handle (backend patched)) (On (Under name P)) (queryOn .command st) :=
  keeps_data_under (b := backend patched) name st h

/-- What runs in a savepoint keeps what its statements keep, also when it fails. -/
theorem keeps_inSavepoint {name : String} {work : Store Unit}
    (h : Keeps (handle (backend patched)) (On (Under name P)) work) :
    Keeps (handle (backend patched)) (On (Sound P)) (inSavepoint name work) := by
  refine Prog.ensures_bind (ensures_savepoint name) (fun _ => ?_) fun e w hw =>
    hw.mono fun tx htx => htx.1
  refine Prog.ensures_tryCatch (R := fun out => On (Released name P out)) ?_ (fun _ _ h => h)
    fun e => ?_
  · exact Prog.ensures_bind h (fun _ => ensures_releaseSavepoint name) fun e w hw => hw
  · exact Prog.ensures_bind (ensures_rollbackTo name) (fun _ => Prog.keeps_fail e) fun e w hw => hw

theorem ensures_writeRows {name : String} {id : String} {unique : List ParticipationRow}
    (hclaim : ∀ fingerprint, KeepsProperty P (.claimFingerprint id fingerprint))
    (hdelete : KeepsProperty P (.deleteParticipation id))
    (hinsert : ∀ rows, KeepsProperty P (.insertParticipation id rows)) :
    Ensures (handle (backend patched)) (On (Under name P))
      (writeRows x .command id unique (query .command (.releaseSavepoint name))) fun out =>
        On (Released name P out) := by
  have hclose := ensures_releaseSavepoint (b := backend patched) name (P := P)
  have hrows : Keeps (handle (backend patched)) (On (Under name P))
      (if unique.isEmpty then .ret () else queryOn .command (.insertParticipation id unique)) := by
    split_ifs
    · exact Prog.keeps_ret ()
    · exact keeps_queryOn_under (hinsert _)
  refine Prog.ensures_bind (keeps_queryOn_under (hclaim _)) (fun claimed => ?_) fun e w hw => hw
  cases claimed with
  | false => exact hclose
  | true =>
    refine Prog.ensures_bind (keeps_queryOn_under hdelete) (fun _ => ?_) fun e w hw => hw
    exact Prog.ensures_bind hrows (fun _ => hclose) fun e w hw => hw

/-- The participation rows are written below a savepoint. -/
theorem keeps_replaceTournamentRows {id : String} (rows : List ParticipationRow)
    (hclaim : ∀ fingerprint, KeepsProperty P (.claimFingerprint id fingerprint))
    (hdelete : KeepsProperty P (.deleteParticipation id))
    (hinsert : ∀ rows, KeepsProperty P (.insertParticipation id rows)) :
    Keeps (handle (backend patched)) (On (Sound P)) (replaceTournamentRows x true id rows) := by
  have hundo : Ensures (handle (backend patched)) (On (Under "participation_write" P))
      ((query .command (.rollbackTo "participation_write")).tryCatch fun _ => .ret () : Store Unit)
      fun _ => On (Sound P) :=
    Prog.ensures_tryCatch (R := fun _ => On (Sound P)) (ensures_rollbackTo _) (fun _ _ h => h)
      fun e => Prog.keeps_ret ()
  refine Prog.ensures_tryCatch (R := fun out => On (Released "participation_write" P out)) ?_
    (fun _ _ h => h) fun e => ?_
  · exact Prog.ensures_bind (ensures_savepoint _)
      (fun _ => ensures_writeRows hclaim hdelete hinsert) fun e w hw => hw
  · exact Prog.ensures_bind hundo (fun _ => Prog.keeps_fail e) fun e w hw => hw

theorem keeps_enqueue (h : ∀ st, Projects st → KeepsProperty P st) (deltas : List Json) :
    Keeps (handle (backend patched)) (On (Sound P)) (enqueue true deltas) := by
  unfold enqueue
  split_ifs
  · exact Prog.keeps_ret ()
  · exact keeps_inSavepoint
      (Prog.Keeps.forEach fun chunk _ => keeps_queryOn_under (h _ (.deltas _)))
  · contradiction

theorem keeps_request (h : ∀ st, Projects st → KeepsProperty P st) (table : RequestTable)
    (ids : List Json) (source : String) :
    Keeps (handle (backend patched)) (On (Sound P)) (request x true table ids source) := by
  unfold request
  dsimp only
  split_ifs
  · exact Prog.keeps_ret ()
  · refine keeps_inSavepoint ?_
    cases x.pg.textArray _ with
    | none => exact Prog.keeps_fail _
    | some ids => exact keeps_queryOn_under (h _ (.requests _ _ _))
  · contradiction

/-- Code inside a command, unless its connection is lost or a `SAVEPOINT` was refused. -/
def commandRegime (x : External) (patched : CalendarRow → Json → Json) : Regime x patched true where
  holds P := On (Sound P)
  stopped P _ := On (Sound P)
  faulty := True
  mono h hw := hw.mono fun _ htx => htx.mono h
  stopped_mono h _ hw := hw.mono fun _ htx => htx.mono h
  stopped_of_holds _ hw := hw
  holds_of_stopped hw := hw
  statement st _ _ h := by
    refine (ensures_data (b := backend patched) st h).mono (fun _ hw => hw) fun out w hw => ?_
    cases out with
    | ok a => exact hw
    | error e => exact ⟨trivial, hw⟩
  replaceTournamentRows := keeps_replaceTournamentRows
  enqueue := keeps_enqueue
  request := keeps_request
  afterCommandCommit effect _ := keeps_register effect

end FactoryServer.BorrowedConnection
