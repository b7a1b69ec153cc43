import FactoryServer.TournamentAccess
import FactoryServer.CommandSession
import Mathlib.Logic.Function.Basic

/-!
# The tables behind the tournament storage

The Postgres tables that mutations and wholesale saves write, and the SQL
statements of the storage classes with their effect on them. How the driver
binds a JavaScript value to a parameter is a parameter itself, since the ids
of a request are untyped.
-/

namespace FactoryServer.StorageTables

open JsonValue TournamentAccess CommandTransaction CommandSession

/-- How the driver sends a value that is not null as a `text` or a `text[]`
parameter. A string that is no array literal fails as an array. -/
structure PgBinding where
  /-- The text a scalar parameter arrives as. -/
  text : Json → String
  /-- The texts an array parameter denotes, nulls left out. -/
  textArray : Json → Option (List String)
  /-- A string is sent as it is. -/
  text_str : ∀ s, text (.str s) = s
  /-- An array of strings denotes its elements. -/
  textArray_strings : ∀ ids, textArray (strings ids) = some ids

/-- The driver on values that are no objects: scalars as text, arrays element by
element. -/
def plainBinding : PgBinding where
  text := Json.propertyKey
  textArray
    | .arr items => some ((items.filter fun item => !nullish (some item)).map Json.propertyKey)
    | _ => none
  text_str _ := rfl
  textArray_strings ids := by
    induction ids with
    | nil => rfl
    | cons id rest ih => simpa [strings, nullish, Json.propertyKey] using ih

/-- A row of `tournaments`. -/
structure TournamentRow where
  /-- The document. -/
  record : TournamentRecord
  /-- Fencing token of the last writer. -/
  ownerEpoch : Nat
  /-- When the row was last written. -/
  updatedAt : Nat

/-- A row of `calendar_tournaments`. -/
structure CalendarRow where
  /-- Primary key. -/
  tournamentId : String
  /-- The calendar it is listed in. -/
  providerId : String
  /-- Abbreviation of that provider. -/
  providerAbbr : Option String
  /-- The columns derived from the record. -/
  entry : Json

/-- A row of `participation_index` of one tournament. -/
structure ParticipationRow where
  /-- `subjectType`, `subjectId` and `participantId` joined, the primary key. -/
  rowKey : String
  /-- Every column. -/
  columns : Json

/-- A row of `providers`, as far as tournaments read it. -/
structure Provider where
  /-- Abbreviation shown in calendars. -/
  organisationAbbreviation : Option String
  /-- Provisioner-controlled configuration. -/
  providerConfigCaps : Json
  /-- Provider-controlled configuration. -/
  providerConfigSettings : Json

/-- `REQUEST_TABLES`. -/
inductive RequestTable where
  | snapshot
  | documents
  deriving DecidableEq, Repr

/-- The name of a request table. -/
def RequestTable.name : RequestTable → String
  | .snapshot => "projection_snapshot_requests"
  | .documents => "projection_document_requests"

/-- The tables. -/
structure Tables where
  /-- `tournaments`, by id. -/
  tournaments : String → Option TournamentRow
  /-- `calendar_tournaments`, by tournament id. -/
  calendarTournaments : String → Option CalendarRow
  /-- `participation_index`, by tournament id. -/
  participationIndex : String → List ParticipationRow
  /-- `participation_index_state`, the fingerprint by tournament id. -/
  participationState : String → Option String
  /-- `projection_queue`. -/
  projectionQueue : List Json
  /-- The source of a pending request, by request table and tournament id. -/
  projectionRequests : RequestTable → String → Option String
  /-- `command_receipts`, by actor and command id. -/
  commandReceipts : String → String → Option Receipt
  /-- `providers`, by id. -/
  providers : String → Option Provider
  /-- `match_up_index` of the sharded tournaments: draw and event, by tournament and matchUp id. -/
  matchUpIndex : String → String → Option (String × Option String)
  /-- The clock `NOW()` reads. -/
  now : Nat

/-- What `fetchTournamentUpdatedAt` projects. -/
structure UpdatedAtView where
  /-- The row's id. -/
  tournamentId : String
  /-- When the row was last written. -/
  serverUpdatedAt : Nat
  /-- Owning provider of the stored record. -/
  providerId : Option String
  /-- Extensions of the stored record. -/
  extensions : List Extension

/-- The SQL statements of the storage classes. -/
inductive Statement where
  /-- `fetchTournamentRecords`: `WHERE tournament_id = ANY($1)`. -/
  | selectTournaments (ids : List String)
  /-- `fetchMatchUpDraws`. -/
  | selectMatchUpDraws (id : String) (matchUpIds : List String)
  /-- `fetchTournamentUpdatedAt`. -/
  | selectUpdatedAt (id : String)
  /-- `getProvider`. -/
  | selectProvider (providerId : String)
  /-- `upsertTournament` of the calendar storage. -/
  | upsertCalendar (row : CalendarRow)
  /-- Claim a new participation fingerprint. -/
  | claimFingerprint (id fingerprint : String)
  | deleteParticipation (id : String)
  | insertParticipation (id : String) (rows : List ParticipationRow)
  /-- `saveTournamentRecord` of the tournament storage, fenced. -/
  | upsertTournament (id : String) (record : TournamentRecord) (ownerEpoch : Nat)
  /-- `removeTournamentRecords`: `WHERE tournament_id = ANY($1)`. -/
  | deleteTournaments (ids : List String)
  /-- One chunk of projection deltas. -/
  | insertDeltas (deltas : List Json)
  /-- Pending projection requests. -/
  | requestRows (table : RequestTable) (ids : List String) (source : String)

/-- Answers of the statements. -/
@[reducible] def Statement.Answer : Statement → Type
  | .selectTournaments _ => List (String × TournamentRow)
  | .selectMatchUpDraws _ _ => List (String × String × Option String)
  | .selectUpdatedAt _ => Option UpdatedAtView
  | .selectProvider _ => Option Provider
  | .claimFingerprint _ _ => Bool
  | .upsertTournament _ _ _ => Option Nat
  | .deleteTournaments _ => Nat
  | _ => Unit

/-- What a reader sees of a row. -/
def TournamentRow.updatedAtView (row : TournamentRow) (id : String) : UpdatedAtView :=
  ⟨id, row.updatedAt, row.record.organisationId, row.record.extensions⟩

/-- The fenced upsert: a row of a newer owner is left alone and reported as no row. -/
def upsertTournament (t : Tables) (id : String) (record : TournamentRecord) (ownerEpoch : Nat) :
    Tables × Option Nat :=
  match t.tournaments id with
  | some row =>
    if row.ownerEpoch ≤ ownerEpoch then
      ({ t with
        tournaments := Function.update t.tournaments id (some ⟨record, ownerEpoch, t.now⟩)
        now := t.now + 1 }, some t.now)
    else (t, none)
  | none =>
    ({ t with
      tournaments := Function.update t.tournaments id (some ⟨record, ownerEpoch, t.now⟩)
      now := t.now + 1 }, some t.now)

/-- The rows go, and their number is reported. -/
def deleteTournaments (t : Tables) (ids : List String) : Tables × Nat :=
  ({ t with tournaments := fun id => if id ∈ ids then none else t.tournaments id },
    (ids.dedup.filter fun id => (t.tournaments id).isSome).length)

/-- Execute a statement. -/
def exec : (st : Statement) → Tables → Tables × st.Answer
  | .selectTournaments ids, t =>
    (t, ids.dedup.filterMap fun id => (t.tournaments id).map (id, ·))
  | .selectMatchUpDraws id matchUpIds, t =>
    (t, matchUpIds.dedup.filterMap fun matchUpId =>
      (t.matchUpIndex id matchUpId).map (matchUpId, ·))
  | .selectUpdatedAt id, t => (t, (t.tournaments id).map fun row => row.updatedAtView id)
  | .selectProvider providerId, t => (t, t.providers providerId)
  | .upsertCalendar row, t =>
    ({ t with
      calendarTournaments := Function.update t.calendarTournaments row.tournamentId (some row) },
      ())
  | .claimFingerprint id fingerprint, t =>
    if t.participationState id = some fingerprint then (t, false)
    else ({ t with
      participationState := Function.update t.participationState id (some fingerprint) }, true)
  | .deleteParticipation id, t =>
    ({ t with participationIndex := Function.update t.participationIndex id [] }, ())
  | .insertParticipation id rows, t =>
    ({ t with participationIndex :=
      Function.update t.participationIndex id (t.participationIndex id ++ rows) }, ())
  | .upsertTournament id record ownerEpoch, t => upsertTournament t id record ownerEpoch
  | .deleteTournaments ids, t => deleteTournaments t ids
  | .insertDeltas deltas, t => ({ t with projectionQueue := t.projectionQueue ++ deltas }, ())
  | .requestRows table ids source, t =>
    ({ t with projectionRequests := Function.update t.projectionRequests table fun id =>
      if ids.contains id then some source else t.projectionRequests table id }, ())

/-- The `status` of a `MUTATION` row of the audit log. -/
inductive MutationStatus where
  | applied
  | rejected
  /-- `partial`. -/
  | inPart
  deriving DecidableEq, Repr

/-- External effects; most of them wait for the commit of a durable command. -/
inductive Effect where
  /-- Evict the collected cache keys and record the mutation. -/
  | evictAndAudit (status : MutationStatus)
  /-- Record a mutation that threw as rejected. -/
  | auditException
  /-- `recordDrawDeletion`: record the deletion of a draw. -/
  | auditDrawDeletion (tournamentId drawId : String)
  /-- `modifyProviderCalendar` with the updates of a mutation. -/
  | patchCalendar (providerId tournamentId : String) (updates : Json)
  /-- Snapshot the touched draws for the deferred integrity scan. -/
  | snapshotDraws

/-- The effects that the notices of an engine run ask for. -/
def Effect.ofNotice : Effect → Bool
  | .auditDrawDeletion _ _ => true
  | .patchCalendar _ _ _ => true
  | _ => false

/-- `modifyProviderCalendar`: rewrite the row of a listed tournament. -/
def patchCalendar (patched : CalendarRow → Json → Json) (t : Tables)
    (providerId tournamentId : String) (updates : Json) : Tables :=
  match t.calendarTournaments tournamentId with
  | none => t
  | some row =>
    let abbreviation := (t.providers providerId).bind Provider.organisationAbbreviation
    let row' : CalendarRow := ⟨tournamentId, providerId, abbreviation, patched row updates⟩
    { t with calendarTournaments := Function.update t.calendarTournaments tournamentId (some row') }

/-- The tables as the backend of server code; `patched` merges calendar updates. -/
def backend (patched : CalendarRow → Json → Json) :
    Backend Tables Statement Effect Statement.Answer where
  exec := exec
  selectReceipt t actor commandId := t.commandReceipts actor commandId
  insertReceipt t actor commandId receipt :=
    let receipts := Function.update (t.commandReceipts actor) commandId (some receipt)
    { t with commandReceipts := Function.update t.commandReceipts actor receipts }
  effect
    | .patchCalendar providerId tournamentId updates, t =>
      patchCalendar patched t providerId tournamentId updates
    | _, t => t

/-- The statement writes or deletes the row of a tournament. -/
def Statement.Changes (id : String) : Statement → Prop
  | .upsertTournament id' _ _ => id' = id
  | .deleteTournaments ids => id ∈ ids
  | _ => False

/-- A statement that neither writes nor deletes a tournament's row leaves it alone. -/
theorem exec_tournaments (st : Statement) (t : Tables) {id : String} (h : ¬ st.Changes id) :
    (exec st t).1.tournaments id = t.tournaments id := by
  cases st with
  | upsertTournament id' record ownerEpoch =>
    have hne : id ≠ id' := fun he => h he.symm
    simp only [exec, upsertTournament]
    cases t.tournaments id' with
    | none => simp [hne]
    | some row =>
      dsimp only
      split_ifs
      · simp [hne]
      · rfl
  | deleteTournaments ids => exact if_neg h
  | claimFingerprint id' fingerprint => simp only [exec]; split_ifs <;> rfl
  | _ => rfl

/-- Nor does an effect. -/
@[simp] theorem effect_tournaments (patched : CalendarRow → Json → Json) (effect : Effect)
    (t : Tables) : ((backend patched).effect effect t).tournaments = t.tournaments := by
  cases effect with
  | patchCalendar providerId tournamentId updates =>
    simp only [backend, patchCalendar]
    cases t.calendarTournaments tournamentId <;> rfl
  | _ => rfl

/-- Nor does it touch a receipt. -/
@[simp] theorem effect_commandReceipts (patched : CalendarRow → Json → Json) (effect : Effect)
    (t : Tables) : ((backend patched).effect effect t).commandReceipts = t.commandReceipts := by
  cases effect with
  | patchCalendar providerId tournamentId updates =>
    simp only [backend, patchCalendar]
    cases t.calendarTournaments tournamentId <;> rfl
  | _ => rfl

end FactoryServer.StorageTables
