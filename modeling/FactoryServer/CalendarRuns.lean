import FactoryServer.CalendarRows
import FactoryServer.DurableSave
import FactoryServer.GuardedRuns

/-!
# Calendar rows and records

Three writers reach a calendar row: a save derives it from the record it is about to
store, a partial update patches the row it has read, and a removal deletes it. The row
shows the stored record whenever no writer is under way, as long as no step takes the
row away from the record: an unlisted record that still has a row, a save that fails
after its row was written, a patch that arrives late.
-/

namespace FactoryServer.CalendarRuns

open JsonValue TournamentAccess TournamentStorage CalendarRows GuardedRuns

variable (x : External) (lower : String → String) (abbr : String → Option String)

/-! ## What a record yields -/

/-- An entry, as its row is derived from it. -/
def entryOf (entry : Json) : CalendarEntry where
  tournamentId := ((entry.field? "tournamentId").map x.pg.text).getD ""
  searchText := (entry.field? "searchText").bind Json.str?
  tournament := fun key => (entry.field? "tournament").bind (Json.field? key)
  createdByUserId := entry.field? "createdByUserId"
  published := match entry.field? "published" with
    | some (.bool true) => true
    | _ => false

/-- `toRow(getCalendarEntry(record))` for a provider. -/
def calendarRow (record : TournamentRecord) (providerId : String) :
    Option CalendarTournamentRow :=
  match getCalendarEntry x record with
  | .ok entry =>
    if truthy (entry.field? "tournamentId") then
      some (toRow lower (entryOf x entry) providerId (abbr providerId))
    else none
  | .error _ => none

/-- The row of a record in the calendar of its provider, where it is listed. -/
def derivedRow (record : TournamentRecord) : Option CalendarTournamentRow :=
  (getTournamentProviderId record).bind fun providerId =>
    if isCalendarListed record then calendarRow x lower abbr record providerId else none

/-- What is under way with the record of a tournament. -/
inductive Writer where
  /-- Nothing. -/
  | idle
  /-- The row is written, the record is not. -/
  | saving (record : TournamentRecord)
  /-- The record is gone, the row is not. -/
  | removing (record : TournamentRecord)

/-- The arguments of `modifyProviderCalendar`. -/
structure CalendarUpdate where
  /-- `providerId`. -/
  providerId : String
  /-- `tournamentId`. -/
  tournamentId : String
  /-- `updates`. -/
  updates : Fields

/-- Where a `modifyProviderCalendar` stands. -/
inductive UpdateStage where
  /-- Before it has read the row. -/
  | finding (update : CalendarUpdate)
  /-- After it. -/
  | writing (update : CalendarUpdate) (existing : CalendarTournamentRow)

/-- The stored records and rows, and what is under way. -/
structure CalendarState (ι : Type) where
  /-- `tournaments`, by id. -/
  stored : String → Option TournamentRecord := fun _ => none
  /-- `calendar_tournaments`, by id. -/
  rows : String → Option CalendarTournamentRow := fun _ => none
  /-- What is under way with a tournament. -/
  writer : String → Writer := fun _ => .idle
  /-- The partial updates in flight. -/
  updates : ι → Option UpdateStage := fun _ => none

/-- What can happen. -/
inductive CalendarAction (ι : Type) where
  /-- `saveTournamentRecord`, up to the calendar. -/
  | save (userId : Option String) (record : TournamentRecord)
  /-- The save goes on and stores the record. -/
  | store (tournamentId : String)
  /-- The save fails after it has written the row, or the removal before it deletes it. -/
  | abandon (tournamentId : String)
  /-- A save within a durable command: the row and the record are committed together. -/
  | commit (userId : Option String) (record : TournamentRecord)
  /-- `deleteSingleTournament`, up to the calendar. -/
  | remove (tournamentId : String)
  /-- `removeFromCalendar`. -/
  | detach (tournamentId : String)
  /-- A notice starts a partial update. -/
  | notice (call : ι) (update : CalendarUpdate)
  /-- The partial update reads the row. -/
  | find (call : ι)
  /-- The partial update writes the row it derives from what it has read. -/
  | patch (call : ι)
  /-- The partial update fails. -/
  | fail (call : ι)

/-- The key of a record that `saveTournamentRecord` does not refuse. -/
def admitted (record : TournamentRecord) : Option String :=
  (recordKey record).bind fun key =>
    match hasProviderOrTestId key record with
    | .ok true => some (x.pg.text key)
    | _ => none

/-- `upsertTournament`. -/
def upsertTournament (rows : String → Option CalendarTournamentRow)
    (row : CalendarTournamentRow) : String → Option CalendarTournamentRow :=
  Function.update rows row.tournamentId (some row)

/-- `addToOrUpdateCalendar`, where the record is listed. -/
def addToOrUpdateCalendar (rows : String → Option CalendarTournamentRow)
    (record : TournamentRecord) : String → Option CalendarTournamentRow :=
  match derivedRow x lower abbr record with
  | some row => upsertTournament rows row
  | none => rows

/-- `removeFromCalendar`. -/
def removeFromCalendar (rows : String → Option CalendarTournamentRow) (providerId : String)
    (tournamentId : String) : String → Option CalendarTournamentRow :=
  match rows tournamentId with
  | some existing =>
    if existing.providerId = providerId then Function.update rows tournamentId none else rows
  | none => rows

/-- The row that `modifyProviderCalendar` writes. -/
def patchedRow (update : CalendarUpdate) (existing : CalendarTournamentRow) :
    CalendarTournamentRow :=
  toRow lower (updatedEntry lower update.updates (fromRow existing)) update.providerId
    (abbr update.providerId)

variable {ι : Type} [DecidableEq ι]

/-- One step. -/
def step (s : CalendarState ι) : CalendarAction ι → CalendarState ι
  | .save userId record =>
    match admitted x record with
    | some id =>
      match s.writer id with
      | .idle =>
        { s with
          rows := addToOrUpdateCalendar x lower abbr s.rows (stampCreatedBy userId record)
          writer := Function.update s.writer id (.saving (stampCreatedBy userId record)) }
      | _ => s
    | none => s
  | .store id =>
    match s.writer id with
    | .saving record =>
      { s with
        stored := Function.update s.stored id (some record)
        writer := Function.update s.writer id .idle }
    | _ => s
  | .abandon id => { s with writer := Function.update s.writer id .idle }
  | .commit userId record =>
    match admitted x record with
    | some id =>
      match s.writer id with
      | .idle =>
        { s with
          rows := addToOrUpdateCalendar x lower abbr s.rows (stampCreatedBy userId record)
          stored := Function.update s.stored id (some (stampCreatedBy userId record)) }
      | _ => s
    | none => s
  | .remove id =>
    match s.writer id, s.stored id with
    | .idle, some record =>
      { s with
        stored := Function.update s.stored id none
        writer := Function.update s.writer id (.removing record) }
    | _, _ => s
  | .detach id =>
    match s.writer id with
    | .removing record =>
      { s with
        rows := match getTournamentProviderId record with
          | some providerId => removeFromCalendar s.rows providerId id
          | none => s.rows
        writer := Function.update s.writer id .idle }
    | _ => s
  | .notice call update =>
    match s.updates call with
    | none => { s with updates := Function.update s.updates call (some (.finding update)) }
    | some _ => s
  | .find call =>
    match s.updates call with
    | some (.finding update) =>
      { s with
        updates := Function.update s.updates call
          ((s.rows update.tournamentId).map (.writing update)) }
    | _ => s
  | .patch call =>
    match s.updates call with
    | some (.writing update existing) =>
      { s with
        rows := upsertTournament s.rows (patchedRow lower abbr update existing)
        updates := Function.update s.updates call none }
    | _ => s
  | .fail call => { s with updates := Function.update s.updates call none }

/-! ## What is to be shown -/

/-- The row of a stored record: a tournament with a provider has one exactly when it is stored and
listed, and it is the row that the stored record yields. -/
def Shows (stored : Option TournamentRecord) (row : Option CalendarTournamentRow) : Prop :=
  match stored with
  | none => row = none
  | some record => ∀ providerId, getTournamentProviderId record = some providerId →
      row = if isCalendarListed record then calendarRow x lower abbr record providerId else none

/-- What the row has to be: that of the stored record, or of the record that is being saved, or one
that the removal will find in its provider's calendar. -/
def Expected (stored : Option TournamentRecord) (row : Option CalendarTournamentRow) :
    Writer → Prop
  | .idle => Shows x lower abbr stored row
  | .saving record => Shows x lower abbr (some record) row
  | .removing record => stored = none ∧
      ∀ providerId, getTournamentProviderId record = some providerId →
        ∀ existing, row = some existing → existing.providerId = providerId

/-- A record that is not listed is saved where there is no row. -/
def KeepsListing (s : CalendarState ι) (record : TournamentRecord) : Prop :=
  ∀ id, rowId x record = some id → s.writer id = .idle →
    (getTournamentProviderId record).isSome → isCalendarListed record = false → s.rows id = none

/-- The condition of a step. -/
def Kept (s : CalendarState ι) : CalendarAction ι → Prop
  | .save userId record | .commit userId record =>
    KeepsListing x s (stampCreatedBy userId record)
  | .abandon id => Shows x lower abbr (s.stored id) (s.rows id)
  | .detach id => ∀ record, s.writer id = .removing record →
      getTournamentProviderId record = none → s.rows id = none
  | .patch call => ∀ update existing, s.updates call = some (.writing update existing) →
      Expected x lower abbr
        (s.stored (patchedRow lower abbr update existing).tournamentId)
        (some (patchedRow lower abbr update existing))
        (s.writer (patchedRow lower abbr update existing).tournamentId)
  | _ => True

/-! ## One step -/

variable {x lower abbr}

/-- The row of every tournament is as expected. -/
def AsExpected (x : External) (lower : String → String) (abbr : String → Option String)
    (s : CalendarState ι) : Prop :=
  ∀ id, Expected x lower abbr (s.stored id) (s.rows id) (s.writer id)

omit [DecidableEq ι] in
/-- One tournament changes, as it has to. -/
theorem AsExpected.change {s s' : CalendarState ι} (h : AsExpected x lower abbr s) (id : String)
    (hid : Expected x lower abbr (s'.stored id) (s'.rows id) (s'.writer id))
    (hother : ∀ other, other ≠ id → s'.stored other = s.stored other ∧
      s'.rows other = s.rows other ∧ s'.writer other = s.writer other) :
    AsExpected x lower abbr s' := by
  intro other
  by_cases hne : other = id
  · rw [hne]
    exact hid
  · obtain ⟨hstored, hrows, hwriter⟩ := hother other hne
    rw [hstored, hrows, hwriter]
    exact h other

end FactoryServer.CalendarRuns
