import FactoryServer.ExecutionQueue

/-!
# What the storage code may issue

For every function of the storage, the statements it can issue and the
connection it issues them on. Everything a caller needs to know about what a
function leaves alone follows from this one fact about it.
-/

namespace FactoryServer.StorageFrames

open JsonValue AsyncProgram TournamentAccess CommandTransaction StorageTables TournamentStorage
  ExecutionQueue

/-- The awaits of storage code that issues only data statements in `S` and only
effects in `F`: all on the command's connection when it is borrowed, none on
it otherwise. -/
def Issues (borrowed : Bool) (S : Statement → Prop) (F : Effect → Prop) :
    Await Statement Effect → Prop
  | .query c (.data st) => S st ∧ (c = .command ↔ borrowed = true)
  | .query c (.savepoint _) => borrowed = true ∧ c = .command
  | .query c (.releaseSavepoint _) => borrowed = true ∧ c = .command
  | .query c (.rollbackTo _) => borrowed = true ∧ c = .command
  | .query c .begin => borrowed = false ∧ c = .own
  | .query c .commit => borrowed = false ∧ c = .own
  | .query c .rollback => borrowed = false ∧ c = .own
  | .connect c => borrowed = false ∧ c = .own
  | .release c => borrowed = false ∧ c = .own
  | .register effect => borrowed = true ∧ F effect
  | .runEffect effect => borrowed = false ∧ F effect
  | _ => False

variable {x : External} {borrowed : Bool} {S : Statement → Prop} {F : Effect → Prop}

/-- Inside a command storage code stays on the command's connection. -/
theorem issues_inCommand {op : Await Statement Effect} (h : Issues true S F op) : InCommand op := by
  cases op with
  | query c sql =>
    cases sql with
    | data st =>
      obtain rfl : c = .command := h.2.mpr rfl
      trivial
    | savepoint name => obtain ⟨-, rfl⟩ := h; trivial
    | releaseSavepoint name => obtain ⟨-, rfl⟩ := h; trivial
    | rollbackTo name => obtain ⟨-, rfl⟩ := h; trivial
    | begin => cases h.1
    | commit => cases h.1
    | rollback => cases h.1
    | _ => exact h.elim
  | register effect => trivial
  | connect c => cases h.1
  | release c => cases h.1
  | runEffect effect => cases h.1

/-- `(commandClient(this.pool) ?? this.pool).query` of a statement, as an await. -/
abbrev clientQuery (borrowed : Bool) (st : Statement) : Await Statement Effect :=
  .query (if borrowed then .command else .pool) (.data st)

theorem issues_clientQuery {st : Statement} (h : S st) :
    Issues borrowed S F (clientQuery borrowed st) := by
  refine ⟨h, ?_⟩
  cases borrowed <;> simp

theorem uses_queryClient {st : Statement} (h : S st) :
    (queryClient borrowed st).Uses (Issues borrowed S F) :=
  Prog.uses_perform (issues_clientQuery h)

theorem uses_queryOn_command {st : Statement} (h : S st) :
    (queryOn .command st).Uses (Issues true S F) :=
  Prog.uses_perform ⟨h, by simp⟩

theorem uses_queryOn_other {c : Connection} (hc : c ≠ .command) {st : Statement} (h : S st) :
    (queryOn c st).Uses (Issues false S F) :=
  Prog.uses_perform ⟨h, by simp [hc]⟩

theorem uses_inSavepoint {name : String} {work : Store Unit}
    (h : work.Uses (Issues true S F)) : (inSavepoint name work).Uses (Issues true S F) := by
  refine Prog.uses_bind (Prog.uses_perform ⟨rfl, rfl⟩) fun _ => ?_
  refine Prog.uses_tryCatch (Prog.uses_bind h fun _ => Prog.uses_perform ⟨rfl, rfl⟩) fun e => ?_
  exact Prog.uses_bind (Prog.uses_perform ⟨rfl, rfl⟩) fun _ => trivial

/-- The transaction of `work` on a connection of its own. -/
theorem uses_ownWork {work : Store Unit} (h : work.Uses (Issues false S F)) :
    (((query .own .begin).bind fun _ => work).tryCatch fun error =>
      ((query .own .rollback).tryCatch fun _ => .ret ()).bind fun _ => .fail error).Uses
        (Issues false S F) := by
  refine Prog.uses_tryCatch (Prog.uses_bind (Prog.uses_perform ⟨rfl, rfl⟩) fun _ => h) fun e => ?_
  exact Prog.uses_bind (Prog.uses_tryCatch (Prog.uses_perform ⟨rfl, rfl⟩) fun _ => trivial)
    fun _ => trivial

/-- The transaction, with the connection checked out and in. -/
theorem uses_ownTransaction {work : Store Unit} (h : work.Uses (Issues false S F)) :
    ((perform (.connect .own) : Store Unit).bind fun _ =>
      Prog.tryFinally (((query .own .begin).bind fun _ => work).tryCatch fun error =>
        ((query .own .rollback).tryCatch fun _ => .ret ()).bind fun _ => .fail error)
        (perform (.release .own))).Uses (Issues false S F) := by
  refine Prog.uses_bind (Prog.uses_perform ⟨rfl, rfl⟩) fun _ => ?_
  refine Prog.uses_attempt (uses_ownWork h) fun out => ?_
  exact Prog.uses_bind (Prog.uses_perform ⟨rfl, rfl⟩) fun _ => Prog.uses_settled out

theorem uses_failSoft {p : Store Unit} (h : p.Uses (Issues borrowed S F)) :
    (failSoft p).Uses (Issues borrowed S F) :=
  Prog.uses_tryCatch h fun _ => trivial

theorem uses_defer {effect : Effect} (h : F effect) :
    (defer borrowed effect).Uses (Issues borrowed S F) := by
  refine uses_failSoft ?_
  unfold afterCommandCommit
  cases borrowed with
  | true => exact Prog.uses_perform ⟨rfl, h⟩
  | false => exact Prog.uses_perform ⟨rfl, h⟩

/-! ## Reads -/

/-- Statements that only read. -/
inductive Reads : Statement → Prop
  | tournaments (ids : List String) : Reads (.selectTournaments ids)
  | draws (id : String) (matchUpIds : List String) : Reads (.selectMatchUpDraws id matchUpIds)
  | updatedAt (id : String) : Reads (.selectUpdatedAt id)
  | provider (id : String) : Reads (.selectProvider id)

theorem exec_reads {st : Statement} (h : Reads st) (t : Tables) : (exec st t).1 = t := by
  cases h <;> rfl

variable {allowed : Await Statement Effect → Prop}

theorem uses_fetchTournamentRecords (h : ∀ st, Reads st → allowed (clientQuery borrowed st))
    (ids id : Option Json) :
    (fetchTournamentRecords x borrowed ids id).Uses allowed := by
  unfold fetchTournamentRecords
  dsimp only
  split_ifs
  · trivial
  · cases x.pg.textArray _ with
    | none => trivial
    | some ids => exact Prog.uses_bind (Prog.uses_perform (h _ (.tournaments _))) fun _ => trivial
  · trivial
  · cases x.pg.textArray _ with
    | none => trivial
    | some ids => exact Prog.uses_bind (Prog.uses_perform (h _ (.tournaments _))) fun _ => trivial

theorem uses_fetchTournamentUpdatedAt (h : ∀ st, Reads st → allowed (clientQuery borrowed st))
    (id : Option Json) :
    (fetchTournamentUpdatedAt x borrowed id).Uses allowed := by
  unfold fetchTournamentUpdatedAt
  cases id with
  | none => trivial
  | some id =>
    dsimp only
    split_ifs
    · exact Prog.uses_perform (h _ (.updatedAt _))
    · trivial

theorem uses_resolveMatchUpReferencesFromIndex
    (h : ∀ st, Reads st → allowed (clientQuery borrowed st)) (ids : Json) (methods : List Json) :
    (resolveMatchUpReferencesFromIndex x borrowed ids methods).Uses allowed := by
  unfold resolveMatchUpReferencesFromIndex
  dsimp only
  split_ifs
  · trivial
  · refine Prog.uses_bind ?_ fun _ => trivial
    unfold fetchMatchUpDraws
    cases (ids.iterate?.getD []).head? with
    | none => trivial
    | some id =>
      dsimp only
      split_ifs
      · trivial
      · cases x.pg.textArray _ with
        | none => trivial
        | some ids => exact Prog.uses_perform (h _ (.draws _ _))

theorem uses_unexpectedServerUpdatedAt (h : ∀ st, Reads st → allowed (clientQuery borrowed st))
    (fields : List (String × Json)) (savedIds : List String) :
    (unexpectedServerUpdatedAt x borrowed fields savedIds).Uses allowed := by
  induction savedIds with
  | nil => trivial
  | cons tid rest ih =>
    unfold unexpectedServerUpdatedAt
    cases fields.lookup tid with
    | none => exact ih
    | some expected =>
      refine Prog.uses_bind (uses_fetchTournamentUpdatedAt h _) fun stored => ?_
      dsimp only
      split_ifs
      · exact ih
      · trivial

/-! ## Saving -/

/-- The statements that save one record. -/
inductive Saves (x : External) (ownerEpoch : Nat) (userId : Option String)
    (record : TournamentRecord) : Statement → Prop
  | provider (id : String) : Saves x ownerEpoch userId record (.selectProvider id)
  /-- The calendar row of the entry the record yields. -/
  | calendar {entry key : Json} {row : CalendarRow}
      (he : getCalendarEntry x (stampCreatedBy userId record) = .ok entry)
      (hk : entry.field? "tournamentId" = some key) (hr : row.tournamentId = x.pg.text key) :
      Saves x ownerEpoch userId record (.upsertCalendar row)
  | claim {id : String} (h : rowId x record = some id) (fingerprint : String) :
      Saves x ownerEpoch userId record (.claimFingerprint id fingerprint)
  | delete {id : String} (h : rowId x record = some id) :
      Saves x ownerEpoch userId record (.deleteParticipation id)
  | insert {id : String} (h : rowId x record = some id) (rows : List ParticipationRow) :
      Saves x ownerEpoch userId record (.insertParticipation id rows)
  | upsert {id : String} (h : rowId x record = some id) :
      Saves x ownerEpoch userId record
        (.upsertTournament id (stampCreatedBy userId record) ownerEpoch)

/-- Stamping the creator leaves the record's key. -/
@[simp] theorem recordKey_stampCreatedBy (userId : Option String) (record : TournamentRecord) :
    recordKey (stampCreatedBy userId record) = recordKey record := by
  unfold stampCreatedBy
  cases nonEmpty userId with
  | none => rfl
  | some userId => dsimp only; split_ifs <;> rfl

@[simp] theorem rowId_stampCreatedBy (userId : Option String) (record : TournamentRecord) :
    rowId x (stampCreatedBy userId record) = rowId x record := by
  simp [rowId]

theorem rowId_of_recordKey {record : TournamentRecord} {key : Json}
    (h : recordKey record = some key) : rowId x record = some (x.pg.text key) := by
  simp [rowId, h]

theorem uses_writeRows {client : Connection} {id : String} {unique : List ParticipationRow}
    {close : Store Unit} (hclient : client = .command ↔ borrowed = true)
    (hclaim : ∀ fingerprint, S (.claimFingerprint id fingerprint))
    (hdelete : S (.deleteParticipation id)) (hinsert : ∀ rows, S (.insertParticipation id rows))
    (hclose : close.Uses (Issues borrowed S F)) :
    (writeRows x client id unique close).Uses (Issues borrowed S F) := by
  have hq : ∀ st, S st → (queryOn client st).Uses (Issues borrowed S F) := fun st h =>
    Prog.uses_perform ⟨h, hclient⟩
  have hrows : (if unique.isEmpty then .ret () else
      queryOn client (.insertParticipation id unique) : Store Unit).Uses (Issues borrowed S F) := by
    split_ifs
    · trivial
    · exact hq _ (hinsert _)
  refine Prog.uses_bind (hq _ (hclaim _)) fun claimed => ?_
  cases claimed with
  | false => exact hclose
  | true => exact Prog.uses_bind (hq _ hdelete) fun _ => Prog.uses_bind hrows fun _ => hclose

theorem uses_replaceTournamentRows {id : String} (rows : List ParticipationRow)
    (hclaim : ∀ fingerprint, S (.claimFingerprint id fingerprint))
    (hdelete : S (.deleteParticipation id)) (hinsert : ∀ rows, S (.insertParticipation id rows)) :
    (replaceTournamentRows x borrowed id rows).Uses (Issues borrowed S F) := by
  unfold replaceTournamentRows
  cases borrowed with
  | true =>
    refine Prog.uses_tryCatch (Prog.uses_bind (Prog.uses_perform ⟨rfl, rfl⟩) fun _ => ?_)
      fun e => ?_
    · exact uses_writeRows (by simp) hclaim hdelete hinsert (Prog.uses_perform ⟨rfl, rfl⟩)
    · exact Prog.uses_bind (Prog.uses_tryCatch (Prog.uses_perform ⟨rfl, rfl⟩) fun _ => trivial)
        fun _ => trivial
  | false =>
    exact uses_ownTransaction
      (uses_writeRows (by simp) hclaim hdelete hinsert (Prog.uses_perform ⟨rfl, rfl⟩))

theorem uses_addToOrUpdateCalendar {ownerEpoch : Nat} {userId : Option String}
    {record : TournamentRecord} (h : ∀ st, Saves x ownerEpoch userId record st → S st)
    (providerId : String) :
    (addToOrUpdateCalendar x borrowed providerId (stampCreatedBy userId record)).Uses
      (Issues borrowed S F) := by
  refine Prog.uses_bind (uses_queryClient (h _ (.provider _))) fun provider => ?_
  cases provider with
  | none => trivial
  | some provider =>
    cases he : getCalendarEntry x (stampCreatedBy userId record) with
    | error e => trivial
    | ok entry =>
      cases hk : entry.field? "tournamentId" with
      | none => simp only [hk]; trivial
      | some key =>
        simp only [hk]
        split_ifs
        · exact uses_queryClient (h _ (.calendar he hk rfl))
        · trivial

theorem uses_updateParticipationIndex {ownerEpoch : Nat} {userId : Option String}
    {record : TournamentRecord} {key : Json} (hkey : recordKey record = some key)
    (h : ∀ st, Saves x ownerEpoch userId record st → S st) :
    (updateParticipationIndex x borrowed (stampCreatedBy userId record)).Uses
      (Issues borrowed S F) := by
  have hid := rowId_of_recordKey (x := x) hkey
  refine Prog.uses_tryCatch ?_ fun _ => trivial
  cases x.getParticipation (stampCreatedBy userId record) with
  | error e => trivial
  | ok rows =>
    rw [rowId_stampCreatedBy, hid]
    exact uses_replaceTournamentRows rows (fun _ => h _ (.claim hid _)) (h _ (.delete hid))
      fun _ => h _ (.insert hid _)

/-- Saving a record issues the statements that save it. -/
theorem uses_saveTournamentRecord {ownerEpoch : Nat} {userId : Option String}
    {record : TournamentRecord} (h : ∀ st, Saves x ownerEpoch userId record st → S st) :
    (saveTournamentRecord x borrowed ownerEpoch userId record).Uses (Issues borrowed S F) := by
  unfold saveTournamentRecord
  cases hkey : recordKey record with
  | none => trivial
  | some key =>
    dsimp only
    cases hasProviderOrTestId key record with
    | error e => trivial
    | ok allowed =>
      cases allowed with
      | false => trivial
      | true =>
        refine Prog.uses_bind ?_ fun _ =>
          Prog.uses_bind (uses_updateParticipationIndex hkey h) fun _ => ?_
        · cases getTournamentProviderId (stampCreatedBy userId record) with
          | none => trivial
          | some providerId =>
            dsimp only
            split_ifs
            · exact uses_addToOrUpdateCalendar h providerId
            · trivial
        · unfold PostgresTournamentStorage.saveTournamentRecord
          rw [recordKey_stampCreatedBy, hkey]
          have hupsert := h _ (.upsert (rowId_of_recordKey hkey))
          refine Prog.uses_bind (uses_queryClient hupsert) fun row => ?_
          cases row <;> trivial

/-- The loop issues the statements that save its records. -/
theorem uses_saveLoop {ownerEpoch : Nat} {userId : Option String} {records : RecordMap}
    (h : ∀ record ∈ records, ∀ st, Saves x ownerEpoch userId record.2 st → S st)
    (bytes : List (String × Nat)) (updated : List (String × String)) :
    (saveLoop x borrowed ownerEpoch userId records bytes updated).Uses (Issues borrowed S F) := by
  induction records generalizing bytes updated with
  | nil => trivial
  | cons record rest ih =>
    refine Prog.uses_bind (uses_saveTournamentRecord (h record List.mem_cons_self)) fun result => ?_
    cases result with
    | error failure => trivial
    | ok saved => exact ih (fun r hr => h r (List.mem_cons_of_mem _ hr)) _ _

/-! ## The rows a save leaves -/

/-- The last of the records written under a row id. -/
def lastRecord (x : External) : RecordMap → String → Option TournamentRecord
  | [], _ => none
  | (_, record) :: rest, id =>
    (lastRecord x rest id).or (if rowId x record = some id then some record else none)

theorem exists_of_lastRecord {records : RecordMap} {id : String} {record : TournamentRecord}
    (h : lastRecord x records id = some record) : ∃ r ∈ records, rowId x r.2 = some id := by
  induction records with
  | nil => cases h
  | cons head rest ih =>
    simp only [lastRecord] at h
    cases hl : lastRecord x rest id with
    | some last =>
      obtain ⟨r, hr, hid⟩ := ih (hl.trans (by rw [hl] at h; simpa using h))
      exact ⟨r, List.mem_cons_of_mem _ hr, hid⟩
    | none =>
      rw [hl, Option.none_or] at h
      split_ifs at h with hid
      exact ⟨head, List.mem_cons_self, hid⟩

/-- `tournaments` after the records were saved one after the other: a row holds
the last record saved under its id, and every other row is as it was. -/
def SavedRows (x : External) (ownerEpoch : Nat) (userId : Option String)
    (before : String → Option TournamentRow) (records : RecordMap)
    (after : String → Option TournamentRow) : Prop :=
  ∀ id, match lastRecord x records id with
    | some record =>
      ∃ updatedAt, after id = some ⟨stampCreatedBy userId record, ownerEpoch, updatedAt⟩
    | none => after id = before id

theorem savedRows_nil (ownerEpoch : Nat) (userId : Option String)
    (rows : String → Option TournamentRow) : SavedRows x ownerEpoch userId rows [] rows :=
  fun _ => rfl

theorem savedRows_cons {ownerEpoch : Nat} {userId : Option String}
    {before after : String → Option TournamentRow} {key id : String} {record : TournamentRecord}
    {updatedAt : Nat} {rest : RecordMap} (hid : rowId x record = some id)
    (h : SavedRows x ownerEpoch userId
      (Function.update before id (some ⟨stampCreatedBy userId record, ownerEpoch, updatedAt⟩)) rest
      after) : SavedRows x ownerEpoch userId before ((key, record) :: rest) after := by
  intro id'
  have h' := h id'
  simp only [lastRecord]
  cases hl : lastRecord x rest id' with
  | some last =>
    rw [hl] at h'
    exact h'
  | none =>
    rw [hl] at h'
    by_cases he : id' = id
    · subst he
      simp only [hid, Option.none_or, if_true]
      exact ⟨updatedAt, by simpa using h'⟩
    · have hne : rowId x record ≠ some id' := by
        rw [hid]
        exact fun h => he (Option.some.inj h).symm
      simp only [hne, Option.none_or, if_false]
      simpa [he] using h'

/-- What the fenced upsert does to the rows. -/
theorem exec_upsert_tournaments (t : Tables) (id : String) (record : TournamentRecord)
    (ownerEpoch : Nat) :
    match (exec (.upsertTournament id record ownerEpoch) t).2 with
    | some updatedAt => (exec (.upsertTournament id record ownerEpoch) t).1.tournaments =
        Function.update t.tournaments id (some ⟨record, ownerEpoch, updatedAt⟩)
    | none => (exec (.upsertTournament id record ownerEpoch) t).1 = t := by
  simp only [exec, upsertTournament]
  cases t.tournaments id with
  | none => rfl
  | some row =>
    dsimp only
    by_cases he : row.ownerEpoch ≤ ownerEpoch
    · simp only [if_pos he]
    · simp only [if_neg he]

/-- No other statement changes a row. -/
theorem exec_keeps_tournaments {st : Statement}
    (h : ∀ id, ¬ st.Changes id) (t : Tables) :
    (exec st t).1.tournaments = t.tournaments :=
  funext fun id => exec_tournaments st t (h id)

/-! ## The projection -/

/-- The statements of the projection outbox. -/
inductive Projects : Statement → Prop
  | deltas (deltas : List Json) : Projects (.insertDeltas deltas)
  | requests (table : RequestTable) (ids : List String) (source : String) :
      Projects (.requestRows table ids source)

theorem uses_enqueue (h : ∀ st, Projects st → S st) (deltas : List Json) :
    (enqueue borrowed deltas).Uses (Issues borrowed S F) := by
  unfold enqueue
  split_ifs with hd hb
  · trivial
  · subst hb
    exact uses_inSavepoint (Prog.uses_forEach fun chunk => uses_queryOn_command (h _ (.deltas _)))
  · obtain rfl : borrowed = false := by simpa using hb
    refine uses_ownTransaction (Prog.uses_bind (Prog.uses_forEach fun chunk => ?_) fun _ => ?_)
    · exact uses_queryOn_other (by decide) (h _ (.deltas _))
    · exact Prog.uses_perform ⟨rfl, rfl⟩

theorem uses_request (h : ∀ st, Projects st → S st) (table : RequestTable) (ids : List Json)
    (source : String) : (request x borrowed table ids source).Uses (Issues borrowed S F) := by
  unfold request
  dsimp only
  split_ifs with hd hb
  · trivial
  · subst hb
    refine uses_inSavepoint ?_
    cases x.pg.textArray _ with
    | none => trivial
    | some ids => exact uses_queryOn_command (h _ (.requests _ _ _))
  · obtain rfl : borrowed = false := by simpa using hb
    cases x.pg.textArray _ with
    | none => trivial
    | some ids => exact uses_queryOn_other (by decide) (h _ (.requests _ _ _))

theorem uses_enqueueSnapshots (h : ∀ st, Projects st → S st) (services : Services)
    (records : RecordMap) (source : String) :
    (enqueueSnapshots x services borrowed records source).Uses (Issues borrowed S F) := by
  unfold enqueueSnapshots
  dsimp only
  split_ifs
  · trivial
  · exact Prog.uses_bind (uses_failSoft (uses_request h _ _ _)) fun _ =>
      uses_failSoft (uses_request h _ _ _)
  · refine Prog.uses_bind (uses_failSoft (uses_request h _ _ _)) fun _ =>
      Prog.uses_forEach fun record => uses_failSoft ?_
    cases services.snapshotDeltas record.2 with
    | error e => trivial
    | ok deltas => exact uses_enqueue h deltas

theorem uses_flushProjection (h : ∀ st, Projects st → S st) (services : Services)
    (outcome : EngineOutcome) (methods : List Json) (ids : Json) :
    (flushProjection x services borrowed outcome methods ids).Uses (Issues borrowed S F) := by
  unfold flushProjection
  split_ifs
  · refine Prog.uses_bind (uses_failSoft ?_) fun _ => uses_failSoft ?_
    · cases outcome.deltas with
      | error e => trivial
      | ok deltas => exact uses_enqueue h deltas
    · dsimp only
      split_ifs
      · trivial
      · exact uses_request h _ _ _
  · trivial

/-! ## The two commands -/

theorem uses_saveMutated (hproject : ∀ st, Projects st → S st)
    (hsave : ∀ record st, Saves x 0 none record st → S st) (heffect : ∀ effect, F effect)
    (services : Services) (outcome : EngineOutcome) (methods : List Json) (ids : Json)
    {k : Option (List (String × String)) → Store (Option Json)}
    (hk : ∀ updated, (k updated).Uses (Issues borrowed S F)) :
    (saveMutated x services borrowed outcome methods ids k).Uses (Issues borrowed S F) := by
  unfold saveMutated
  split_ifs
  · refine Prog.uses_bind (uses_saveLoop (fun record _ => hsave record.2) _ _) fun saved => ?_
    cases saved with
    | error failure => trivial
    | ok summary =>
      exact Prog.uses_bind (uses_defer (heffect _)) fun _ =>
        Prog.uses_bind (uses_flushProjection hproject services outcome methods ids) fun _ => hk _
  · exact hk _

theorem uses_mutateRows (hproject : ∀ st, Projects st → S st)
    (hsave : ∀ record st, Saves x 0 none record st → S st) (heffect : ∀ effect, F effect)
    (services : Services) (engine : Engine) (payload ids : Json) (methods : List Json)
    (rows : List (String × TournamentRow)) :
    (mutateRows x services engine borrowed payload ids methods rows).Uses
      (Issues borrowed S F) := by
  refine Prog.uses_bind (Prog.uses_settled _) fun methods => ?_
  split_ifs
  · trivial
  · refine Prog.uses_bind (Prog.uses_forEach fun effect => uses_defer (heffect _)) fun _ => ?_
    refine Prog.uses_bind (Prog.uses_settled _) fun outcome => ?_
    refine uses_saveMutated hproject hsave heffect services outcome methods ids fun updated => ?_
    exact Prog.uses_bind (uses_defer (heffect _)) fun _ => trivial

theorem uses_mutate (hread : ∀ st, Reads st → S st) (hproject : ∀ st, Projects st → S st)
    (hsave : ∀ record st, Saves x 0 none record st → S st) (heffect : ∀ effect, F effect)
    (services : Services) (engine : Engine) (payload ids : Json) (methods : List Json) :
    (mutate x services engine borrowed payload ids methods).Uses (Issues borrowed S F) := by
  have hclient : ∀ st, Reads st → Issues borrowed S F (clientQuery borrowed st) :=
    fun st h => issues_clientQuery (hread st h)
  refine Prog.uses_bind (uses_resolveMatchUpReferencesFromIndex hclient ids methods)
    fun methods => ?_
  refine Prog.uses_bind (uses_fetchTournamentRecords hclient _ _) fun fetched => ?_
  cases fetched with
  | none => trivial
  | some rows =>
    exact uses_mutateRows hproject hsave heffect services engine payload ids methods rows

theorem uses_replaceRecords (hread : ∀ st, Reads st → S st) (hproject : ∀ st, Projects st → S st)
    (services : Services) (params : Json) {userId : Option String} {records : RecordMap}
    (hsave : ∀ record ∈ records, ∀ st, Saves x 0 userId record.2 st → S st) :
    (replaceRecords x services borrowed params userId records).Uses (Issues borrowed S F) := by
  refine Prog.uses_bind ?_ fun conflict => ?_
  · cases expectedFields (params.field? "expectedServerUpdatedAt") with
    | none => trivial
    | some fields =>
      exact uses_unexpectedServerUpdatedAt (fun st h => issues_clientQuery (hread st h)) fields _
  · cases conflict with
    | some conflict => trivial
    | none =>
      refine Prog.uses_bind (uses_saveLoop hsave _ _) fun saved => ?_
      cases saved with
      | error failure => trivial
      | ok summary =>
        exact Prog.uses_bind (uses_enqueueSnapshots hproject services records _) fun _ => trivial

end FactoryServer.StorageFrames
