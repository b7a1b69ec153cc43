import FactoryServer.GuardedRuns
import FactoryServer.InsertionMaps
import FactoryServer.TextCodes
import Mathlib.Data.List.Perm.Basic

/-!
# The participation index

A tournament's participation rows are replaced as a whole. A fingerprint of the rows is
claimed first, in the same transaction, and rows whose fingerprint is stored already are
not written again. A command lends its connection, and then a savepoint stands for the
transaction. Every statement is a step of its own and may fail.
-/

namespace FactoryServer.ParticipationIndex

open InsertionMaps TextCodes GuardedRuns

/-! ## Rows and fingerprints -/

/-- `ParticipationSubjectType`. -/
inductive ParticipationSubjectType where
  | TEAM
  | PERSON
  deriving DecidableEq

/-- The subject type as a text. -/
def ParticipationSubjectType.text : ParticipationSubjectType → String
  | .TEAM => "TEAM"
  | .PERSON => "PERSON"

/-- A row of `participation_index` of one tournament. -/
structure ParticipationRow where
  /-- `subjectType`. -/
  subjectType : ParticipationSubjectType
  /-- `subjectId`. -/
  subjectId : String
  /-- `participantId`. -/
  participantId : String
  /-- The body that issued `subjectId`. -/
  organisationId : Option String
  /-- `providerId`. -/
  providerId : Option String
  /-- `tournamentName`. -/
  tournamentName : Option String
  /-- `startDate`. -/
  startDate : Option String
  /-- `endDate`. -/
  endDate : Option String
  /-- `eventCount`. -/
  eventCount : Option ℤ
  deriving DecidableEq

/-- `(subject_type, subject_id, participant_id)`, the primary key within a tournament. -/
def primaryKey (row : ParticipationRow) : ParticipationSubjectType × String × String :=
  (row.subjectType, row.subjectId, row.participantId)

/-- `rowKey`. -/
def rowKey (row : ParticipationRow) : String :=
  row.subjectType.text ++ "|" ++ row.subjectId ++ "|" ++ row.participantId

/-- `uniqueByKey`. -/
def uniqueByKey (rows : List ParticipationRow) : List ParticipationRow :=
  (mapOf (rows.map fun row => (rowKey row, row))).map Prod.snd

/-- `JSON.stringify` of a text that may be missing, and what separates it from the next one. -/
def jsonCell : Option String → List Char
  | none => ['n', 'u', 'l', 'l', ',']
  | some text => jsonString text ++ [',']

/-- The texts of a row in the order of the array. -/
def rowCells (row : ParticipationRow) : List (Option String) :=
  [some row.subjectType.text, some row.subjectId, some row.participantId, row.organisationId,
    row.providerId, row.tournamentName, row.startDate, row.endDate]

/-- `row.eventCount ?? null`. -/
def jsonCount : Option ℤ → List Char
  | none => ['n', 'u', 'l', 'l']
  | some count => jsonNumber count

/-- `JSON.stringify` of a row's array. -/
def rowText (row : ParticipationRow) : List Char :=
  '[' :: ((rowCells row).flatMap jsonCell ++ (jsonCount row.eventCount ++ [']']))

/-- `fingerprintRows`. -/
def fingerprintRows (sha256 : String → String) (rows : List ParticipationRow) : String :=
  sha256 (String.ofList (joinLines (sortTexts (rows.map rowText))))

/-- The rows, one for each primary key, the last one given. -/
def lastByPrimaryKey (rows : List ParticipationRow) : List ParticipationRow :=
  (mapOf (rows.map fun row => (primaryKey row, row))).map Prod.snd

/-- The joined key tells the rows apart as the primary key does. -/
def Unambiguous (rows : List ParticipationRow) : Prop :=
  ∀ row ∈ rows, ∀ other ∈ rows, rowKey row = rowKey other → primaryKey row = primaryKey other

/-! ### The fingerprint of rows -/

theorem jsonCell_prefixFree : PrefixFree jsonCell := by
  intro cell other hprefix
  have hnull : ∀ text : String, ¬jsonCell none <+: jsonCell (some text) ∧
      ¬jsonCell (some text) <+: jsonCell none := fun text =>
    ⟨fun h => absurd (List.cons_prefix_cons.mp h).1 (by decide),
      fun h => absurd (List.cons_prefix_cons.mp h).1 (by decide)⟩
  match cell, other with
  | none, none => rfl
  | none, some text => exact absurd hprefix (hnull text).1
  | some text, none => exact absurd hprefix (hnull text).2
  | some text, some other =>
    obtain ⟨rest, heq⟩ := hprefix
    unfold jsonCell at heq
    rw [List.append_assoc] at heq
    exact congrArg some (jsonString_prefixFree.append_inj heq).1

theorem jsonCount_injective : Function.Injective jsonCount := by
  have hnull : ∀ count : ℤ, jsonNumber count ≠ ['n', 'u', 'l', 'l'] := by
    intro count h
    match count with
    | .ofNat n =>
      have hin : 'n' ∈ Nat.toDigits 10 n := by
        change Nat.toDigits 10 n = _ at h
        rw [h]
        exact List.mem_cons_self
      exact not_mem_toDigits (by decide) n hin
    | .negSucc n => exact absurd (List.cons.inj h).1 (by decide)
  intro count other h
  match count, other with
  | none, none => rfl
  | none, some other => exact absurd h.symm (hnull other)
  | some count, none => exact absurd h (hnull count)
  | some count, some other => exact congrArg some (jsonNumber_injective h)

theorem text_injective : Function.Injective ParticipationSubjectType.text := by
  intro a b h
  cases a <;> cases b <;> first | rfl | exact absurd h (by decide)

/-- The text of a row determines it. -/
theorem rowText_injective : Function.Injective rowText := by
  intro row other h
  have hlength : (rowCells row).length = (rowCells other).length := rfl
  obtain ⟨hcells, hrest⟩ :=
    jsonCell_prefixFree.sequence_inj hlength (List.cons.inj h).2
  have hcount := jsonCount_injective (List.append_cancel_right hrest)
  obtain ⟨subjectType, subjectId, participantId, organisationId, providerId, tournamentName,
    startDate, endDate, eventCount⟩ := row
  obtain ⟨subjectType', subjectId', participantId', organisationId', providerId',
    tournamentName', startDate', endDate', eventCount'⟩ := other
  simp only [rowCells, List.cons.injEq, Option.some.injEq, and_true] at hcells hcount
  obtain ⟨htype, rfl, rfl, rfl, rfl, rfl, rfl, rfl⟩ := hcells
  rw [text_injective htype, hcount]

/-- The text of a row is a line. -/
theorem rowText_line (row : ParticipationRow) : rowText row ≠ [] ∧ lineBreak ∉ rowText row := by
  have hcell : ∀ cell, lineBreak ∉ jsonCell cell := by
    intro cell hin
    match cell with
    | none => exact absurd hin (by decide)
    | some text =>
      rcases List.mem_append.mp hin with hstring | hcomma
      · exact lineBreak_not_mem_jsonString text hstring
      · exact absurd (List.mem_singleton.mp hcomma) (by decide)
  have hcount : ∀ count, lineBreak ∉ jsonCount count := by
    intro count hin
    match count with
    | none => exact absurd hin (by decide)
    | some count => exact lineBreak_not_mem_jsonNumber count hin
  refine ⟨List.cons_ne_nil _ _, fun hin => ?_⟩
  rcases List.mem_cons.mp hin with hopen | hin
  · exact absurd hopen (by decide)
  rcases List.mem_append.mp hin with hcells | hin
  · obtain ⟨cell, -, hin⟩ := List.mem_flatMap.mp hcells
    exact hcell cell hin
  rcases List.mem_append.mp hin with hnumber | hclose
  · exact hcount _ hnumber
  · exact absurd (List.mem_singleton.mp hclose) (by decide)

/-- Two lists have one fingerprint where they are the same rows in any order. -/
theorem fingerprintRows_eq_iff {sha256 : String → String} (hsha : Function.Injective sha256)
    {rows others : List ParticipationRow} :
    fingerprintRows sha256 rows = fingerprintRows sha256 others ↔ rows.Perm others := by
  have hlines : ∀ rows : List ParticipationRow, ∀ text ∈ sortTexts (rows.map rowText),
      text ≠ [] ∧ lineBreak ∉ text := by
    intro rows text hin
    obtain ⟨row, -, rfl⟩ := List.mem_map.mp (List.mem_mergeSort.mp hin)
    exact rowText_line row
  constructor
  · intro h
    have htexts := joinLines_inj (hlines rows) (hlines others)
      (String.ofList_injective (hsha h))
    have hsorted : ∀ texts, (sortTexts texts).Perm texts := fun texts =>
      List.mergeSort_perm texts notAfter
    have hperm : (rows.map rowText).Perm (others.map rowText) := by
      refine (hsorted _).symm.trans ?_
      rw [htexts]
      exact hsorted _
    exact (List.map_perm_map_iff rowText_injective).mp hperm
  · intro h
    unfold fingerprintRows
    rw [sortTexts_perm (h.map rowText)]

/-! ## The tables and their clients -/

/-- What the tables hold of a tournament. -/
structure IndexEntry where
  /-- Its rows of `participation_index`. -/
  rows : List ParticipationRow := []
  /-- Its row of `participation_index_state`. -/
  fingerprint : Option String := none
  deriving DecidableEq

/-- A row of `participation_index_state` that a transaction has locked, and what the transaction
has made of the tournament. -/
structure Lock (ι : Type) where
  /-- The connection. -/
  client : ι
  /-- What the transaction sees. -/
  entry : IndexEntry
  /-- Its rows have been deleted by the transaction. -/
  rewritten : Bool
  deriving DecidableEq

/-- The statement that a call comes to. -/
inductive Stage where
  | claiming
  | deleting
  | inserting
  /-- `COMMIT`, or `RELEASE SAVEPOINT` on a command's connection. -/
  | ending (unchanged : Bool)
  deriving DecidableEq

/-- A call of `replaceTournamentRows` under way. -/
structure Call (ι : Type) where
  /-- `tournamentId`. -/
  tournamentId : String
  /-- `rows`. -/
  rows : List ParticipationRow
  /-- The transaction's lock on the tournament at `BEGIN` or `SAVEPOINT`. -/
  savepoint : Option (Lock ι)
  /-- The next statement. -/
  stage : Stage

/-- A connection. -/
structure Client (ι : Type) where
  /-- A command's transaction is open on it. -/
  command : Bool := false
  /-- The call that uses it. -/
  call : Option (Call ι) := none

/-- The statement of `deleteTournamentRows` under way: which rows its snapshot still reaches. A row
that was updated since is reached, a row that was deleted or inserted since is not. -/
structure Deletion where
  /-- `tournamentId`. -/
  tournamentId : String
  /-- It reaches the row of `participation_index_state`. -/
  reachesState : Bool
  /-- It reaches the rows of `participation_index`. -/
  reachesRows : Bool

/-- How a call of `replaceTournamentRows` ended. -/
structure Report where
  /-- `tournamentId`. -/
  tournamentId : String
  /-- `rows`. -/
  rows : List ParticipationRow
  /-- `unchanged` of its answer, or `none` where it threw. -/
  unchanged : Option Bool
  /-- The tournament's rows as they are without the call. -/
  before : List ParticipationRow
  /-- The tournament's rows when the call ends. -/
  after : List ParticipationRow

/-- The database and its clients. -/
structure IndexState (ι : Type) where
  /-- What is committed, by tournament id. -/
  committed : String → IndexEntry := fun _ => {}
  /-- The locked rows of `participation_index_state`, by tournament id. -/
  locks : String → Option (Lock ι) := fun _ => none
  /-- The connections. -/
  clients : ι → Client ι := fun _ => {}
  /-- The statements of `deleteTournamentRows` under way. -/
  deletions : List Deletion := []
  /-- How the calls ended. -/
  reports : List Report := []

/-- What may happen next. -/
inductive IndexAction (ι : Type) where
  /-- A command opens its transaction. -/
  | openCommand (client : ι)
  /-- A command commits or rolls back. -/
  | closeCommand (client : ι) (commit : Bool)
  /-- `replaceTournamentRows` is called. -/
  | replace (client : ι) (tournamentId : String) (rows : List ParticipationRow)
  /-- The next statement of the call executes. -/
  | statement (client : ι)
  /-- The next statement of the call fails, and its connection is lost perhaps. -/
  | fail (client : ι) (lost : Bool)
  /-- The statement of `deleteTournamentRows` takes its snapshot. -/
  | startDelete (tournamentId : String)
  /-- The statement of `deleteTournamentRows` executes. -/
  | finishDelete (deletion : ℕ)
  /-- The statement of `deleteTournamentRows` fails. -/
  | failDelete (deletion : ℕ)

section Steps

variable {ι : Type} [DecidableEq ι]

/-- The lock that a connection holds on a tournament. -/
def lockOf (s : IndexState ι) (client : ι) (tournamentId : String) : Option (Lock ι) :=
  (s.locks tournamentId).filter fun lock => lock.client = client

/-- What a connection sees of a tournament. -/
def seen (s : IndexState ι) (client : ι) (tournamentId : String) : IndexEntry :=
  ((lockOf s client tournamentId).map Lock.entry).getD (s.committed tournamentId)

/-- A connection takes up or leaves a call. -/
def setClient (s : IndexState ι) (client : ι) (state : Client ι) : IndexState ι :=
  { s with clients := Function.update s.clients client state }

/-- A lock is set. -/
def setLock (s : IndexState ι) (tournamentId : String) (lock : Option (Lock ι)) : IndexState ι :=
  { s with locks := Function.update s.locks tournamentId lock }

/-- The locks without those of a connection. -/
def unlocked (s : IndexState ι) (client : ι) (tournamentId : String) : Option (Lock ι) :=
  (s.locks tournamentId).filter fun lock => lock.client ≠ client

/-- A transaction commits: what it sees is what everybody sees. -/
def commitLocks (s : IndexState ι) (client : ι) : IndexState ι :=
  { s with
    committed := seen s client
    locks := unlocked s client
    deletions := s.deletions.map fun deletion =>
      if ((lockOf s client deletion.tournamentId).map Lock.rewritten).getD false then
        { deletion with reachesRows := false }
      else deletion }

/-- A transaction is rolled back. -/
def dropLocks (s : IndexState ι) (client : ι) : IndexState ι :=
  { s with locks := unlocked s client }

/-- The call has thrown. -/
def failCall (s : IndexState ι) (client : ι) (call : Call ι) (lost : Bool) : IndexState ι :=
  let command := (s.clients client).command && !lost
  -- `ROLLBACK TO SAVEPOINT` for a command, `ROLLBACK` or a lost connection otherwise.
  let rolledBack :=
    if command then
      match lockOf s client call.tournamentId with
      | some _ => setLock s call.tournamentId call.savepoint
      | none => s
    else dropLocks s client
  let before :=
    if command then (call.savepoint.map Lock.entry).getD (s.committed call.tournamentId)
    else s.committed call.tournamentId
  let ended := setClient rolledBack client { command }
  { ended with
    reports := s.reports ++ [⟨call.tournamentId, call.rows, none, before.rows,
      (seen ended client call.tournamentId).rows⟩] }

/-- The call has returned. -/
def endCall (s : IndexState ι) (client : ι) (call : Call ι) (unchanged : Bool) : IndexState ι :=
  let command := (s.clients client).command
  let before :=
    if command then (call.savepoint.map Lock.entry).getD (s.committed call.tournamentId)
    else s.committed call.tournamentId
  let kept := if command then s else commitLocks s client
  let ended := setClient kept client { command }
  { ended with
    reports := s.reports ++ [⟨call.tournamentId, call.rows, some unchanged, before.rows,
      (seen ended client call.tournamentId).rows⟩] }

/-- The call goes on with its next statement. -/
def goOn (s : IndexState ι) (client : ι) (call : Call ι) (stage : Stage) : IndexState ι :=
  setClient s client { s.clients client with call := some { call with stage } }

variable (sha256 : String → String) (storeDay : String → Option String)

/-- What the columns give back of a row, where its dates can be read. -/
def storeRow (row : ParticipationRow) : Option ParticipationRow :=
  match row.startDate.mapM storeDay, row.endDate.mapM storeDay with
  | some startDate, some endDate => some { row with startDate, endDate }
  | _, _ => none

/-- The rows after an `INSERT`, unless a date cannot be read or a primary key is taken. -/
def insertRows (old rows : List ParticipationRow) : Option (List ParticipationRow) :=
  match rows.mapM (storeRow storeDay) with
  | some stored =>
    if ((old ++ stored).map primaryKey).Nodup then some (old ++ stored) else none
  | none => none

/-- The next statement of a call executes. -/
def statement (s : IndexState ι) (client : ι) (call : Call ι) : IndexState ι :=
  let unique := uniqueByKey call.rows
  let fingerprint := fingerprintRows sha256 unique
  match call.stage, s.locks call.tournamentId with
  | .claiming, lock =>
    -- The statement waits for the transaction that has locked the row.
    if ∃ held ∈ lock, held.client ≠ client then s
    else
      let entry := seen s client call.tournamentId
      let rewritten := (lock.map Lock.rewritten).getD false
      if entry.fingerprint = some fingerprint then
        goOn (setLock s call.tournamentId (some ⟨client, entry, rewritten⟩)) client call
          (.ending true)
      else
        goOn (setLock s call.tournamentId
          (some ⟨client, { entry with fingerprint := some fingerprint }, rewritten⟩)) client call
          .deleting
  | .deleting, some lock =>
    goOn (setLock s call.tournamentId
      (some { lock with entry := { lock.entry with rows := [] }, rewritten := true })) client call
      (if unique = [] then .ending false else .inserting)
  | .inserting, some lock =>
    match insertRows storeDay lock.entry.rows unique with
    | some rows =>
      goOn (setLock s call.tournamentId (some { lock with entry := { lock.entry with rows } }))
        client call (.ending false)
    | none => failCall s client call false
  | .ending unchanged, _ => endCall s client call unchanged
  | _, none => s

/-- The statement of `deleteTournamentRows` executes, unless it waits for a transaction that has
locked the row of `participation_index_state` it reaches. -/
def finishDelete (s : IndexState ι) (position : ℕ) (deletion : Deletion) : IndexState ι :=
  if deletion.reachesState = true ∧ s.locks deletion.tournamentId ≠ none then s
  else
    let entry := s.committed deletion.tournamentId
    { s with
      committed := Function.update s.committed deletion.tournamentId
        { rows := if deletion.reachesRows then [] else entry.rows
          fingerprint := if deletion.reachesState then none else entry.fingerprint }
      deletions := (s.deletions.eraseIdx position).map fun other =>
        if other.tournamentId = deletion.tournamentId then
          { other with
            reachesState := other.reachesState && !deletion.reachesState
            reachesRows := other.reachesRows && !deletion.reachesRows }
        else other }

/-- One step. -/
def step (s : IndexState ι) : IndexAction ι → IndexState ι
  | .openCommand client =>
    match s.clients client with
    | ⟨false, none⟩ => setClient s client { command := true }
    | _ => s
  | .closeCommand client commit =>
    match s.clients client with
    | ⟨true, none⟩ =>
      setClient (if commit then commitLocks s client else dropLocks s client) client {}
    | _ => s
  | .replace client tournamentId rows =>
    match s.clients client with
    | ⟨command, none⟩ =>
      setClient s client
        ⟨command, some ⟨tournamentId, rows, lockOf s client tournamentId, .claiming⟩⟩
    | _ => s
  | .statement client =>
    match (s.clients client).call with
    | some call => statement sha256 storeDay s client call
    | none => s
  | .fail client lost =>
    match (s.clients client).call with
    | some call => failCall s client call lost
    | none => s
  | .startDelete tournamentId =>
    { s with
      deletions := s.deletions ++
        [⟨tournamentId, (s.committed tournamentId).fingerprint.isSome, true⟩] }
  | .finishDelete position =>
    match s.deletions[position]? with
    | some deletion => finishDelete s position deletion
    | none => s
  | .failDelete position => { s with deletions := s.deletions.eraseIdx position }

end Steps

end FactoryServer.ParticipationIndex
