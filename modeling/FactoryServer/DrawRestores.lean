import FactoryServer.GuardedRuns
import Mathlib.Data.List.Nodup

/-!
# Restoring deleted draws

A deleted draw is kept in the audit row of its deletion, and `restoreDraw` adds it back.
Whether that has been done already is read off the newest audit rows of the tournament,
before the engine runs; the row that says so is appended after it, and a failure to
append it is only logged.
-/

namespace FactoryServer.DrawRestores

open GuardedRuns

/-! ## Draws and audit rows -/

/-- A drawDefinition. -/
structure DrawDefinition where
  /-- `drawId`. -/
  drawId : String
  /-- Everything else. -/
  detail : String
  deriving DecidableEq

/-- The draws of a tournament with the ids of their events. -/
abbrev Draws : Type := List (String × DrawDefinition)

/-- The metadata of an audit row, as far as a restore reads or writes it. -/
structure AuditMetadata where
  /-- `deletedDrawSnapshot`. -/
  deletedDrawSnapshot : Option DrawDefinition := none
  /-- `eventId`. -/
  eventId : Option String := none
  /-- `drawId`. -/
  drawId : Option String := none
  /-- `restoredFromAuditId`. -/
  restoredFromAuditId : Option ℕ := none
  deriving DecidableEq

/-- A row of `audit_log`. UUIDs are numbers. -/
structure AuditRow where
  /-- `auditId`. -/
  auditId : ℕ
  /-- `tournamentId`. -/
  tournamentId : String
  /-- `occurredAt`. -/
  occurredAt : ℕ
  /-- `actionType`. -/
  actionType : String
  /-- `metadata`. -/
  metadata : AuditMetadata
  deriving DecidableEq

/-- The limit of the idempotency check. -/
def restoreLimit : ℕ := 500

/-- The rows of a tournament. -/
def rowsOf (log : List AuditRow) (tournamentId : String) : List AuditRow :=
  log.filter fun row => row.tournamentId = tournamentId

/-- `findByTournamentId`: an answer to `ORDER BY occurred_at DESC LIMIT`. Rows of one time come in
any order. -/
def Newest (log : List AuditRow) (tournamentId : String) (limit : ℕ) (answer : List AuditRow) :
    Prop :=
  answer.Nodup ∧ (∀ row ∈ answer, row ∈ rowsOf log tournamentId) ∧
    answer.length = min limit (rowsOf log tournamentId).length ∧
    (answer.Pairwise fun row later => later.occurredAt ≤ row.occurredAt) ∧
    ∀ row ∈ rowsOf log tournamentId, row ∉ answer → ∀ kept ∈ answer,
      row.occurredAt ≤ kept.occurredAt

instance (log : List AuditRow) (tournamentId : String) (limit : ℕ) (answer : List AuditRow) :
    Decidable (Newest log tournamentId limit answer) :=
  inferInstanceAs (Decidable (_ ∧ _ ∧ _ ∧ _ ∧ _))

/-- The row says that the deletion was restored. -/
def restores (auditId : ℕ) (row : AuditRow) : Bool :=
  row.actionType = "RESTORE_DRAW" && row.metadata.restoredFromAuditId = some auditId

/-- `append`, where the statement succeeds: an audit id is stored once. -/
def appendRow (log : List AuditRow) (row : AuditRow) : List AuditRow :=
  if row.auditId ∈ log.map AuditRow.auditId then log else log ++ [row]

/-! ## Calls -/

/-- What a call has read from the row of the deletion. -/
structure RestoreTarget where
  /-- `auditId`. -/
  auditId : ℕ
  /-- `tournamentId`. -/
  tournamentId : String
  /-- `eventId`. -/
  eventId : String
  /-- `drawId`. -/
  drawId : String
  /-- `snapshot`. -/
  snapshot : DrawDefinition
  deriving DecidableEq

/-- A call of `restoreDraw` under way, by what it awaits. -/
inductive RestoreCall where
  /-- `findById`. -/
  | finding (auditId : ℕ)
  /-- `findByTournamentId`. -/
  | checking (target : RestoreTarget)
  /-- `executionQueue`. -/
  | executing (target : RestoreTarget)
  /-- `append`. -/
  | appending (target : RestoreTarget)
  deriving DecidableEq

/-- What `restoreDraw` returns. -/
structure RestoreAnswer where
  /-- `auditId` of the call. -/
  auditId : Option ℕ
  /-- `success`. -/
  success : Bool := false
  /-- `error`. -/
  error : Option String := none
  /-- `info`. -/
  info : Option String := none
  /-- `tournamentId`. -/
  tournamentId : Option String := none
  /-- `eventId`. -/
  eventId : Option String := none
  /-- `drawId`. -/
  drawId : Option String := none

/-- The answer about a deletion. -/
def RestoreTarget.answer (target : RestoreTarget) : RestoreAnswer :=
  { auditId := some target.auditId
    tournamentId := some target.tournamentId
    eventId := some target.eventId
    drawId := some target.drawId }

/-- What `restoreDraw` makes of the row it has found. -/
def readTarget (auditId : ℕ) : Option AuditRow → Except RestoreAnswer RestoreTarget
  | none => .error { auditId := some auditId, error := some "AUDIT_ROW_NOT_FOUND" }
  | some row =>
    if row.actionType ≠ "DELETE_DRAW" then
      .error
        { auditId := some auditId
          error := some "INVALID_AUDIT_TYPE"
          info := some ("expected DELETE_DRAW, got " ++ row.actionType) }
    else
      match row.metadata.deletedDrawSnapshot with
      | none => .error { auditId := some auditId, error := some "MISSING_SNAPSHOT" }
      | some snapshot =>
        match row.metadata.eventId with
        | none => .error { auditId := some auditId, error := some "MISSING_EVENT_ID" }
        | some eventId =>
          if eventId = "" then .error { auditId := some auditId, error := some "MISSING_EVENT_ID" }
          else .ok ⟨auditId, row.tournamentId, eventId,
            row.metadata.drawId.getD snapshot.drawId, snapshot⟩

/-- The records, the audit log and the calls. -/
structure RestoreState (ι : Type) where
  /-- The draws of the tournament records. -/
  draws : String → Draws := fun _ => []
  /-- `audit_log`, in the order of the inserts. -/
  log : List AuditRow := []
  /-- The deletions whose rows are still to be appended, with tournament and event. -/
  deleted : List (String × String × DrawDefinition) := []
  /-- The calls under way. -/
  calls : ι → Option RestoreCall := fun _ => none
  /-- What calls have returned. -/
  answers : List RestoreAnswer := []
  /-- The deletions that were restored, by their audit ids, in order. -/
  restored : List ℕ := []

/-- What may happen next. -/
inductive RestoreAction (ι : Type) where
  /-- A mutation saves a tournament with other draws. -/
  | mutate (tournamentId : String) (after : Draws)
  /-- A mutation deletes a draw. -/
  | deleteDraw (tournamentId eventId : String) (draw : DrawDefinition) (after : Draws)
  /-- `recordDrawDeletion` of a deletion. -/
  | recordDrawDeletion (deletion auditId occurredAt : ℕ) (stored : Bool)
  /-- Other rows are appended. -/
  | record (rows : List AuditRow)
  /-- `restoreDraw` is called. -/
  | restoreDraw (client : ι) (auditId : Option ℕ)
  /-- `findById` is answered. -/
  | find (client : ι)
  /-- `findByTournamentId` is answered. -/
  | check (client : ι) (priorRestores : List AuditRow)
  /-- `executionQueue` runs; it may end with another error than the engine's. -/
  | execute (client : ι) (fault : Option (String × Option String))
  /-- `append` of the restore's row. -/
  | append (client : ι) (auditId occurredAt : ℕ) (stored : Bool)

section Steps

variable {ι : Type} [DecidableEq ι]

/-- The call goes on. -/
def setCall (s : RestoreState ι) (client : ι) (call : Option RestoreCall) : RestoreState ι :=
  { s with calls := Function.update s.calls client call }

/-- The call returns. -/
def answer (s : RestoreState ι) (client : ι) (result : RestoreAnswer) : RestoreState ι :=
  { setCall s client none with answers := s.answers ++ [result] }

/-- The row of a restore. -/
def restoreRow (target : RestoreTarget) (auditId occurredAt : ℕ) : AuditRow where
  auditId := auditId
  tournamentId := target.tournamentId
  occurredAt := occurredAt
  actionType := "RESTORE_DRAW"
  metadata :=
    { restoredFromAuditId := some target.auditId
      eventId := some target.eventId
      drawId := some target.drawId }

variable (addDrawDefinition : Draws → String → DrawDefinition →
  Except (String × Option String) Draws)

/-- `executionQueue` with `addDrawDefinition`. -/
def executeRestore (s : RestoreState ι) (client : ι) (target : RestoreTarget)
    (fault : Option (String × Option String)) : RestoreState ι :=
  let result : Except (String × Option String) Draws := match fault with
    | some failure => .error failure
    | none => addDrawDefinition (s.draws target.tournamentId) target.eventId target.snapshot
  match result with
  | .error (error, info) => answer s client { target.answer with error := some error, info }
  | .ok after =>
    { setCall s client (some (.appending target)) with
      draws := Function.update s.draws target.tournamentId after
      restored := s.restored ++ [target.auditId] }

/-- One step. -/
def step (s : RestoreState ι) : RestoreAction ι → RestoreState ι
  | .mutate tournamentId after => { s with draws := Function.update s.draws tournamentId after }
  | .deleteDraw tournamentId eventId draw after =>
    if (eventId, draw) ∈ s.draws tournamentId then
      { s with
        draws := Function.update s.draws tournamentId after
        deleted := s.deleted ++ [(tournamentId, eventId, draw)] }
    else s
  | .recordDrawDeletion deletion auditId occurredAt stored =>
    match s.deleted[deletion]? with
    | some (tournamentId, eventId, draw) =>
      { s with
        deleted := s.deleted.eraseIdx deletion
        log :=
          if stored then
            appendRow s.log ⟨auditId, tournamentId, occurredAt, "DELETE_DRAW",
              { deletedDrawSnapshot := some draw
                eventId := some eventId
                drawId := some draw.drawId }⟩
          else s.log }
    | none => s
  | .record rows =>
    if ((s.log ++ rows).map AuditRow.auditId).Nodup ∧
        ∀ row ∈ rows, row.actionType ≠ "DELETE_DRAW" ∧ row.actionType ≠ "RESTORE_DRAW" then
      { s with log := s.log ++ rows }
    else s
  | .restoreDraw client auditId =>
    match s.calls client, auditId with
    | none, some auditId => setCall s client (some (.finding auditId))
    | none, none => answer s client { auditId := none, error := some "MISSING_AUDIT_ID" }
    | some _, _ => s
  | .find client =>
    match s.calls client with
    | some (.finding auditId) =>
      match readTarget auditId (s.log.find? fun row => row.auditId = auditId) with
      | .error failure => answer s client failure
      | .ok target => setCall s client (some (.checking target))
    | _ => s
  | .check client priorRestores =>
    match s.calls client with
    | some (.checking target) =>
      if Newest s.log target.tournamentId restoreLimit priorRestores then
        if priorRestores.any (restores target.auditId) then
          answer s client { target.answer with error := some "ALREADY_RESTORED" }
        else setCall s client (some (.executing target))
      else s
    | _ => s
  | .execute client fault =>
    match s.calls client with
    | some (.executing target) => executeRestore addDrawDefinition s client target fault
    | _ => s
  | .append client auditId occurredAt stored =>
    match s.calls client with
    | some (.appending target) =>
      { answer s client { target.answer with success := true } with
        log := if stored then appendRow s.log (restoreRow target auditId occurredAt) else s.log }
    | _ => s

/-! ## What is to be shown -/

/-- A deletion that was not restored can be: where the engine adds its draw back, a call of
`restoreDraw` restores it. -/
def Restorable (s : RestoreState ι) : Prop :=
  ∀ row ∈ s.log, ∀ (snapshot : DrawDefinition) (eventId : String) (after : Draws) (client : ι)
    (priorRestores : List AuditRow), row.actionType = "DELETE_DRAW" →
      row.metadata.deletedDrawSnapshot = some snapshot → row.metadata.eventId = some eventId →
      eventId ≠ "" → row.auditId ∉ s.restored →
      addDrawDefinition (s.draws row.tournamentId) eventId snapshot = .ok after →
      s.calls client = none → Newest s.log row.tournamentId restoreLimit priorRestores →
      row.auditId ∈ (run (step addDrawDefinition) s [.restoreDraw client (some row.auditId),
        .find client, .check client priorRestores, .execute client none]).restored

/-- No deletion was restored twice, and those that were not restored can be. -/
def RestoredOnce (s : RestoreState ι) : Prop :=
  s.restored.Nodup ∧ Restorable addDrawDefinition s

/-- The call has checked the deletion and has not returned. -/
def Engaged (call : Option RestoreCall) (auditId : ℕ) : Prop :=
  match call with
  | some (.executing target) => target.auditId = auditId
  | some (.appending target) => target.auditId = auditId
  | _ => False

/-- Where a call checks, no other call has checked the same deletion and not returned, and a row
that says the deletion was restored is among the newest ones; such a row is stored. -/
def Attentive (s : RestoreState ι) : RestoreAction ι → Prop
  | .check client priorRestores => ∀ target, s.calls client = some (.checking target) →
      (∀ other, ¬Engaged (s.calls other) target.auditId) ∧
      ∀ row ∈ s.log, restores target.auditId row = true →
        ∃ read ∈ priorRestores, restores target.auditId read = true
  | .append _ auditId _ stored => stored = true ∧ auditId ∉ s.log.map AuditRow.auditId
  | _ => True

/-! ## The invariant -/

/-- What the log says of the restored deletions. -/
structure Logged (s : RestoreState ι) : Prop where
  /-- An audit id is stored once. -/
  ids : (s.log.map AuditRow.auditId).Nodup
  /-- What the log says to be restored was restored. -/
  sound : ∀ row ∈ s.log, ∀ auditId, restores auditId row = true → auditId ∈ s.restored
  /-- What a call is about to log was restored. -/
  appending : ∀ client target, s.calls client = some (.appending target) →
    target.auditId ∈ s.restored

/-- What every state of an attentive run meets. -/
structure Restoring (s : RestoreState ι) : Prop where
  /-- The log. -/
  logged : Logged s
  /-- No deletion was restored twice. -/
  nodup : s.restored.Nodup
  /-- A restored deletion is logged, or a call is about to log it. -/
  recorded : ∀ auditId ∈ s.restored, (∃ row ∈ s.log, restores auditId row = true) ∨
    ∃ client target, s.calls client = some (.appending target) ∧ target.auditId = auditId
  /-- A call that has passed the check is about a deletion that was not restored. -/
  fresh : ∀ client target, s.calls client = some (.executing target) →
    target.auditId ∉ s.restored
  /-- One call at a time has passed the check of a deletion. -/
  alone : ∀ client other auditId, Engaged (s.calls client) auditId →
    Engaged (s.calls other) auditId → client = other

variable {addDrawDefinition} {s s' : RestoreState ι} {client : ι}

omit [DecidableEq ι] in
theorem restoring_start : Restoring ({} : RestoreState ι) where
  logged := ⟨List.nodup_nil, fun _ h => absurd h List.not_mem_nil, fun _ _ h => (nomatch h)⟩
  nodup := List.nodup_nil
  recorded := fun _ h => absurd h List.not_mem_nil
  fresh := fun _ _ h => (nomatch h)
  alone := fun _ _ _ h => False.elim h

theorem mem_appendRow {log : List AuditRow} {row other : AuditRow}
    (h : other ∈ appendRow log row) : other ∈ log ∨ other = row := by
  unfold appendRow at h
  split_ifs at h
  · exact Or.inl h
  · exact (List.mem_append.mp h).imp id List.mem_singleton.mp

/-- Rows are never removed. -/
theorem mem_appendRow_of_mem {log : List AuditRow} {row other : AuditRow} (h : other ∈ log) :
    other ∈ appendRow log row := by
  unfold appendRow
  split_ifs
  · exact h
  · exact List.mem_append_left _ h

theorem appendRow_ids {log : List AuditRow} (row : AuditRow)
    (h : (log.map AuditRow.auditId).Nodup) : ((appendRow log row).map AuditRow.auditId).Nodup := by
  unfold appendRow
  split_ifs with hin
  · exact h
  · rw [List.map_append, List.map_singleton, List.nodup_append]
    refine ⟨h, List.nodup_singleton _, ?_⟩
    intro a ha b hb heq
    rw [heq, List.mem_singleton.mp hb] at ha
    exact hin ha

theorem restores_iff {auditId : ℕ} {row : AuditRow} : restores auditId row = true ↔
    row.actionType = "RESTORE_DRAW" ∧ row.metadata.restoredFromAuditId = some auditId := by
  simp [restores]

theorem restores_restoreRow {target : RestoreTarget} {auditId occurredAt other : ℕ} :
    restores other (restoreRow target auditId occurredAt) = true ↔ target.auditId = other := by
  rw [restores_iff]
  exact ⟨fun h => Option.some.inj h.2, fun h => ⟨rfl, congrArg some h⟩⟩

/-- Another row says nothing of a restore. -/
theorem restores_of_ne {row : AuditRow} (h : row.actionType ≠ "RESTORE_DRAW") (auditId : ℕ) :
    ¬restores auditId row = true := fun hrestores => h (restores_iff.mp hrestores).1

theorem setCall_self (call : Option RestoreCall) : (setCall s client call).calls client = call :=
  Function.update_self _ _ _

theorem setCall_other {other : ι} (hne : other ≠ client) (call : Option RestoreCall) :
    (setCall s client call).calls other = s.calls other := Function.update_of_ne hne _ _

/-! ## One step -/

omit [DecidableEq ι] in
/-- A step that restores nothing, logs no restore and engages no call. -/
theorem Restoring.quiet (h : Restoring s) (hrestored : s'.restored = s.restored)
    (hids : (s'.log.map AuditRow.auditId).Nodup) (hold : ∀ row ∈ s.log, row ∈ s'.log)
    (hnew : ∀ row ∈ s'.log, row ∈ s.log ∨ row.actionType ≠ "RESTORE_DRAW")
    (hcalls : ∀ client, s'.calls client = s.calls client ∨
      (∀ auditId, ¬Engaged (s'.calls client) auditId) ∧
        ∀ target, s.calls client ≠ some (.appending target)) : Restoring s' where
  logged := by
    refine ⟨hids, ?_, ?_⟩
    · intro row hrow auditId hrestores
      rw [hrestored]
      rcases hnew row hrow with hin | hother
      · exact h.logged.sound row hin auditId hrestores
      · exact absurd hrestores (restores_of_ne hother auditId)
    · intro client target hcall
      rw [hrestored]
      rcases hcalls client with hsame | ⟨hnone, -⟩
      · exact h.logged.appending client target (hsame ▸ hcall)
      · exact absurd (by rw [hcall]; rfl) (hnone target.auditId)
  nodup := by
    rw [hrestored]
    exact h.nodup
  recorded := by
    intro auditId hin
    rw [hrestored] at hin
    rcases h.recorded auditId hin with ⟨row, hrow, hrestores⟩ | ⟨client, target, hcall, hid⟩
    · exact Or.inl ⟨row, hold row hrow, hrestores⟩
    · refine Or.inr ⟨client, target, ?_, hid⟩
      rcases hcalls client with hsame | ⟨-, hnone⟩
      · rw [hsame]
        exact hcall
      · exact absurd hcall (hnone target)
  fresh := by
    intro client target hcall
    rw [hrestored]
    rcases hcalls client with hsame | ⟨hnone, -⟩
    · exact h.fresh client target (hsame ▸ hcall)
    · exact absurd (by rw [hcall]; rfl) (hnone target.auditId)
  alone := by
    intro client other auditId hclient hother
    rcases hcalls client with hsame | ⟨hnone, -⟩
    · rcases hcalls other with hsameOther | ⟨hnone, -⟩
      · rw [hsame] at hclient
        rw [hsameOther] at hother
        exact h.alone client other auditId hclient hother
      · exact absurd hother (hnone auditId)
    · exact absurd hclient (hnone auditId)

/-- A call that is not about to log its restore goes on without being engaged. -/
theorem Restoring.setCall_quiet (h : Restoring s) {call : Option RestoreCall}
    (hnone : ∀ auditId, ¬Engaged call auditId)
    (hbefore : ∀ target, s.calls client ≠ some (.appending target)) :
    Restoring (setCall s client call) := by
  refine h.quiet rfl h.logged.ids (fun _ hrow => hrow) (fun _ hrow => Or.inl hrow) fun other => ?_
  by_cases hother : other = client
  · subst hother
    rw [setCall_self]
    exact Or.inr ⟨hnone, hbefore⟩
  · exact Or.inl (setCall_other hother call)

theorem Restoring.answer_quiet (h : Restoring s) (result : RestoreAnswer)
    (hbefore : ∀ target, s.calls client ≠ some (.appending target)) :
    Restoring (answer s client result) := by
  have hset : Restoring (setCall s client none) := h.setCall_quiet (fun _ h => h) hbefore
  exact hset.quiet rfl hset.logged.ids (fun _ hrow => hrow) (fun _ hrow => Or.inl hrow)
    fun _ => Or.inl rfl

omit [DecidableEq ι] in
/-- Rows of other actions are appended. -/
theorem Restoring.log_quiet (h : Restoring s) {log : List AuditRow}
    (hids : (log.map AuditRow.auditId).Nodup) (hold : ∀ row ∈ s.log, row ∈ log)
    (hnew : ∀ row ∈ log, row ∈ s.log ∨ row.actionType ≠ "RESTORE_DRAW")
    (deleted : List (String × String × DrawDefinition)) :
    Restoring { s with log, deleted } :=
  h.quiet rfl hids hold hnew fun _ => Or.inl rfl

/-- A call passes the check. -/
theorem restoring_pass (h : Restoring s) {target : RestoreTarget}
    (hcall : s.calls client = some (.checking target))
    (hfree : ∀ other, ¬Engaged (s.calls other) target.auditId)
    (hnone : ∀ row ∈ s.log, ¬restores target.auditId row = true) :
    Restoring (setCall s client (some (.executing target))) := by
  have hnew : target.auditId ∉ s.restored := by
    intro hin
    rcases h.recorded _ hin with ⟨row, hrow, hrestores⟩ | ⟨other, pending, hpending, hid⟩
    · exact hnone row hrow hrestores
    · exact hfree other (by rw [hpending]; exact hid)
  have hengaged : ∀ other auditId, other ≠ client →
      Engaged ((setCall s client (some (.executing target))).calls other) auditId →
        Engaged (s.calls other) auditId := by
    intro other auditId hne hengaged
    rwa [setCall_other hne] at hengaged
  refine ⟨⟨h.logged.ids, h.logged.sound, ?_⟩, h.nodup, ?_, ?_, ?_⟩
  · intro other pending hpending
    by_cases hother : other = client
    · subst hother
      rw [setCall_self] at hpending
      cases hpending
    · rw [setCall_other hother] at hpending
      exact h.logged.appending other pending hpending
  · intro auditId hin
    refine (h.recorded auditId hin).imp id ?_
    rintro ⟨other, pending, hpending, hid⟩
    have hother : other ≠ client := by
      rintro rfl
      rw [hcall] at hpending
      cases hpending
    exact ⟨other, pending, (setCall_other hother _).trans hpending, hid⟩
  · intro other executing hexecuting
    by_cases hother : other = client
    · subst hother
      rw [setCall_self] at hexecuting
      cases hexecuting
      exact hnew
    · rw [setCall_other hother] at hexecuting
      exact h.fresh other executing hexecuting
  · intro one other auditId hone hother
    by_cases hoc : one = client
    · by_cases hotc : other = client
      · rw [hoc, hotc]
      · rw [hoc, setCall_self] at hone
        have hid : target.auditId = auditId := hone
        exact absurd (hid ▸ hengaged other auditId hotc hother) (hfree other)
    · by_cases hotc : other = client
      · rw [hotc, setCall_self] at hother
        have hid : target.auditId = auditId := hother
        exact absurd (hid ▸ hengaged one auditId hoc hone) (hfree one)
      · exact h.alone one other auditId (hengaged one auditId hoc hone)
          (hengaged other auditId hotc hother)

/-- The engine adds the draw back. -/
theorem restoring_restored (h : Restoring s) {target : RestoreTarget}
    (hcall : s.calls client = some (.executing target)) (draws : String → Draws) :
    Restoring { setCall s client (some (.appending target)) with
      draws, restored := s.restored ++ [target.auditId] } := by
  have hnew := h.fresh client target hcall
  have hengaged : ∀ other auditId,
      Engaged ((setCall s client (some (.appending target))).calls other) auditId →
        Engaged (s.calls other) auditId := by
    intro other auditId hother
    by_cases hoc : other = client
    · subst hoc
      rw [setCall_self] at hother
      rw [hcall]
      exact hother
    · rwa [setCall_other hoc] at hother
  refine ⟨⟨h.logged.ids, ?_, ?_⟩, ?_, ?_, ?_, ?_⟩
  · exact fun row hrow auditId hrestores =>
      List.mem_append_left _ (h.logged.sound row hrow auditId hrestores)
  · intro other pending hpending
    by_cases hother : other = client
    · subst hother
      have hsame := (setCall_self (s := s) _).symm.trans hpending
      cases hsame
      exact List.mem_append_right _ List.mem_cons_self
    · have hsame := (setCall_other (s := s) hother _).symm.trans hpending
      exact List.mem_append_left _ (h.logged.appending other pending hsame)
  · refine List.nodup_append.mpr ⟨h.nodup, List.nodup_singleton _, ?_⟩
    intro a ha b hb heq
    rw [heq, List.mem_singleton.mp hb] at ha
    exact hnew ha
  · intro auditId hin
    rcases List.mem_append.mp hin with hold | hlast
    · refine (h.recorded auditId hold).imp id ?_
      rintro ⟨other, pending, hpending, hid⟩
      have hother : other ≠ client := by
        rintro rfl
        rw [hcall] at hpending
        cases hpending
      exact ⟨other, pending, (setCall_other hother _).trans hpending, hid⟩
    · exact Or.inr ⟨client, target, setCall_self _, (List.mem_singleton.mp hlast).symm⟩
  · intro other executing hexecuting hin
    have hother : other ≠ client := by
      rintro rfl
      have hsame := (setCall_self (s := s) _).symm.trans hexecuting
      cases hsame
    have hsame : s.calls other = some (.executing executing) :=
      (setCall_other (s := s) hother _).symm.trans hexecuting
    rcases List.mem_append.mp hin with hold | hlast
    · exact h.fresh other executing hsame hold
    · refine hother (h.alone other client target.auditId ?_ ?_)
      · rw [hsame]
        exact List.mem_singleton.mp hlast
      · rw [hcall]
        rfl
  · exact fun one other auditId hone hother =>
      h.alone one other auditId (hengaged one auditId hone) (hengaged other auditId hother)

/-- The row of a restore is stored. -/
theorem restoring_logged (h : Restoring s) {target : RestoreTarget}
    (hcall : s.calls client = some (.appending target)) {auditId occurredAt : ℕ}
    (hfresh : auditId ∉ s.log.map AuditRow.auditId) (result : RestoreAnswer) :
    Restoring { answer s client result with
      log := appendRow s.log (restoreRow target auditId occurredAt) } := by
  have hengaged : ∀ other key, Engaged ((answer s client result).calls other) key →
      other ≠ client ∧ Engaged (s.calls other) key := by
    intro other key hother
    by_cases hoc : other = client
    · subst hoc
      have hnone : (answer s other result).calls other = none := setCall_self _
      rw [hnone] at hother
      exact hother.elim
    · have hsame : (answer s client result).calls other = s.calls other := setCall_other hoc _
      rw [hsame] at hother
      exact ⟨hoc, hother⟩
  have hcalls : ∀ other call, (answer s client result).calls other = some call →
      s.calls other = some call := by
    intro other call hother
    by_cases hoc : other = client
    · subst hoc
      exact (nomatch (setCall_self (s := s) none).symm.trans hother)
    · exact (setCall_other (s := s) hoc none).symm.trans hother
  refine ⟨⟨appendRow_ids _ h.logged.ids, ?_, ?_⟩, h.nodup, ?_, ?_, ?_⟩
  · intro row hrow key hrestores
    rcases mem_appendRow hrow with hold | rfl
    · exact h.logged.sound row hold key hrestores
    · rw [← restores_restoreRow.mp hrestores]
      exact h.logged.appending client target hcall
  · exact fun other pending hpending =>
      h.logged.appending other pending (hcalls other _ hpending)
  · intro key hin
    rcases h.recorded key hin with ⟨row, hrow, hrestores⟩ | ⟨other, pending, hpending, hid⟩
    · exact Or.inl ⟨row, mem_appendRow_of_mem hrow, hrestores⟩
    · by_cases hoc : other = client
      · subst hoc
        obtain rfl : target = pending := by
          rw [hcall] at hpending
          cases hpending
          rfl
        refine Or.inl ⟨restoreRow target auditId occurredAt, ?_, restores_restoreRow.mpr hid⟩
        have hstored : appendRow s.log (restoreRow target auditId occurredAt) =
            s.log ++ [restoreRow target auditId occurredAt] := if_neg hfresh
        change _ ∈ appendRow s.log _
        rw [hstored]
        exact List.mem_append_right _ List.mem_cons_self
      · exact Or.inr ⟨other, pending, (setCall_other hoc none).trans hpending, hid⟩
  · exact fun other executing hexecuting => h.fresh other executing (hcalls other _ hexecuting)
  · exact fun one other key hone hother =>
      h.alone one other key (hengaged one key hone).2 (hengaged other key hother).2

/-- What one attentive step preserves. -/
theorem restoring_step (action : RestoreAction ι) (hattentive : Attentive s action)
    (h : Restoring s) : Restoring (step addDrawDefinition s action) := by
  have hsame : ∀ client, s.calls client = s.calls client ∨
      (∀ auditId, ¬Engaged (s.calls client) auditId) ∧
        ∀ target, s.calls client ≠ some (.appending target) := fun _ => Or.inl rfl
  cases action with
  | mutate tournamentId after =>
    exact h.quiet rfl h.logged.ids (fun _ hrow => hrow) (fun _ hrow => Or.inl hrow) hsame
  | deleteDraw tournamentId eventId draw after =>
    unfold step
    dsimp only
    split_ifs
    · exact h.quiet rfl h.logged.ids (fun _ hrow => hrow) (fun _ hrow => Or.inl hrow) hsame
    · exact h
  | recordDrawDeletion deletion auditId occurredAt stored =>
    cases hdeletion : s.deleted[deletion]? with
    | none =>
      have hstep : step addDrawDefinition s
          (.recordDrawDeletion deletion auditId occurredAt stored) = s := by
        simp only [step, hdeletion]
      rwa [hstep]
    | some entry =>
      cases stored with
      | false =>
        have hstep : step addDrawDefinition s (.recordDrawDeletion deletion auditId occurredAt
            false) = { s with deleted := s.deleted.eraseIdx deletion } := by
          simp [step, hdeletion]
        rw [hstep]
        exact h.log_quiet h.logged.ids (fun _ hrow => hrow) (fun _ hrow => Or.inl hrow) _
      | true =>
        obtain ⟨tournamentId, eventId, draw⟩ := entry
        have hstep : step addDrawDefinition s (.recordDrawDeletion deletion auditId occurredAt
            true) = { s with
              log := appendRow s.log ⟨auditId, tournamentId, occurredAt, "DELETE_DRAW",
                { deletedDrawSnapshot := some draw
                  eventId := some eventId
                  drawId := some draw.drawId }⟩
              deleted := s.deleted.eraseIdx deletion } := by
          simp [step, hdeletion]
        rw [hstep]
        refine h.log_quiet (appendRow_ids _ h.logged.ids)
          (fun _ hrow => mem_appendRow_of_mem hrow) (fun row hrow => ?_) _
        rcases mem_appendRow hrow with hold | rfl
        · exact Or.inl hold
        · have hne : "DELETE_DRAW" ≠ "RESTORE_DRAW" := by decide
          exact Or.inr hne
  | record rows =>
    unfold step
    dsimp only
    split_ifs with hrows
    · refine h.quiet rfl hrows.1 (fun _ hrow => List.mem_append_left _ hrow) (fun row hrow => ?_)
        hsame
      exact (List.mem_append.mp hrow).imp id fun hnew => (hrows.2 row hnew).2
    · exact h
  | restoreDraw client auditId =>
    cases hcall : s.calls client with
    | some call =>
      have hstep : step addDrawDefinition s (.restoreDraw client auditId) = s := by
        simp only [step, hcall]
      rwa [hstep]
    | none =>
      have hbefore : ∀ target, s.calls client ≠ some (.appending target) := by
        rw [hcall]
        exact nofun
      cases auditId with
      | none =>
        have hstep : step addDrawDefinition s (.restoreDraw client none) =
            answer s client { auditId := none, error := some "MISSING_AUDIT_ID" } := by
          simp only [step, hcall]
        rw [hstep]
        exact h.answer_quiet _ hbefore
      | some auditId =>
        have hstep : step addDrawDefinition s (.restoreDraw client (some auditId)) =
            setCall s client (some (.finding auditId)) := by
          simp only [step, hcall]
        rw [hstep]
        exact h.setCall_quiet (fun _ hengaged => hengaged) hbefore
  | find client =>
    rcases hcall : s.calls client with _ | ⟨auditId⟩ | target | target | target
    case some.finding =>
      have hbefore : ∀ target, s.calls client ≠ some (.appending target) := by
        rw [hcall]
        exact nofun
      cases hread : readTarget auditId (s.log.find? fun row => row.auditId = auditId) with
      | error failure =>
        have hstep : step addDrawDefinition s (.find client) = answer s client failure := by
          simp only [step, hcall, hread]
        rw [hstep]
        exact h.answer_quiet _ hbefore
      | ok target =>
        have hstep : step addDrawDefinition s (.find client) =
            setCall s client (some (.checking target)) := by
          simp only [step, hcall, hread]
        rw [hstep]
        exact h.setCall_quiet (fun _ hengaged => hengaged) hbefore
    all_goals
      have hstep : step addDrawDefinition s (.find client) = s := by simp only [step, hcall]
      rwa [hstep]
  | check client priorRestores =>
    rcases hcall : s.calls client with _ | ⟨auditId⟩ | target | target | target
    case some.checking =>
      have hstep : step addDrawDefinition s (.check client priorRestores) =
          if Newest s.log target.tournamentId restoreLimit priorRestores then
            if priorRestores.any (restores target.auditId) then
              answer s client { target.answer with error := some "ALREADY_RESTORED" }
            else setCall s client (some (.executing target))
          else s := by
        simp only [step, hcall]
      rw [hstep]
      split_ifs with hnewest hany
      · refine h.answer_quiet _ ?_
        rw [hcall]
        exact nofun
      · obtain ⟨hfree, hlogged⟩ := hattentive target hcall
        refine restoring_pass h hcall hfree fun row hrow hrestores => ?_
        exact hany (List.any_eq_true.mpr (hlogged row hrow hrestores))
      · exact h
    all_goals
      have hstep : step addDrawDefinition s (.check client priorRestores) = s := by
        simp only [step, hcall]
      rwa [hstep]
  | execute client fault =>
    rcases hcall : s.calls client with _ | ⟨auditId⟩ | target | target | target
    case some.executing =>
      have hstep : step addDrawDefinition s (.execute client fault) =
          executeRestore addDrawDefinition s client target fault := by
        simp only [step, hcall]
      rw [hstep]
      unfold executeRestore
      dsimp only
      split
      · refine h.answer_quiet _ ?_
        rw [hcall]
        exact nofun
      · exact restoring_restored h hcall _
    all_goals
      have hstep : step addDrawDefinition s (.execute client fault) = s := by
        simp only [step, hcall]
      rwa [hstep]
  | append client auditId occurredAt stored =>
    rcases hcall : s.calls client with _ | ⟨key⟩ | target | target | target
    case some.appending =>
      obtain ⟨rfl, hfresh⟩ := hattentive
      have hstep : step addDrawDefinition s (.append client auditId occurredAt true) =
          { answer s client { target.answer with success := true } with
            log := appendRow s.log (restoreRow target auditId occurredAt) } := by
        simp only [step, hcall]
        rfl
      rw [hstep]
      exact restoring_logged h hcall hfresh _
    all_goals
      have hstep : step addDrawDefinition s (.append client auditId occurredAt stored) = s := by
        simp only [step, hcall]
      rwa [hstep]

/-! ## Every run -/

theorem step_restoreDraw {auditId : ℕ} (hcall : s.calls client = none) :
    step addDrawDefinition s (.restoreDraw client (some auditId)) =
      setCall s client (some (.finding auditId)) := by
  simp only [step, hcall]

theorem step_find {auditId : ℕ} {target : RestoreTarget}
    (hcall : s.calls client = some (.finding auditId))
    (hread : readTarget auditId (s.log.find? fun row => row.auditId = auditId) = .ok target) :
    step addDrawDefinition s (.find client) = setCall s client (some (.checking target)) := by
  simp only [step, hcall, hread]

/-- No restore is among the rows that were read. -/
theorem step_check {target : RestoreTarget} {priorRestores : List AuditRow}
    (hcall : s.calls client = some (.checking target))
    (hnewest : Newest s.log target.tournamentId restoreLimit priorRestores)
    (hnone : ∀ row ∈ priorRestores, ¬restores target.auditId row = true) :
    step addDrawDefinition s (.check client priorRestores) =
      setCall s client (some (.executing target)) := by
  have hany : ¬priorRestores.any (restores target.auditId) = true := by
    intro hany
    obtain ⟨row, hrow, hrestores⟩ := List.any_eq_true.mp hany
    exact hnone row hrow hrestores
  simp only [step, hcall]
  rw [if_pos hnewest, if_neg hany]

theorem step_execute {target : RestoreTarget} {after : Draws}
    (hcall : s.calls client = some (.executing target))
    (hengine : addDrawDefinition (s.draws target.tournamentId) target.eventId target.snapshot =
      .ok after) :
    step addDrawDefinition s (.execute client none) =
      { setCall s client (some (.appending target)) with
        draws := Function.update s.draws target.tournamentId after
        restored := s.restored ++ [target.auditId] } := by
  simp only [step, hcall, executeRestore, hengine]

omit [DecidableEq ι] in
/-- A row of the log is found by its id. -/
theorem find_row {row : AuditRow} (hids : (s.log.map AuditRow.auditId).Nodup)
    (hrow : row ∈ s.log) : (s.log.find? fun other => other.auditId = row.auditId) = some row := by
  cases hfind : s.log.find? fun other => other.auditId = row.auditId with
  | none =>
    have hnone := List.find?_eq_none.mp hfind row hrow
    exact absurd (decide_eq_true rfl) hnone
  | some found =>
    have hid : found.auditId = row.auditId := by simpa using List.find?_some hfind
    exact congrArg some (List.inj_on_of_nodup_map hids (List.mem_of_find?_eq_some hfind) hrow hid)

/-- A call restores the deletion whose row it finds, unless a row that it reads says it was
restored, or the engine refuses. -/
theorem run_restoreDraw {row : AuditRow} {snapshot : DrawDefinition} {eventId : String}
    {after : Draws} {priorRestores : List AuditRow}
    (hfind : (s.log.find? fun other => other.auditId = row.auditId) = some row)
    (haction : row.actionType = "DELETE_DRAW")
    (hsnapshot : row.metadata.deletedDrawSnapshot = some snapshot)
    (hevent : row.metadata.eventId = some eventId) (hne : eventId ≠ "")
    (hengine : addDrawDefinition (s.draws row.tournamentId) eventId snapshot = .ok after)
    (hcall : s.calls client = none)
    (hnewest : Newest s.log row.tournamentId restoreLimit priorRestores)
    (hnone : ∀ read ∈ priorRestores, ¬restores row.auditId read = true) :
    (run (step addDrawDefinition) s [.restoreDraw client (some row.auditId), .find client,
      .check client priorRestores, .execute client none]).restored =
        s.restored ++ [row.auditId] := by
  let target : RestoreTarget := ⟨row.auditId, row.tournamentId, eventId,
    row.metadata.drawId.getD snapshot.drawId, snapshot⟩
  let finding := setCall s client (some (.finding row.auditId))
  let checking := setCall finding client (some (.checking target))
  let executing := setCall checking client (some (.executing target))
  have hread : readTarget row.auditId (s.log.find? fun other => other.auditId = row.auditId) =
      .ok target := by
    rw [hfind]
    simp only [readTarget, haction, hsnapshot, hevent, ne_eq, not_true_eq_false, if_false, hne]
    rfl
  have hfound : step addDrawDefinition finding (.find client) = checking :=
    step_find (setCall_self _) hread
  have hchecked : step addDrawDefinition checking (.check client priorRestores) = executing :=
    step_check (setCall_self _) hnewest hnone
  have hadded : (step addDrawDefinition executing (.execute client none)).restored =
      s.restored ++ [row.auditId] := by
    have hcallExecuting : executing.calls client = some (.executing target) := setCall_self _
    rw [step_execute hcallExecuting hengine]
    rfl
  simp only [run, List.foldl_cons, List.foldl_nil]
  rw [step_restoreDraw hcall, hfound, hchecked]
  exact hadded

/-- A deletion that was not restored can be: no row says that it was. -/
theorem restorable_of_logged (h : Logged s) : Restorable addDrawDefinition s := by
  intro row hrow snapshot eventId after client priorRestores haction hsnapshot hevent hne hfresh
    hengine hcall hnewest
  have hnone : ∀ read ∈ priorRestores, ¬restores row.auditId read = true := by
    intro read hin hrestores
    exact hfresh (h.sound read (List.mem_filter.mp (hnewest.2.1 read hin)).1 _ hrestores)
  rw [run_restoreDraw (find_row h.ids hrow) haction hsnapshot hevent hne hengine hcall hnewest
    hnone]
  exact List.mem_append_right _ List.mem_cons_self

/-- Where no two calls restore a deletion side by side, the row of a restore is stored and no
restore is checked behind more than the newest rows, a deletion is restored once, and the next
deletion of the draw can be restored again. -/
theorem restored_once {actions : List (RestoreAction ι)}
    (hmeets : RunMeets (step addDrawDefinition) Attentive {} actions) :
    RestoredOnce addDrawDefinition (run (step addDrawDefinition) {} actions) := by
  have h : Restoring (run (step addDrawDefinition) ({} : RestoreState ι) actions) :=
    run_keeps (fun _ action hattentive h => restoring_step action hattentive h) hmeets
      restoring_start
  exact ⟨h.nodup, restorable_of_logged h.logged⟩

end Steps

/-! ## One draw of one event -/

/-- The engine refuses a draw whose id is there. -/
def sampleEngine (draws : Draws) (eventId : String) (draw : DrawDefinition) :
    Except (String × Option String) Draws :=
  if draws.any fun entry => entry.2.drawId = draw.drawId then .error ("DRAW_ID_EXISTS", none)
  else .ok (draws ++ [(eventId, draw)])

/-- A draw. -/
def sampleDraw : DrawDefinition := ⟨"draw", "sixteen"⟩

/-- The draw is there, is deleted with audit id 1, and is restored with audit id 2. -/
def sampleRestore : List (RestoreAction Bool) :=
  [.mutate "tournament" [("event", sampleDraw)], .deleteDraw "tournament" "event" sampleDraw [],
    .recordDrawDeletion 0 1 1 true, .restoreDraw true (some 1), .find true, .check true
      [⟨1, "tournament", 1, "DELETE_DRAW", ⟨some sampleDraw, some "event", some "draw", none⟩⟩],
    .execute true none, .append true 2 2 true]

/-- A draw is restored from its row. -/
theorem restored_once_sample :
    RestoredOnce sampleEngine (run (step sampleEngine) {} sampleRestore) := by
  apply restored_once
  refine ⟨trivial, trivial, trivial, trivial, trivial, ?_, trivial, ?_, trivial⟩
  · intro target hcall
    obtain rfl : (⟨1, "tournament", "event", "draw", sampleDraw⟩ : RestoreTarget) = target := by
      cases hcall
      rfl
    refine ⟨fun other hengaged => ?_, fun row hrow hrestores => ?_⟩
    · cases other with
      | true => exact hengaged
      | false => exact hengaged
    · rw [List.mem_singleton.mp hrow] at hrestores
      exact absurd hrestores (by decide)
  · exact ⟨rfl, by decide⟩

/-- The rows of the first deletion, of its restore and of the second deletion. -/
def firstRows : List AuditRow :=
  [⟨1, "tournament", 1, "DELETE_DRAW", ⟨some sampleDraw, some "event", some "draw", none⟩⟩,
    ⟨2, "tournament", 2, "RESTORE_DRAW", ⟨none, some "event", some "draw", some 1⟩⟩,
    ⟨3, "tournament", 3, "DELETE_DRAW", ⟨some sampleDraw, some "event", some "draw", none⟩⟩]

/-- The restored draw is deleted again. -/
def deletedAgain : List (RestoreAction Bool) :=
  sampleRestore ++ [.deleteDraw "tournament" "event" sampleDraw [],
    .recordDrawDeletion 0 3 3 true]

/-- What is left of the draw. -/
theorem deletedAgain_state :
    (run (step sampleEngine) {} deletedAgain).log = firstRows ∧
      (run (step sampleEngine) {} deletedAgain).draws "tournament" = [] ∧
      (run (step sampleEngine) {} deletedAgain).calls true = none ∧
      (run (step sampleEngine) {} deletedAgain).restored = [1] := by
  decide +kernel

/-- Other rows are written, and the first deletion is restored again. -/
def sampleRestores (others : List AuditRow) : List (RestoreAction Bool) :=
  deletedAgain ++ [.record others, .restoreDraw true (some 1), .find true, .check true others,
    .execute true none]

/-- Where the newest rows are the other ones, the first deletion is restored twice. -/
theorem restored_sampleRestores {others : List AuditRow}
    (hids : ((firstRows ++ others).map AuditRow.auditId).Nodup)
    (hothers : ∀ row ∈ others, row.actionType ≠ "DELETE_DRAW" ∧ row.actionType ≠ "RESTORE_DRAW")
    (hnewest : Newest (firstRows ++ others) "tournament" restoreLimit others) :
    (run (step sampleEngine) {} (sampleRestores others)).restored = [1, 1] := by
  obtain ⟨hlog, hdraws, hcall, hrestored⟩ := deletedAgain_state
  rw [run, sampleRestores, List.foldl_append, List.foldl_cons]
  change (run (step sampleEngine) (step sampleEngine (run (step sampleEngine) {} deletedAgain)
    (.record others)) _).restored = _
  generalize run (step sampleEngine) {} deletedAgain = s at hlog hdraws hcall hrestored ⊢
  let recorded : RestoreState Bool := { s with log := firstRows ++ others }
  have hrecord : step sampleEngine s (.record others) = recorded := by
    simp only [step, hlog]
    exact if_pos ⟨hids, hothers⟩
  let row : AuditRow :=
    ⟨1, "tournament", 1, "DELETE_DRAW", ⟨some sampleDraw, some "event", some "draw", none⟩⟩
  have hfind : (recorded.log.find? fun other => other.auditId = row.auditId) = some row := rfl
  have hengine : sampleEngine (recorded.draws row.tournamentId) "event" sampleDraw =
      .ok [("event", sampleDraw)] := by
    change sampleEngine (s.draws "tournament") "event" sampleDraw = _
    rw [hdraws]
    rfl
  have hevent : "event" ≠ "" := by decide
  have hagain := run_restoreDraw hfind rfl rfl rfl hevent hengine hcall hnewest
    fun read hin => restores_of_ne (hothers read hin).2 1
  rw [hrecord, hagain]
  change s.restored ++ [1] = [1, 1]
  rw [hrestored]
  rfl

/-- Five hundred rows of other mutations. -/
def otherRows : List AuditRow :=
  (List.range 500).map fun i => ⟨i + 4, "tournament", 4, "MUTATION", {}⟩

theorem otherRow_eq {row : AuditRow} (h : row ∈ otherRows) :
    row.tournamentId = "tournament" ∧ row.occurredAt = 4 ∧ row.actionType = "MUTATION" := by
  obtain ⟨i, -, rfl⟩ := List.mem_map.mp h
  exact ⟨rfl, rfl, rfl⟩

theorem firstRow_eq : ∀ row ∈ firstRows, row.tournamentId = "tournament" ∧ row.occurredAt ≤ 4 := by
  decide

theorem otherRows_ids : ((firstRows ++ otherRows).map AuditRow.auditId).Nodup := by
  have hids : otherRows.map AuditRow.auditId = (List.range 500).map (· + 4) := by
    rw [otherRows, List.map_map]
    rfl
  rw [List.map_append, hids, List.nodup_append]
  refine ⟨by decide, List.nodup_range.map fun _ _ h => Nat.add_right_cancel h, ?_⟩
  intro a ha b hb heq
  obtain ⟨i, -, rfl⟩ := List.mem_map.mp hb
  have hsmall : a ∈ [1, 2, 3] := ha
  simp only [List.mem_cons, List.not_mem_nil, or_false] at hsmall
  omega

/-- The other rows are the newest ones. -/
theorem otherRows_newest : Newest (firstRows ++ otherRows) "tournament" restoreLimit otherRows := by
  have hall : rowsOf (firstRows ++ otherRows) "tournament" = firstRows ++ otherRows := by
    rw [rowsOf, List.filter_eq_self]
    intro row hrow
    refine decide_eq_true ?_
    rcases List.mem_append.mp hrow with hfirst | hother
    · exact (firstRow_eq row hfirst).1
    · exact (otherRow_eq hother).1
  have hlength : otherRows.length = 500 := by rw [otherRows, List.length_map, List.length_range]
  have hids : (otherRows.map AuditRow.auditId).Nodup := by
    have hnodup := otherRows_ids
    rw [List.map_append, List.nodup_append] at hnodup
    exact hnodup.2.1
  rw [Newest, hall]
  refine ⟨hids.of_map, fun row hrow => List.mem_append_right _ hrow, ?_, ?_, ?_⟩
  · have hsum : restoreLimit ≤ (firstRows ++ otherRows).length := by
      rw [List.length_append, hlength]
      exact Nat.le_add_left _ _
    exact hlength.trans (Nat.min_eq_left hsum).symm
  · refine List.pairwise_iff_getElem.mpr fun i j hi hj _ => ?_
    have hearlier := (otherRow_eq (List.getElem_mem hi)).2.1
    have hlater := (otherRow_eq (List.getElem_mem hj)).2.1
    exact Nat.le_of_eq (hlater.trans hearlier.symm)
  · intro row hrow hnot kept hkept
    rw [(otherRow_eq hkept).2.1]
    rcases List.mem_append.mp hrow with hfirst | hother
    · exact (firstRow_eq row hfirst).2
    · exact absurd hother hnot

/-- The draw is deleted again, five hundred rows are written, and the first deletion is restored
a second time. -/
theorem restored_twice : ¬∀ actions : List (RestoreAction Bool),
    RestoredOnce sampleEngine (run (step sampleEngine) {} actions) := by
  intro hall
  have hothers : ∀ row ∈ otherRows,
      row.actionType ≠ "DELETE_DRAW" ∧ row.actionType ≠ "RESTORE_DRAW" := by
    intro row hrow
    rw [(otherRow_eq hrow).2.2]
    decide
  have hnodup := (hall (sampleRestores otherRows)).1
  rw [restored_sampleRestores otherRows_ids hothers otherRows_newest] at hnodup
  exact absurd hnodup (by decide)

end FactoryServer.DrawRestores
