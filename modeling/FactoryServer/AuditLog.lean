import FactoryServer.DurableSave
import FactoryServer.PooledConnection
import FactoryServer.QueueEffects

/-!
# The audit log of the mutation queue

`executionQueue` appends to the audit log from three places: the notices of its
engine run record deleted draws, a hook after the save records the mutation,
and the catch block records an exception as a rejection. Only inside a durable
command do the first two wait for the commit. Here the rows of a whole run are
compared with what the run has committed.
-/

namespace FactoryServer.AuditLog

open JsonValue AsyncProgram SqlTransaction TournamentAccess CommandTransaction CommandReceipts
  CommandSession CommandAtomicity CommandCommit StorageTables TournamentStorage ExecutionQueue
  StorageFrames StorageRegime CallbackOutcomes QueueEffects PooledStatements PooledConnection
  BorrowedConnection DurableSave
open AsyncProgram.Prog (Ensures Keeps)

variable {x : External} {patched : CalendarRow → Json → Json}

/-! ## Rows -/

/-- A row of the audit log. -/
inductive AuditRow where
  /-- `MUTATION`. -/
  | mutation (tournamentId : String) (status : MutationStatus)
  /-- `DELETE_DRAW`, from which `restoreDraw` re-creates the draw. -/
  | deleteDraw (tournamentId drawId : String)
  deriving DecidableEq, Repr

/-- `recordMutation`: a row for every id of the request. -/
def recordMutation (x : External) (tournamentIds : Json) (status : MutationStatus) :
    List AuditRow :=
  (tournamentIds.iterate?.getD []).map fun id => .mutation (x.pg.text id) status

/-- The rows that an effect of the call appends. -/
def appended (x : External) (tournamentIds : Json) : Effect → List AuditRow
  | .evictAndAudit status => recordMutation x tournamentIds status
  | .auditException => recordMutation x tournamentIds .rejected
  | .auditDrawDeletion tournamentId drawId => [.deleteDraw tournamentId drawId]
  | .patchCalendar _ _ _ => []
  | .snapshotDraws => []

/-- The rows a run has appended, provided no append fails. -/
def auditLog (x : External) (payload : Json) (w : World Tables Effect) : List AuditRow :=
  w.effects.flatMap (appended x (queueTournamentIds payload))

/-- The record of a tournament was committed since the call began. -/
def Committed (before after : Tables) (id : String) : Prop :=
  ∃ row, after.tournaments id = some row ∧ before.now ≤ row.updatedAt

instance (before after : Tables) (id : String) : Decidable (Committed before after id) :=
  decidable_of_iff ((after.tournaments id).any fun row => decide (before.now ≤ row.updatedAt))
    (by simp [Committed, Option.any_eq_true])

/-- Every stored row was written before now. -/
def Clocked (t : Tables) : Prop :=
  ∀ id row, t.tournaments id = some row → row.updatedAt < t.now

/-- What the call would save, and the effects its engine run asks for. -/
def queuePlan (x : External) (engine : Engine) (before : Tables) (payload : Json) : Option Plan :=
  (methodList (payload.field? "methods")).bind fun methods =>
    mutationPlan x engine before payload (queueTournamentIds payload) methods

/-- The log of a run agrees with what it has committed. -/
structure Agrees (x : External) (engine : Engine) (payload : Json) (before : Tables)
    (w : World Tables Effect) : Prop where
  /-- A mutation is recorded as applied to the tournaments it committed. -/
  applied : ∀ id, .mutation id .applied ∈ auditLog x payload w ↔ Committed before w.tables id
  /-- A mutation is recorded as rejected when it committed nothing. -/
  rejected : ∀ id, .mutation id .rejected ∈ auditLog x payload w →
    ∀ id', ¬ Committed before w.tables id'
  /-- The deletion of a draw is recorded when the record without it was committed. -/
  deleted : ∀ id drawId, .deleteDraw id drawId ∈ auditLog x payload w ↔
    (∃ p, queuePlan x engine before payload = some p ∧
      .auditDrawDeletion id drawId ∈ p.deferred) ∧ Committed before w.tables id

/-! ## The call -/

/-- `executionQueue`, also when it gives up the wait for its locks. -/
def queueCall (x : External) (services : Services) (engine : Engine) (storedJson : Json → Json)
    (payload : Json) (lockTimeout : Option Thrown) : Store Json :=
  match admission x services engine payload, lockTimeout with
  | .locked tournamentIds _, some error => queueCatch payload tournamentIds error
  | _, _ => executionQueue x services engine storedJson payload

/-! ## Nothing committed -/

/-- Effects that record neither an applied mutation nor a deletion. -/
def Silent : Effect → Prop
  | .evictAndAudit status => status ≠ .applied
  | .auditDrawDeletion _ _ => False
  | _ => True

/-- Nothing was committed, and no row says so. -/
structure Unwritten (before : Tables) (w : World Tables Effect) : Prop where
  nothing : ∀ id, ¬ Committed before w.tables id
  silent : ∀ effect ∈ w.effects, Silent effect

variable {engine : Engine} {payload : Json} {before : Tables} {w : World Tables Effect}

theorem not_committed_of_same {after : Tables} (hclock : Clocked before)
    (h : after.tournaments = before.tournaments) (id : String) : ¬ Committed before after id := by
  rintro ⟨row, hrow, hnow⟩
  have hlt := hclock id row (h ▸ hrow)
  omega

theorem Unwritten.agrees (h : Unwritten before w) : Agrees x engine payload before w where
  applied id := by
    refine ⟨fun hrow => ?_, fun hc => (h.nothing id hc).elim⟩
    obtain ⟨effect, heffect, hmem⟩ := List.mem_flatMap.mp hrow
    have hsilent := h.silent effect heffect
    cases effect with
    | evictAndAudit status =>
      obtain ⟨_, -, he⟩ := List.mem_map.mp hmem
      cases he
      exact (hsilent rfl).elim
    | auditException =>
      obtain ⟨_, -, he⟩ := List.mem_map.mp hmem
      cases he
    | auditDrawDeletion _ _ => exact hsilent.elim
    | _ => cases hmem
  rejected _ _ := h.nothing
  deleted id drawId := by
    refine ⟨fun hrow => ?_, fun hc => (h.nothing id hc.2).elim⟩
    obtain ⟨effect, heffect, hmem⟩ := List.mem_flatMap.mp hrow
    have hsilent := h.silent effect heffect
    cases effect with
    | evictAndAudit status =>
      obtain ⟨_, -, he⟩ := List.mem_map.mp hmem
      cases he
    | auditException =>
      obtain ⟨_, -, he⟩ := List.mem_map.mp hmem
      cases he
    | auditDrawDeletion _ _ => exact hsilent.elim
    | _ => cases hmem

/-! ## Everything committed -/

/-- A map of records has one for the tournament. -/
def Holds (x : External) (records : RecordMap) (id : String) : Prop :=
  ∃ r ∈ records, rowId x r.2 = some id

/-- The request names the tournaments whose records are saved, and draws were
deleted in no other. -/
structure Covers (x : External) (payload : Json) (p : Plan) (records : RecordMap) : Prop where
  named : ∀ id, id ∈ ((queueTournamentIds payload).iterate?.getD []).map x.pg.text ↔
    Holds x records id
  announced : ∀ id drawId, .auditDrawDeletion id drawId ∈ p.deferred → Holds x records id

/-- Saved records are committed, and no other. -/
theorem committed_iff {deferred : List Effect} {records : RecordMap} {k : Nat} {t : Tables}
    (hclock : Clocked before)
    (h : (clockKept x patched none before).SavedUpTo deferred records k t) (id : String) :
    Committed before t id ↔ Holds x (records.take k) id := by
  constructor
  · rintro ⟨row, hrow, hnow⟩
    have hid := h.saved id
    cases hl : lastRecord x (records.take k) id with
    | some record => exact exists_of_lastRecord hl
    | none =>
      rw [hl] at hid
      have hlt := hclock id row (hid ▸ hrow)
      omega
  · rintro ⟨r, hr, hid⟩
    exact h.stamped r hr id hid

/-- The notices of an engine run record deletions only. -/
theorem mem_appended_notice {ids : Json} {effect : Effect} (h : effect.ofNotice = true)
    {row : AuditRow} (hrow : row ∈ appended x ids effect) :
    ∃ id drawId, effect = .auditDrawDeletion id drawId ∧ row = .deleteDraw id drawId := by
  cases effect with
  | auditDrawDeletion id drawId => exact ⟨id, drawId, rfl, List.mem_singleton.mp hrow⟩
  | patchCalendar providerId tournamentId updates => cases hrow
  | _ => cases h

theorem notices_of_mutationPlan {ids : Json} {methods : List Json} {p : Plan}
    (h : mutationPlan x engine before payload ids methods = some p) :
    ∀ effect ∈ p.deferred, effect.ofNotice = true := by
  obtain ⟨texts, resolved, -, rfl⟩ := run_of_mutationPlan h
  exact (engine.executionQueue _ _ _).notices

theorem notices_of_queuePlan {p : Plan} (h : queuePlan x engine before payload = some p) :
    ∀ effect ∈ p.deferred, effect.ofNotice = true := by
  obtain ⟨methods, -, h⟩ := Option.bind_eq_some_iff.mp h
  exact notices_of_mutationPlan h

/-- The rows of a mutation that was saved. -/
theorem mem_auditLog_saved {p : Plan} (hp : ∀ effect ∈ p.deferred, effect.ofNotice = true)
    (heffects : w.effects = p.deferred ++ [.snapshotDraws, .evictAndAudit .applied])
    (row : AuditRow) :
    row ∈ auditLog x payload w ↔
      (∃ id drawId, .auditDrawDeletion id drawId ∈ p.deferred ∧ row = .deleteDraw id drawId) ∨
      ∃ id ∈ ((queueTournamentIds payload).iterate?.getD []).map x.pg.text,
        row = .mutation id .applied := by
  have hdeferred : row ∈ p.deferred.flatMap (appended x (queueTournamentIds payload)) ↔
      ∃ id drawId, .auditDrawDeletion id drawId ∈ p.deferred ∧ row = .deleteDraw id drawId := by
    rw [List.mem_flatMap]
    constructor
    · rintro ⟨effect, heffect, hmem⟩
      obtain ⟨id, drawId, rfl, hrow⟩ := mem_appended_notice (hp effect heffect) hmem
      exact ⟨id, drawId, heffect, hrow⟩
    · rintro ⟨id, drawId, heffect, rfl⟩
      exact ⟨_, heffect, List.mem_singleton.mpr rfl⟩
  have haudit : row ∈ recordMutation x (queueTournamentIds payload) .applied ↔
      ∃ id ∈ ((queueTournamentIds payload).iterate?.getD []).map x.pg.text,
        row = .mutation id .applied := by
    simp only [recordMutation, List.mem_map, exists_exists_and_eq_and]
    constructor
    · rintro ⟨id, hid, rfl⟩
      exact ⟨id, hid, rfl⟩
    · rintro ⟨id, hid, rfl⟩
      exact ⟨id, hid, rfl⟩
  rw [auditLog, heffects, List.flatMap_append, List.mem_append, hdeferred, ← haudit]
  simp only [List.flatMap_cons, List.flatMap_nil, appended, List.nil_append, List.append_nil]

theorem agrees_of_saved {p : Plan} {records : RecordMap}
    (hp : queuePlan x engine before payload = some p) (hcovers : Covers x payload p records)
    (hcommitted : ∀ id, Committed before w.tables id ↔ Holds x records id)
    (heffects : w.effects = p.deferred ++ [.snapshotDraws, .evictAndAudit .applied]) :
    Agrees x engine payload before w := by
  have hlog := fun row => (mem_auditLog_saved (notices_of_queuePlan hp) heffects row :
    row ∈ auditLog x payload w ↔ _)
  refine ⟨fun id => ?_, fun id hrow => ?_, fun id drawId => ?_⟩
  · rw [hlog, hcommitted, ← hcovers.named]
    constructor
    · rintro (⟨_, _, -, h⟩ | ⟨_, hid, h⟩)
      · cases h
      · cases h
        exact hid
    · exact fun hid => Or.inr ⟨id, hid, rfl⟩
  · rcases (hlog _).mp hrow with ⟨_, _, -, h⟩ | ⟨_, -, h⟩
    · cases h
    · cases h
  · rw [hlog, hcommitted]
    constructor
    · rintro (⟨_, _, hmem, h⟩ | ⟨_, -, h⟩)
      · cases h
        exact ⟨⟨p, hp, hmem⟩, hcovers.announced _ _ hmem⟩
      · cases h
    · rintro ⟨⟨q, hq, hmem⟩, -⟩
      obtain rfl : p = q := Option.some.inj (hp.symm.trans hq)
      exact Or.inl ⟨id, drawId, hmem, rfl⟩

/-! ## After the work -/

/-- What follows the work under the locks changes nothing but the log. -/
structure Tail (audited : Prop) (w w' : World Tables Effect) : Prop where
  tables : w'.tables = w.tables
  commitLost : w'.commitLost = w.commitLost
  savepointRefused : w'.savepointRefused = w.savepointRefused
  /-- An exception is recorded. -/
  adds : audited → w'.effects = w.effects ++ [.auditException]
  same : ¬ audited → w'.effects = w.effects

/-- The ids of the request are an array. -/
def ListsIds (tournamentIds : Json) : Prop := ∃ items, tournamentIds = .arr items

/-- The catch block records the exception, if it can print the ids. -/
theorem tail_queueCatch (tournamentIds : Json) (error : Thrown) (w : World Tables Effect) :
    Tail (ListsIds tournamentIds) w
      ((queueCatch payload tournamentIds error).run (handle (backend patched)) w).2 := by
  have hsame : ¬ ListsIds tournamentIds → Tail (ListsIds tournamentIds) w w := fun h =>
    ⟨rfl, rfl, rfl, fun h' => (h h').elim, fun _ => rfl⟩
  have hother : (∀ items, tournamentIds ≠ .arr items) → ¬ ListsIds tournamentIds :=
    fun hne ⟨items, h⟩ => hne items h
  cases tournamentIds with
  | arr items =>
    have haudit : Ensures (handle (backend patched)) (· = w)
        (failSoft (perform (.runEffect .auditException)))
        fun _ w' => Tail (ListsIds (.arr items)) w w' := by
      have hstep : Tail (ListsIds (.arr items)) w
          (handle (backend patched) w (.runEffect .auditException)).2 := by
        unfold handle
        cases w.faults.headD .none <;>
          exact ⟨rfl, rfl, rfl, fun _ => rfl, fun h => (h ⟨items, rfl⟩).elim⟩
      refine Prog.ensures_tryCatch (R := fun _ w' => Tail (ListsIds (.arr items)) w w')
        (Prog.ensures_perform ?_) (fun _ _ h => h) fun _ => Prog.ensures_ret fun _ h => h
      rintro w' rfl
      exact hstep
    have hcatch : Ensures (handle (backend patched)) (· = w)
        (queueCatch payload (.arr items) error) fun _ w' => Tail (ListsIds (.arr items)) w w' := by
      unfold queueCatch
      refine Prog.ensures_bind haudit (fun _ => ?_) fun _ _ h => h
      split_ifs
      · cases error <;> exact Prog.ensures_fail fun _ h => h
      · exact Prog.ensures_ret fun _ h => h
    exact hcatch w rfl
  | _ => exact hsame (hother fun items h => by cases h)

/-- The work has thrown, or warming the cache does. -/
def Throws (services : Services) (payload : Json) {α : Type} (out : Except Thrown α) : Prop :=
  (∃ e, out = .error e) ∨
    truthy (payload.field? "warmCache") = true ∧ ∃ e, services.warmEventDataCache = .error e

/-- The `try` block around the work, from the end of the work on. -/
theorem tail_guarded (services : Services) (tournamentIds : Json) (work : Store (Option Json))
    (w : World Tables Effect) :
    let r := work.run (handle (backend patched)) w
    Tail (ListsIds tournamentIds ∧ Throws services payload r.1) r.2
      (((work.bind fun result =>
        (if truthy (payload.field? "warmCache") then Prog.settled services.warmEventDataCache
          else .ret ()).bind fun _ =>
        .ret (spread result [])).tryCatch (queueCatch payload tournamentIds)).run
          (handle (backend patched)) w).2 := by
  intro r
  have hcaught : Throws services payload r.1 → ∀ e, Tail
      (ListsIds tournamentIds ∧ Throws services payload r.1) r.2
      ((queueCatch payload tournamentIds e).run (handle (backend patched)) r.2).2 := by
    intro hthrows e
    have h : Tail (ListsIds tournamentIds) r.2
        ((queueCatch payload tournamentIds e).run (handle (backend patched)) r.2).2 :=
      tail_queueCatch tournamentIds e r.2
    exact ⟨h.tables, h.commitLost, h.savepointRefused, fun ha => h.adds ha.1,
      fun ha => h.same fun hids => ha ⟨hids, hthrows⟩⟩
  have hquiet : ¬ Throws services payload r.1 →
      Tail (ListsIds tournamentIds ∧ Throws services payload r.1) r.2 r.2 := fun hthrows =>
    ⟨rfl, rfl, rfl, fun ha => (hthrows ha.2).elim, fun _ => rfl⟩
  have hr : work.run (handle (backend patched)) w = r := rfl
  rw [Prog.run_tryCatch, Prog.run_bind, hr]
  obtain ⟨out, w'⟩ := r
  cases out with
  | error e => exact hcaught (Or.inl ⟨e, rfl⟩) e
  | ok answer =>
    dsimp only
    by_cases hwarm : truthy (payload.field? "warmCache") = true
    · rw [if_pos hwarm]
      cases hcache : services.warmEventDataCache with
      | ok _ =>
        refine hquiet ?_
        rintro (⟨e, h⟩ | ⟨-, e, h⟩)
        · cases h
        · rw [hcache] at h
          cases h
      | error e => exact hcaught (Or.inr ⟨hwarm, e, hcache⟩) e
    · rw [if_neg hwarm]
      refine hquiet ?_
      rintro (⟨e, h⟩ | ⟨h, -⟩)
      · cases h
      · exact hwarm h

/-- A run that committed nothing agrees with its log, also once it has thrown. -/
theorem Unwritten.tail {audited : Prop} {w' : World Tables Effect} (h : Unwritten before w)
    (htail : Tail audited w w') : Unwritten before w' := by
  refine ⟨fun id => htail.tables ▸ h.nothing id, fun effect hmem => ?_⟩
  by_cases ha : audited
  · rw [htail.adds ha] at hmem
    rcases List.mem_append.mp hmem with hmem | hmem
    · exact h.silent effect hmem
    · obtain rfl := List.mem_singleton.mp hmem
      trivial
  · rw [htail.same ha] at hmem
    exact h.silent effect hmem

/-- Agreement is about the tables and the effects. -/
theorem Agrees.tail {audited : Prop} {w' : World Tables Effect}
    (h : Agrees x engine payload before w) (htail : Tail audited w w') (ha : ¬ audited) :
    Agrees x engine payload before w' := by
  have hlog : auditLog x payload w' = auditLog x payload w := by
    rw [auditLog, auditLog, htail.same ha]
  obtain ⟨happlied, hrejected, hdeleted⟩ := h
  rw [← hlog, ← htail.tables] at happlied hrejected hdeleted
  exact ⟨happlied, hrejected, hdeleted⟩

/-- An exception adds rejections to the log, and nothing else. -/
theorem mem_auditLog_tail {audited : Prop} {w' : World Tables Effect} (htail : Tail audited w w')
    {row : AuditRow} (hrow : ∀ id, row ≠ .mutation id .rejected) :
    row ∈ auditLog x payload w' ↔ row ∈ auditLog x payload w := by
  by_cases ha : audited
  · rw [auditLog, htail.adds ha, List.flatMap_append, List.mem_append]
    refine or_iff_left fun hmem => ?_
    simp only [List.flatMap_cons, List.flatMap_nil, List.append_nil, appended] at hmem
    obtain ⟨id, -, rfl⟩ := List.mem_map.mp hmem
    exact hrow _ rfl
  · rw [auditLog, auditLog, htail.same ha]

end FactoryServer.AuditLog
