import FactoryServer.StorageRegime
import FactoryServer.PooledStatements

/-!
# Storage code on pooled connections

Outside a durable command every statement is a transaction of its own, and
where a storage class needs several it checks a connection out. A statement
fails only when something goes wrong on the way, and when its answer is lost
it was executed all the same. So storage code without a command obeys the
rules of a regime as well.
-/

namespace FactoryServer.PooledConnection

open JsonValue AsyncProgram TournamentAccess CommandTransaction CommandSession StorageTables
  TournamentStorage ExecutionQueue StorageFrames StorageRegime PooledStatements
open AsyncProgram.Prog (Ensures Keeps)

variable {x : External} {patched : CalendarRow → Json → Json} {P : Tables → Prop} {loss : Prop}

/-- Storage code without a command stays aside of the command's connection. -/
theorem issues_aside {F : Effect → Prop}
    (hF : ∀ effect, F effect → ∀ t, P t → P ((backend patched).effect effect t))
    {op : Await Statement Effect} (h : Issues false (KeepsProperty P) F op) :
    Aside (backend patched) P op := by
  cases op with
  | query c sql =>
    cases sql with
    | data st => exact ⟨h.1, fun hc => by simpa using h.2.mp hc⟩
    | begin => obtain ⟨-, rfl⟩ := h; exact ⟨trivial, by simp⟩
    | commit => obtain ⟨-, rfl⟩ := h; exact ⟨trivial, by simp⟩
    | rollback => obtain ⟨-, rfl⟩ := h; exact ⟨trivial, by simp⟩
    | savepoint name => cases h.1
    | releaseSavepoint name => cases h.1
    | rollbackTo name => cases h.1
    | _ => exact h.elim
  | connect c => obtain ⟨-, rfl⟩ := h; exact ⟨trivial, by simp⟩
  | release c => obtain ⟨-, rfl⟩ := h; exact ⟨trivial, by simp⟩
  | register effect => cases h.1
  | runEffect effect => exact ⟨hF effect h.2, trivial⟩

/-- A transaction of a storage class keeps what its statements keep. -/
theorem keeps_ownTransaction {work : Store Unit}
    (h : work.Uses (Issues false (KeepsProperty P) fun _ => False)) :
    Keeps (handle (backend patched)) (Idle loss P)
      ((perform (.connect .own)).bind fun _ =>
        Prog.tryFinally (((query .own .begin).bind fun _ => work).tryCatch fun error =>
          ((query .own .rollback).tryCatch fun _ => .ret ()).bind fun _ => .fail error)
          (perform (.release .own))) :=
  keeps_checkedOut ((uses_ownWork h).mono fun _ hop => issues_aside (fun _ hf => hf.elim) hop)

/-- The participation rows are replaced in a transaction of their own. -/
theorem keeps_replaceTournamentRows_pool {id : String} (rows : List ParticipationRow)
    (hclaim : ∀ fingerprint, KeepsProperty P (.claimFingerprint id fingerprint))
    (hdelete : KeepsProperty P (.deleteParticipation id))
    (hinsert : ∀ rows, KeepsProperty P (.insertParticipation id rows)) :
    Keeps (handle (backend patched)) (Idle loss P) (replaceTournamentRows x false id rows) :=
  keeps_ownTransaction (uses_writeRows (by simp) hclaim hdelete hinsert
    (Prog.uses_perform ⟨rfl, rfl⟩))

theorem keeps_enqueue_pool (h : ∀ st, Projects st → KeepsProperty P st) (deltas : List Json) :
    Keeps (handle (backend patched)) (Idle loss P) (enqueue false deltas) := by
  unfold enqueue
  split_ifs
  · exact Prog.keeps_ret ()
  · contradiction
  · refine keeps_ownTransaction (Prog.uses_bind (Prog.uses_forEach fun chunk => ?_) fun _ =>
      Prog.uses_perform ⟨rfl, rfl⟩)
    exact uses_queryOn_other (by decide) (h _ (.deltas _))

theorem keeps_request_pool (h : ∀ st, Projects st → KeepsProperty P st) (table : RequestTable)
    (ids : List Json) (source : String) :
    Keeps (handle (backend patched)) (Idle loss P) (request x false table ids source) := by
  unfold request
  dsimp only
  split_ifs
  · exact Prog.keeps_ret ()
  · contradiction
  · cases x.pg.textArray _ with
    | none => exact Prog.keeps_fail _
    | some ids => exact keeps_pool (b := backend patched) _ (h _ (.requests _ _ _))

/-! ## The regime -/

/-- Something goes wrong at a coming await only if `faulty`. -/
def FaultsOnly (faulty : Prop) (w : World Tables Effect) : Prop :=
  ∀ fault ∈ w.faults, fault ≠ .none → faulty

/-- Awaits use up the faults to come. -/
theorem keeps_faultsOnly {α : Type} {faulty : Prop} (p : Store α) :
    Keeps (handle (backend patched)) (FaultsOnly faulty) p := by
  have hstep : ∀ (w : World Tables Effect) op, True → FaultsOnly faulty w →
      FaultsOnly faulty (handle (backend patched) w op).2 := by
    intro w op _ hw fault hmem
    rw [faults_handle] at hmem
    exact hw fault (List.mem_of_mem_tail hmem)
  have huses : p.Uses fun _ => True := by
    induction p with
    | ret a => trivial
    | fail e => trivial
    | await op k ih => exact ⟨trivial, fun r => ih r⟩
  exact fun w hw => Prog.run_invariant hstep huses hw

/-- What is kept on pooled connections is kept with the faults to come. -/
theorem keeps_pooled {α : Type} {faulty : Prop} {p : Store α}
    (h : Keeps (handle (backend patched)) (Idle loss P) p) :
    Keeps (handle (backend patched)) (fun w => Idle loss P w ∧ FaultsOnly faulty w) p :=
  fun w hw => ⟨h w hw.1, keeps_faultsOnly p w hw.2⟩

/-- A statement on a pooled connection fails only where something goes wrong. -/
theorem faulty_of_error {faulty : Prop} {st : Statement} {w w' : World Tables Effect} {e : Thrown}
    (hw : FaultsOnly faulty w)
    (h : (queryClient false st).run (handle (backend patched)) w = (.error e, w')) : faulty := by
  have hquery : (query .pool (.data st) : Store st.Answer).run (handle (backend patched)) w =
      (.error e, w') := h
  have hrun : handle (backend patched) w (.query .pool (.data st)) = (.error e, w') := by
    rwa [query, Prog.run_perform] at hquery
  cases hfaults : w.faults with
  | nil =>
    rw [CommandAtomicity.handle_query, hfaults] at hrun
    cases hrun
  | cons fault rest =>
    refine hw fault (hfaults ▸ List.mem_cons_self) fun hnone => ?_
    rw [CommandAtomicity.handle_query, hfaults, hnone] at hrun
    cases hrun

/-- Code on pooled connections, with faults to come only if `faulty`. -/
def pooledRegime (x : External) (patched : CalendarRow → Json → Json) (faulty loss : Prop) :
    Regime x patched false where
  holds P w := Idle loss P w ∧ FaultsOnly faulty w
  stopped P Q w := Idle loss (fun t => P t ∨ (loss ∧ Q t)) w ∧ FaultsOnly faulty w
  faulty := faulty
  mono h hw := ⟨hw.1.mono h, hw.2⟩
  stopped_mono hP hQ hw := by
    refine ⟨hw.1.mono fun t ht => ?_, hw.2⟩
    rcases ht with ht | ⟨hl, ht⟩
    · exact Or.inl (hP t ht)
    · exact (hQ t ht).imp_right fun h => ⟨hl, h⟩
  stopped_of_holds _ hw := ⟨hw.1.mono fun _ => Or.inl, hw.2⟩
  holds_of_stopped hw := ⟨hw.1.mono fun _ ht => ht.elim id And.right, hw.2⟩
  statement st P Q h := by
    intro w hw
    have hexecuted := ensures_pool (b := backend patched) st h w hw.1
    have hfaults : FaultsOnly faulty ((queryClient false st).run (handle (backend patched)) w).2 :=
      keeps_faultsOnly (queryClient false st) w hw.2
    cases hr : (queryClient false st).run (handle (backend patched)) w with
    | mk out w' =>
      have hrun : (query .pool (.data st) : Store st.Answer).run (handle (backend patched)) w =
          (out, w') := hr
      rw [hrun] at hexecuted
      rw [hr] at hfaults
      cases out with
      | ok a => exact ⟨hexecuted, hfaults⟩
      | error e => exact ⟨faulty_of_error hw.2 hr, hexecuted, hfaults⟩
  replaceTournamentRows rows hclaim hdelete hinsert :=
    keeps_pooled (keeps_replaceTournamentRows_pool rows hclaim hdelete hinsert)
  enqueue h deltas := keeps_pooled (keeps_enqueue_pool h deltas)
  request h table ids source := keeps_pooled (keeps_request_pool h table ids source)
  afterCommandCommit effect h := keeps_pooled (keeps_runEffect (b := backend patched) effect h)

end FactoryServer.PooledConnection
