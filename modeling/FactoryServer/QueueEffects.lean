import FactoryServer.CommandCommit
import FactoryServer.CallbackOutcomes

/-!
# The effects of a mutation

The effects that the callback of `executionQueue` starts, or registers inside a
durable command: first those its engine run asks for, then, unless it throws or
returns early, the snapshot of the draws and the audit of the mutation. Which
of them it reaches can be told from its plan and from how it ends.
-/

namespace FactoryServer.QueueEffects

open JsonValue AsyncProgram TournamentAccess CommandTransaction CommandReceipts CommandSession
  CommandCommit StorageTables TournamentStorage ExecutionQueue StorageFrames StorageRegime
  CallbackOutcomes
open AsyncProgram.Prog (Ensures Keeps Emits)

variable {x : External} {patched : CalendarRow → Json → Json} {borrowed : Bool}

/-- What a run of storage code emits. -/
abbrev effectsOf {α : Type} (patched : CalendarRow → Json → Json) (p : Store α)
    (w : World Tables Effect) : List Effect :=
  p.trace (handle (backend patched)) emitted w

/-! ## Storage code -/

/-- Storage code without effects emits none. -/
theorem emitted_of_issues {S : Statement → Prop} {op : Await Statement Effect}
    (h : Issues borrowed S (fun _ => False) op) : emitted op = [] := by
  cases op with
  | register effect => exact h.2.elim
  | runEffect effect => exact h.2.elim
  | _ => rfl

theorem effects_eq_nil {α : Type} {S : Statement → Prop} {p : Store α}
    (h : p.Uses (Issues borrowed S fun _ => False)) (w : World Tables Effect) :
    effectsOf patched p w = [] :=
  Prog.trace_eq_nil (fun _ hop => emitted_of_issues hop) h w

/-- Outside a command the list of started effects grows by what a run emits. -/
theorem effects_run {α : Type} {S : Statement → Prop} {F : Effect → Prop} {p : Store α}
    (h : p.Uses (Issues false S F)) (w : World Tables Effect) :
    (p.run (handle (backend patched)) w).2.effects = w.effects ++ effectsOf patched p w := by
  have hquiet : ∀ (w : World Tables Effect) op, NoEffect op → emitted op = [] →
      (handle (backend patched) w op).2.effects = w.effects ++ emitted op := by
    intro w op hop hnil
    rw [effects_handle hop, hnil, List.append_nil]
  have hstep : ∀ (w : World Tables Effect) op, Issues false S F op →
      (handle (backend patched) w op).2.effects = w.effects ++ emitted op := by
    intro w op hop
    cases op with
    | register effect => cases hop.1
    | runEffect effect =>
      unfold handle
      cases w.faults.headD .none <;> rfl
    | query c sql => exact hquiet w _ trivial rfl
    | connect c => exact hquiet w _ trivial rfl
    | release c => exact hquiet w _ trivial rfl
  exact Prog.log_run hstep h w

/-- A deferred effect is emitted once, and never thrown from. -/
theorem emits_defer (effect : Effect) :
    Emits (handle (backend patched)) emitted (defer borrowed effect)
      fun out es => out = .ok () ∧ es = [effect] := by
  have hrun : Emits (handle (backend patched)) emitted (afterCommandCommit borrowed effect)
      fun _ es => es = [effect] := by
    unfold afterCommandCommit
    cases borrowed with
    | true => exact Prog.emits_perform fun _ => rfl
    | false => exact Prog.emits_perform fun _ => rfl
  refine Prog.emits_tryCatch hrun (fun _ _ h => ⟨rfl, h⟩) fun e es h => ?_
  exact Prog.emits_ret ⟨rfl, by simpa using h⟩

/-- The projection is flushed without effects, and never thrown from. -/
theorem emits_flushProjection (services : Services) (outcome : EngineOutcome)
    (methods : List Json) (ids : Json) :
    Emits (handle (backend patched)) emitted
      (flushProjection x services borrowed outcome methods ids)
      fun out es => out = .ok () ∧ es = [] := by
  have hsoft : ∀ p : Store Unit, Emits (handle (backend patched)) emitted (failSoft p)
      fun out _ => out = .ok () := fun p =>
    Prog.emits_tryCatch (Q := fun _ _ => True) (fun _ => trivial)
      (fun _ _ _ => rfl) fun _ _ _ => Prog.emits_ret rfl
  have hok : Emits (handle (backend patched)) emitted
      (flushProjection x services borrowed outcome methods ids) fun out _ => out = .ok () := by
    unfold flushProjection
    split_ifs
    · exact Prog.emits_bind (hsoft _) (fun _ _ _ => hsoft _) fun e _ h => (by cases h)
    · exact Prog.emits_ret rfl
  exact fun w => ⟨hok w, effects_eq_nil (S := fun _ => True)
    (uses_flushProjection (fun _ _ => trivial) services outcome methods ids) w⟩

/-! ## The callback -/

/-- The outcome is no answered success. -/
def Unsuccessful (out : Except Thrown (Option Json)) : Prop :=
  ∀ answer, out = .ok answer → ¬ Succeeds answer

theorem unsuccessful_error (e : Thrown) : Unsuccessful (.error e) := fun _ h => by cases h

theorem unsuccessful_ok {answer : Option Json} (h : ¬ Succeeds answer) :
    Unsuccessful (.ok answer) :=
  fun _ he => by cases he; exact h

/-- What the callback of a mutation with this plan emits. -/
inductive MutationEmits (plan : Option Plan) : Except Thrown (Option Json) → List Effect → Prop
  /-- The engine does not run. -/
  | silent {out : Except Thrown (Option Json)} (unplanned : plan = none)
      (failed : Unsuccessful out) : MutationEmits plan out []
  /-- The engine run throws, or its records are not all saved. -/
  | announced {p : Plan} {out : Except Thrown (Option Json)} (planned : plan = some p)
      (failed : Unsuccessful out) : MutationEmits plan out p.deferred
  /-- The engine refuses the methods. -/
  | refused {p : Plan} {answer : Option Json} {status : MutationStatus} (planned : plan = some p)
      (unsaved : p.records = none) (status_ne : status ≠ .applied) (failed : ¬ Succeeds answer) :
      MutationEmits plan (.ok answer) (p.deferred ++ [.evictAndAudit status])
  /-- Everything is saved. -/
  | saved {p : Plan} {answer : Option Json} (planned : plan = some p) (done : Succeeds answer) :
      MutationEmits plan (.ok answer) (p.deferred ++ [.snapshotDraws, .evictAndAudit .applied])

/-- A successful answer has been audited. -/
theorem MutationEmits.of_success {plan : Option Plan} {answer : Option Json} {es : List Effect}
    (h : MutationEmits plan (.ok answer) es) (hs : Succeeds answer) :
    ∃ p, plan = some p ∧ es = p.deferred ++ [.snapshotDraws, .evictAndAudit .applied] := by
  cases h with
  | silent unplanned failed => exact (failed _ rfl hs).elim
  | announced planned failed => exact (failed _ rfl hs).elim
  | refused planned unsaved status_ne failed => exact (failed hs).elim
  | saved planned done => exact ⟨_, planned, rfl⟩

/-- The status of a mutation that failed is not `applied`. -/
theorem mutationStatus_ne_applied {result : Json}
    (h : ¬ truthy (result.field? "success") = true) : mutationStatus result ≠ .applied := by
  unfold mutationStatus
  rw [if_neg h]
  split_ifs <;> simp

section Callback

variable (services : Services) (engine : Engine) (payload ids : Json) (methods : List Json)

theorem emits_saveMutated {outcome : EngineOutcome} {p : Plan}
    (hp : p.records = savedRecords (.ok outcome)) (previous : List (String × String)) :
    Emits (handle (backend patched)) emitted
      (saveMutated x services borrowed outcome methods ids fun serverUpdatedAt =>
        (defer borrowed (.evictAndAudit (mutationStatus outcome.result))).bind fun _ =>
        .ret (some (mutationAnswer payload outcome.result methods serverUpdatedAt previous)))
      fun out es => MutationEmits (some p) out (p.deferred ++ es) := by
  have haudit : ∀ status (answer : Option Json), Emits (handle (backend patched)) emitted
      ((defer borrowed (.evictAndAudit status)).bind fun _ => .ret answer)
      fun out es => out = .ok answer ∧ es = [.evictAndAudit status] := by
    intro status answer
    refine Prog.emits_bind (emits_defer _) (fun _ es h => Prog.emits_ret ⟨rfl, ?_⟩) ?_
    · rw [h.2, List.append_nil]
    · rintro e es ⟨h, -⟩
      cases h
  unfold saveMutated
  by_cases hsuccess : truthy (outcome.result.field? "success") = true
  · rw [if_pos hsuccess]
    have hsave : Emits (handle (backend patched)) emitted
        (saveTournamentRecords x borrowed 0 none outcome.records) fun _ es => es = [] :=
      effects_eq_nil (S := fun _ => True) (uses_saveLoop (fun _ _ _ _ => trivial) [] [])
    refine Prog.emits_bind hsave (fun saved es hes => ?_) fun e es hes => ?_
    · subst hes
      cases saved with
      | error failure =>
        refine Prog.emits_ret ?_
        rw [List.nil_append, List.append_nil]
        exact .announced rfl (unsuccessful_ok (not_succeeds_saveFailureAnswer failure ids))
      | ok summary =>
        refine Prog.emits_bind (emits_defer .snapshotDraws) (fun _ es hes => ?_) fun e es hes => ?_
        · refine Prog.emits_bind (emits_flushProjection services outcome methods ids)
            (fun _ es' hes' => ?_) fun e es' hes' => (by cases hes'.1)
          refine (haudit _ _).mono fun out es'' h => ?_
          rw [hes.2, hes'.2, h.1, h.2, mutationStatus, if_pos hsuccess]
          exact .saved rfl (succeeds_mutationAnswer hsuccess)
        · cases hes.1
    · rw [hes, List.append_nil]
      exact .announced rfl (unsuccessful_error e)
  · rw [if_neg hsuccess]
    refine (haudit _ _).mono fun out es h => ?_
    rw [h.1, h.2]
    refine .refused rfl ?_ (mutationStatus_ne_applied hsuccess)
      (not_succeeds_mutationAnswer (by simpa using hsuccess))
    rw [hp, savedRecords, if_neg hsuccess]

/-- From the fetched rows on. -/
theorem emits_mutateRows (rows : List (String × TournamentRow)) :
    Emits (handle (backend patched)) emitted
      (mutateRows x services engine borrowed payload ids methods rows)
      (MutationEmits (rowsPlan engine payload methods rows)) := by
  unfold mutateRows rowsPlan
  cases resolveMatchUpReferences engine (loadedRecords rows) methods with
  | error e => exact Prog.emits_fail (.silent rfl (unsuccessful_error e))
  | ok methods =>
    simp only [Prog.settled_ok, Prog.ret_bind, Except.toOption, Option.bind_some]
    by_cases hvalid : recordsAreValid rows = true
    · simp only [hvalid, Bool.not_true, Bool.false_eq_true, if_false]
      generalize engine.executionQueue (loadedRecords rows) methods
        (payload.field? "rollbackOnError") = run
      refine Prog.emits_bind (Prog.emits_forEach emits_defer run.deferred) (fun _ es hes => ?_) ?_
      · rw [hes.2, List.map_id']
        cases hout : run.outcome with
        | error e =>
          refine Prog.emits_fail ?_
          rw [List.append_nil]
          exact .announced (p := ⟨run.deferred, _⟩) rfl (unsuccessful_error e)
        | ok outcome =>
          exact emits_saveMutated services payload ids methods
            (p := ⟨run.deferred, savedRecords (.ok outcome)⟩) rfl _
      · rintro e es ⟨h, -⟩
        cases h
    · simp only [hvalid, Bool.not_false, if_true]
      exact Prog.emits_ret (.silent rfl (unsuccessful_ok Bool.false_ne_true))

/-- Up to its engine run a mutation only reads: it ends there, or it goes on
with the rows of its plan. -/
theorem mutate_cases (R : Regime x patched borrowed) {before : Tables}
    {w : World Tables Effect} (hw : R.holds (· = before) w) :
    (Unsuccessful ((mutate x services engine borrowed payload ids methods).run
        (handle (backend patched)) w).1 ∧
      effectsOf patched (mutate x services engine borrowed payload ids methods) w = [] ∧
      R.holds (fun _ => R.faulty ∨ mutationPlan x engine before payload ids methods = none)
        ((mutate x services engine borrowed payload ids methods).run
          (handle (backend patched)) w).2) ∨
    ∃ indexed rows w', R.holds (fun t =>
        mutationPlan x engine before payload ids methods = rowsPlan engine payload indexed rows ∧
          t = before) w' ∧
      (mutate x services engine borrowed payload ids methods).run (handle (backend patched)) w =
        (mutateRows x services engine borrowed payload ids indexed rows).run
          (handle (backend patched)) w' ∧
      effectsOf patched (mutate x services engine borrowed payload ids methods) w =
        effectsOf patched (mutateRows x services engine borrowed payload ids indexed rows) w' := by
  have hclient : ∀ st, Reads st →
      Issues borrowed (fun _ => True) (fun _ => False) (clientQuery borrowed st) :=
    fun st _ => issues_clientQuery trivial
  have hindex := (yields_resolveMatchUpReferencesFromIndex ids methods : Yields R before _ _)
    (· = before) (fun _ h => h) w hw
  have hindexed : effectsOf patched
      (resolveMatchUpReferencesFromIndex x borrowed ids methods) w = [] :=
    effects_eq_nil (uses_resolveMatchUpReferencesFromIndex hclient ids methods) w
  unfold mutate effectsOf
  unfold effectsOf at hindexed
  rw [Prog.run_bind, Prog.trace_bind, hindexed, List.nil_append]
  cases hr : (resolveMatchUpReferencesFromIndex x borrowed ids methods).run
    (handle (backend patched)) w with
  | mk out w₁ =>
    rw [hr] at hindex
    cases out with
    | error e =>
      refine Or.inl ⟨unsuccessful_error e, rfl, R.mono (fun t ht => ?_) hindex⟩
      exact ht.1.imp_right fun hnone => by simp only [mutationPlan, hnone, Option.bind_none]
    | ok indexed =>
      have hfetch := (yields_fetchTournamentRecords ids : Yields R before _ _)
        (fun t => indexedMethods x before ids methods = some indexed ∧ t = before)
        (fun _ h => h.2) w₁ (R.mono (fun t ht => ⟨ht.1, ht.2⟩) hindex)
      have hfetched : (fetchTournamentRecords x borrowed (some ids) none).trace
          (handle (backend patched)) emitted w₁ = [] :=
        effects_eq_nil (uses_fetchTournamentRecords hclient _ _) w₁
      dsimp only
      rw [Prog.run_bind, Prog.trace_bind, hfetched, List.nil_append]
      cases hr' : (fetchTournamentRecords x borrowed (some ids) none).run
        (handle (backend patched)) w₁ with
      | mk out w₂ =>
        rw [hr'] at hfetch
        cases out with
        | error e =>
          refine Or.inl ⟨unsuccessful_error e, rfl, R.mono (fun t ht => ?_) hfetch⟩
          exact ht.1.imp_right fun hnone =>
            mutationPlan_of_storedRows (storedRows_of_unbound hnone)
        | ok fetched =>
          cases fetched with
          | none =>
            refine Or.inl ⟨unsuccessful_ok Bool.false_ne_true, rfl, R.mono (fun t ht => ?_) hfetch⟩
            have hnone : storedRows x before ids = none := by
              have hsome := ht.1
              split_ifs at hsome
              exact Option.some.inj hsome
            exact Or.inr (mutationPlan_of_storedRows hnone)
          | some rows =>
            refine Or.inr ⟨indexed, rows, w₂, R.mono (fun t ht => ⟨?_, ht.2.2⟩) hfetch, rfl, rfl⟩
            have hrows : storedRows x before ids = some rows := by
              have hsome := ht.1
              split_ifs at hsome
              exact Option.some.inj hsome
            simp only [mutationPlan, ht.2.1, hrows, Option.bind_some]

/-- A mutation that answers a success has saved the records of its plan, and has
emitted the audit of them. -/
theorem saved_with_effects (R : Regime x patched borrowed) {before : Tables}
    (S : Surroundings x patched none before) {w : World Tables Effect}
    (hw : R.holds (· = before) w) {answer : Option Json}
    (hrun : ((mutate x services engine borrowed payload ids methods).run
      (handle (backend patched)) w).1 = .ok answer) (hs : Succeeds answer) :
    R.holds (fun t => ∃ p records,
      mutationPlan x engine before payload ids methods = some p ∧ p.records = some records ∧
      S.SavedUpTo p.deferred records records.length t ∧
      effectsOf patched (mutate x services engine borrowed payload ids methods) w =
        p.deferred ++ [.snapshotDraws, .evictAndAudit .applied])
      ((mutate x services engine borrowed payload ids methods).run
        (handle (backend patched)) w).2 := by
  have hends := ensures_mutate (S := S) R services engine payload ids methods w hw
  rw [hrun] at hends
  rcases mutate_cases services engine payload ids methods R hw with
    ⟨hfailed, -, -⟩ | ⟨indexed, rows, w', hw', hsame, heffects⟩
  · exact (hfailed answer hrun hs).elim
  have hemits : MutationEmits (rowsPlan engine payload indexed rows)
      ((mutateRows x services engine borrowed payload ids indexed rows).run
        (handle (backend patched)) w').1 (effectsOf patched
      (mutateRows x services engine borrowed payload ids indexed rows) w') :=
    emits_mutateRows services engine payload ids indexed rows w'
  rw [← hsame, hrun] at hemits
  obtain ⟨q, hq, hes⟩ := hemits.of_success hs
  by_cases hplan : mutationPlan x engine before payload ids methods =
      rowsPlan engine payload indexed rows
  · refine R.mono (fun t ht => ?_) (hends.1 hs)
    obtain ⟨p, records, hp, hrecords, hdone⟩ := ht
    have hpq : p = q := Option.some.inj (hp.symm.trans (hplan.trans hq))
    exact ⟨p, records, hp, hrecords, hdone, heffects.trans (hpq ▸ hes)⟩
  · -- the regime knows nothing of the tables any more, so nothing is to be shown of them
    have hnothing : R.holds (fun t => none = rowsPlan engine payload indexed rows ∧ t = before)
        w' := R.mono (fun t ht => (hplan ht.1).elim) hw'
    have hnone := ensures_mutateRows (S := S) R services engine payload ids indexed rows w' hnothing
    rw [← hsame, hrun] at hnone
    refine R.mono (fun t ht => ?_) (hnone.1 hs)
    obtain ⟨p, records, hp, -⟩ := ht
    cases hp

end Callback

end FactoryServer.QueueEffects
