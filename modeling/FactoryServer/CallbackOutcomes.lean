import FactoryServer.StorageRegime

/-!
# What the callbacks of the durable commands come to

Which records a mutation or a wholesale save sets out to save can be told from
the request and the stored rows. Under every regime the callback saves all of
them and answers a success, or it stops: because a statement failed, because
nothing was to be saved, or at a record that cannot be saved.
-/

namespace FactoryServer.CallbackOutcomes

open JsonValue AsyncProgram TournamentAccess CommandTransaction CommandReceipts CommandSession
  StorageTables TournamentStorage ExecutionQueue StorageFrames StorageRegime
open AsyncProgram.Prog (Ensures Keeps)

variable {x : External} {patched : CalendarRow → Json → Json} {borrowed : Bool}

/-! ## Reading -/

/-- After reading what `expected` says: the program has thrown only if a
statement failed or nothing was expected. -/
def Reading {α : Type} (R : Regime x patched borrowed) (P : Tables → Prop) (expected : Option α) :
    Except Thrown α → World Tables Effect → Prop
  | .ok a => R.holds fun t => expected = some a ∧ P t
  | .error _ => R.holds fun t => (R.faulty ∨ expected = none) ∧ P t

/-- A program that reads `expected` from the tables and changes nothing. -/
def Yields {α : Type} (R : Regime x patched borrowed) (before : Tables) (p : Store α)
    (expected : Option α) : Prop :=
  ∀ P : Tables → Prop, (∀ t, P t → t = before) →
    Ensures (handle (backend patched)) (R.holds P) p (Reading R P expected)

section Reading

variable {R : Regime x patched borrowed} {before : Tables} {α β : Type}

theorem yields_ret (a : α) : Yields R before (.ret a) (some a) :=
  fun _ _ => Prog.ensures_ret fun _ hw => R.mono (fun _ h => ⟨rfl, h⟩) hw

theorem yields_fail (e : Thrown) : Yields R before (.fail e : Store α) none :=
  fun _ _ => Prog.ensures_fail fun _ hw => R.mono (fun _ h => ⟨Or.inr rfl, h⟩) hw

/-- A statement that only reads. -/
theorem yields_queryClient {st : Statement} (h : Reads st) :
    Yields R before (queryClient borrowed st) (some (exec st before).2) := by
  intro P hP
  refine (R.statement st (P := P) (Q := fun a t => a = (exec st before).2 ∧ P t)
    fun t ht => ?_).mono (fun _ h => h) fun out w hw => ?_
  · rw [exec_reads h, hP t ht]
    exact ⟨rfl, hP t ht ▸ ht⟩
  · cases out with
    | ok a => exact R.mono (fun t ht => ⟨congrArg some ht.1.symm, ht.2⟩) hw
    | error e =>
      have hstopped : R.stopped P P w :=
        R.stopped_mono (fun _ h => h) (fun _ h => Or.inl (h.elim fun _ h => h.2)) hw.2
      exact R.mono (fun t ht => ⟨Or.inl hw.1, ht⟩) (R.holds_of_stopped hstopped)

theorem Yields.bind {p : Store α} {f : α → Store β} {a : Option α} {b : α → Option β}
    (hp : Yields R before p a) (hf : ∀ a, Yields R before (f a) (b a)) :
    Yields R before (p.bind f) (a.bind b) := by
  intro P hP
  refine Prog.ensures_bind (hp P hP) (fun v => ?_) fun e w hw => ?_
  · have hrest := hf v (fun t => a = some v ∧ P t) fun t ht => hP t ht.2
    refine hrest.mono (fun _ h => h) fun out w hw => ?_
    cases out with
    | ok c =>
      refine R.mono (fun t ht => ⟨?_, ht.2.2⟩) hw
      rw [ht.2.1]
      exact ht.1
    | error e =>
      refine R.mono (fun t ht => ⟨ht.1.imp_right fun hb => ?_, ht.2.2⟩) hw
      rw [ht.2.1]
      exact hb
  · refine R.mono (fun t ht => ⟨ht.1.imp_right fun ha => ?_, ht.2⟩) hw
    rw [ha]
    rfl

end Reading

/-! ## What is stored -/

/-- When a tournament was last written, as the conflict check reads it. -/
def serverUpdatedAt (x : External) (t : Tables) (tid : String) : Option String :=
  if tid = "" then none else (t.tournaments tid).map fun row => x.toIso row.updatedAt

/-- The answer of the conflict check for the first tournament that is not as the
client last saw it. -/
def conflictAt (x : External) (t : Tables) (fields : List (String × Json)) :
    List String → Option Json
  | [] => none
  | tid :: rest =>
    match fields.lookup tid with
    | none => conflictAt x t fields rest
    | some expected =>
      if sameTime (serverUpdatedAt x t tid) expected then conflictAt x t fields rest
      else some (conflictAnswer tid expected (((serverUpdatedAt x t tid).map .str).getD .null))

/-- The conflict that a wholesale save is refused for. -/
def conflictOf (x : External) (t : Tables) (params : Json) (records : RecordMap) : Option Json :=
  (expectedFields (params.field? "expectedServerUpdatedAt")).bind fun fields =>
    conflictAt x t fields (records.map Prod.fst)

/-- The rows that ids denote; nothing when they do not bind or no row is stored. -/
def storedRows (x : External) (t : Tables) (ids : Json) :
    Option (List (String × TournamentRow)) :=
  if truthy ids.length? then
    (x.pg.textArray ids).bind fun texts =>
      let rows := (exec (.selectTournaments texts) t).2
      if rows.isEmpty then none else some rows
  else none

/-- The draws of the index, unless the ids do not bind. -/
def storedDraws (x : External) (t : Tables) (id : Option Json) (matchUpIds : List Json) :
    Option (List (String × String × Option String)) :=
  match id with
  | none => some []
  | some id =>
    if !truthy (some id) || matchUpIds.isEmpty then some [] else
    (x.pg.textArray (.arr matchUpIds)).map fun ids =>
      (exec (.selectMatchUpDraws (x.pg.text id) ids) t).2

/-- The methods with the draws of the index. -/
def indexedMethods (x : External) (t : Tables) (tournamentIds : Json) (methods : List Json) :
    Option (List Json) :=
  let ids := tournamentIds.iterate?.getD []
  let pending := methods.filter isUnresolvedScore
  if ids.length ≠ 1 || pending.isEmpty then some methods else
  (storedDraws x t ids.head? (pending.map scoredMatchUpId)).map (withDraws methods)

section Stored

variable {R : Regime x patched borrowed} {before : Tables}

/-- A program that yields what another description says as well. -/
theorem Yields.congr {α : Type} {p : Store α} {a b : Option α} (h : Yields R before p a)
    (hab : a = b) : Yields R before p b :=
  hab ▸ h

theorem yields_fetchTournamentUpdatedAt (tid : String) :
    Yields R before (fetchTournamentUpdatedAt x borrowed (some (.str tid)))
      (some (if tid = "" then none else
        (before.tournaments tid).map fun row => row.updatedAtView tid)) := by
  unfold fetchTournamentUpdatedAt
  dsimp only
  by_cases ht : tid = ""
  · have htruthy : truthy (some (Json.str tid)) = false := by simp [ht, truthy]
    rw [htruthy, if_pos ht]
    exact yields_ret none
  · have htruthy : truthy (some (Json.str tid)) = true := by simpa [truthy] using ht
    rw [htruthy, if_neg ht, if_pos rfl, x.pg.text_str]
    exact yields_queryClient (.updatedAt tid)

/-- The conflict check compares every expectation with the stored row. -/
theorem yields_unexpectedServerUpdatedAt (fields : List (String × Json)) (ids : List String) :
    Yields R before (unexpectedServerUpdatedAt x borrowed fields ids)
      (some (conflictAt x before fields ids)) := by
  induction ids with
  | nil => exact yields_ret none
  | cons tid rest ih =>
    unfold unexpectedServerUpdatedAt conflictAt
    cases fields.lookup tid with
    | none => exact ih
    | some expected =>
      let current (stored : Option UpdatedAtView) : Option String :=
        stored.map fun view => x.toIso view.serverUpdatedAt
      refine ((yields_fetchTournamentUpdatedAt tid).bind (b := fun stored =>
        if sameTime (current stored) expected then some (conflictAt x before fields rest)
        else some (some (conflictAnswer tid expected (((current stored).map .str).getD .null))))
        fun stored => ?_).congr ?_
      · dsimp only
        split_ifs
        · exact ih
        · exact yields_ret _
      · have hcurrent : current (if tid = "" then none else
            (before.tournaments tid).map fun row => row.updatedAtView tid) =
            serverUpdatedAt x before tid := by
          unfold serverUpdatedAt
          split_ifs
          · rfl
          · simp only [current, Option.map_map]
            rfl
        simp only [Option.bind_some, hcurrent]
        split_ifs <;> rfl

theorem yields_fetchMatchUpDraws (id : Option Json) (matchUpIds : List Json) :
    Yields R before (fetchMatchUpDraws x borrowed id matchUpIds)
      (storedDraws x before id matchUpIds) := by
  unfold fetchMatchUpDraws storedDraws
  cases id with
  | none => exact yields_ret []
  | some id =>
    dsimp only
    split_ifs
    · exact yields_ret []
    · cases x.pg.textArray (.arr matchUpIds) with
      | none => exact yields_fail _
      | some ids => exact yields_queryClient (.draws _ _)

theorem yields_resolveMatchUpReferencesFromIndex (ids : Json) (methods : List Json) :
    Yields R before (resolveMatchUpReferencesFromIndex x borrowed ids methods)
      (indexedMethods x before ids methods) := by
  unfold resolveMatchUpReferencesFromIndex indexedMethods
  dsimp only
  split_ifs
  · exact yields_ret methods
  · refine ((yields_fetchMatchUpDraws _ _).bind fun draws =>
      yields_ret (withDraws methods draws)).congr ?_
    cases storedDraws x before _ _ <;> rfl

/-- The fetch answers the stored rows, and that there are none when there are none. -/
theorem yields_fetchTournamentRecords (ids : Json) :
    Yields R before (fetchTournamentRecords x borrowed (some ids) none)
      (if truthy ids.length? && (x.pg.textArray ids).isNone then none
        else some (storedRows x before ids)) := by
  unfold fetchTournamentRecords storedRows
  dsimp only [Option.bind_some, Option.getD_some]
  by_cases hl : truthy ids.length? = true
  · simp only [hl, if_true, Bool.not_true, Bool.false_eq_true, if_false, Bool.true_and]
    cases x.pg.textArray ids with
    | none => exact yields_fail _
    | some texts =>
      refine ((yields_queryClient (.tournaments texts)).bind (b := fun rows =>
        some (if List.isEmpty rows then none else some rows)) fun rows => yields_ret _).congr ?_
      simp
  · simp only [hl, Bool.false_eq_true, if_false, Bool.false_and, Option.toList_none,
      List.filter_nil]
    exact yields_ret none

end Stored

/-! ## What a callback sets out to do -/

/-- What a callback sets out to do. -/
structure Plan where
  /-- The effects its engine run starts. -/
  deferred : List Effect
  /-- The records to save, unless the engine run fails. -/
  records : Option RecordMap

/-- The records a successful engine run leaves. -/
def savedRecords : Except Thrown EngineOutcome → Option RecordMap
  | .ok outcome => if truthy (outcome.result.field? "success") then some outcome.records else none
  | .error _ => none

/-- The engine run on these rows, unless it is refused. -/
def rowsPlan (engine : Engine) (payload : Json) (methods : List Json)
    (rows : List (String × TournamentRow)) : Option Plan :=
  (resolveMatchUpReferences engine (loadedRecords rows) methods).toOption.bind fun methods =>
  if !recordsAreValid rows then none else
  let run := engine.executionQueue (loadedRecords rows) methods (payload.field? "rollbackOnError")
  some ⟨run.deferred, savedRecords run.outcome⟩

/-- The engine run on the stored rows. -/
def mutationPlan (x : External) (engine : Engine) (before : Tables) (payload ids : Json)
    (methods : List Json) : Option Plan :=
  (indexedMethods x before ids methods).bind fun methods =>
  (storedRows x before ids).bind fun rows => rowsPlan engine payload methods rows

/-- All the given records, unless one was written meanwhile. -/
def savePlan (x : External) (before : Tables) (params : Json) (records : RecordMap) :
    Option Plan :=
  match conflictOf x before params records with
  | some _ => none
  | none => some ⟨[], some records⟩

/-- The plan of a command that finds these tables; `none` when it is refused
before anything is saved. -/
def planOf (x : External) (engine : Engine) (before : Tables) : Command → Option Plan
  | .mutation payload ids methods => mutationPlan x engine before payload ids methods
  | .wholesaleSave params _ records => savePlan x before params records

/-- A mutation with a plan runs the engine on the rows its ids denote. -/
theorem run_of_mutationPlan {engine : Engine} {before : Tables} {payload ids : Json}
    {methods : List Json} {p : Plan}
    (h : mutationPlan x engine before payload ids methods = some p) :
    ∃ texts resolved, x.pg.textArray ids = some texts ∧
      let run := engine.executionQueue
        (loadedRecords (exec (.selectTournaments texts) before).2) resolved
        (payload.field? "rollbackOnError")
      p = ⟨run.deferred, savedRecords run.outcome⟩ := by
  obtain ⟨indexed, -, h⟩ := Option.bind_eq_some_iff.mp h
  obtain ⟨rows, hrows, h⟩ := Option.bind_eq_some_iff.mp h
  obtain ⟨resolved, -, h⟩ := Option.bind_eq_some_iff.mp h
  have hp : p = ⟨(engine.executionQueue (loadedRecords rows) resolved
      (payload.field? "rollbackOnError")).deferred,
      savedRecords (engine.executionQueue (loadedRecords rows) resolved
        (payload.field? "rollbackOnError")).outcome⟩ := by
    split_ifs at h
    exact (Option.some.inj h).symm
  unfold storedRows at hrows
  split_ifs at hrows
  obtain ⟨texts, htexts, hselected⟩ := Option.bind_eq_some_iff.mp hrows
  have hsame : (exec (.selectTournaments texts) before).2 = rows := by
    dsimp only at hselected
    split_ifs at hselected
    exact Option.some.inj hselected
  exact ⟨texts, resolved, htexts, hsame ▸ hp⟩

/-- Ids that do not bind name no row. -/
theorem storedRows_of_unbound {before : Tables} {ids : Json}
    (h : (if truthy ids.length? && (x.pg.textArray ids).isNone then none
      else some (storedRows x before ids)) = none) : storedRows x before ids = none := by
  unfold storedRows
  split_ifs at h with hb
  obtain ⟨hl, ht⟩ := Bool.and_eq_true_iff.mp hb
  rw [if_pos hl, Option.isNone_iff_eq_none.mp ht]
  rfl

/-- A mutation that finds no rows has no plan. -/
theorem mutationPlan_of_storedRows {engine : Engine} {before : Tables} {payload ids : Json}
    {methods : List Json} (h : storedRows x before ids = none) :
    mutationPlan x engine before payload ids methods = none := by
  simp only [mutationPlan, h, Option.bind_none, Option.bind_fun_none]

/-- Records are saved after a successful run only. -/
theorem outcome_of_savedRecords {out : Except Thrown EngineOutcome} {records : RecordMap}
    (h : savedRecords out = some records) :
    ∃ outcome, out = .ok outcome ∧ truthy (outcome.result.field? "success") = true ∧
      outcome.records = records := by
  cases out with
  | error e => cases h
  | ok outcome =>
    simp only [savedRecords] at h
    split_ifs at h with hsuccess
    exact ⟨outcome, rfl, hsuccess, Option.some.inj h⟩

/-- A wholesale save plans to save what it is given. -/
theorem savePlan_eq {before : Tables} {params : Json} {records : RecordMap} {p : Plan}
    (h : savePlan x before params records = some p) : p = ⟨[], some records⟩ := by
  unfold savePlan at h
  split at h
  · cases h
  · exact (Option.some.inj h).symm

/-! ## How far it gets -/

/-- What a command leaves alone, told from the effects of its engine run. -/
structure Surroundings (x : External) (patched : CalendarRow → Json → Json)
    (userId : Option String) (before : Tables) where
  /-- The property that the saves of the records keep. -/
  frame : List Effect → Frame x 0 userId
  start : ∀ deferred, (frame deferred).rest [] before
  projects : ∀ {deferred touched st}, Projects st → KeepsProperty ((frame deferred).rest touched) st
  effects : ∀ {deferred touched effect t},
    effect ∈ deferred ∨ (∀ p id u, effect ≠ .patchCalendar p id u) →
    (frame deferred).rest touched t →
    (frame deferred).rest touched ((backend patched).effect effect t)

section Ends

variable {userId : Option String} {before : Tables} (S : Surroundings x patched userId before)

/-- The first `k` of the records are saved. -/
def Surroundings.SavedUpTo (deferred : List Effect) (records : RecordMap) (k : Nat) (t : Tables) :
    Prop :=
  (S.frame deferred).SavedUpTo before.providers before.tournaments [] records k t

/-- Every planned record is saved. -/
def Surroundings.Done (plan : Option Plan) (t : Tables) : Prop :=
  ∃ p records, plan = some p ∧ p.records = some records ∧
    S.SavedUpTo p.deferred records records.length t

/-- The command has stopped, and why. -/
inductive Surroundings.Unfinished (faulty : Prop) (plan : Option Plan) (t : Tables) : Prop
  /-- Before its engine run. -/
  | refused (why : faulty ∨ plan = none) (same : t = before)
  /-- After it, because the run failed. -/
  | failed (p : Plan) (planned : plan = some p) (why : faulty ∨ p.records = none)
      (at_ : (S.frame p.deferred).At before.providers before.tournaments [] t)
  /-- At a record. -/
  | stopped (p : Plan) (records : RecordMap) (planned : plan = some p)
      (saves : p.records = some records)
      (at_ : (S.frame p.deferred).StoppedAt faulty before.providers before.tournaments [] records t)

/-- A statement was executed and its answer lost. -/
def Surroundings.Partly (plan : Option Plan) (t : Tables) : Prop :=
  ∃ p records k, plan = some p ∧ p.records = some records ∧ k ≤ records.length ∧
    S.SavedUpTo p.deferred records k t

/-- An answer with a truthy `success`. -/
def Succeeds (answer : Option Json) : Prop := truthy (chain answer "success") = true

/-- What a callback comes to under a regime. -/
def CallbackEnds (R : Regime x patched borrowed) (plan : Option Plan) :
    Except Thrown (Option Json) → World Tables Effect → Prop
  | .ok answer => fun w => (Succeeds answer → R.holds (S.Done plan) w) ∧
      (¬ Succeeds answer → R.holds (S.Unfinished False plan) w)
  | .error _ => R.stopped (S.Unfinished R.faulty plan) fun t => R.faulty ∧ S.Partly plan t

/-! ## Answers -/

theorem succeeds_saveAnswer (saved : List (String × Nat) × List (String × String)) :
    Succeeds (some (saveAnswer (.ok saved))) := rfl

theorem not_succeeds_saveAnswer (failure : SaveFailure) :
    ¬ Succeeds (some (saveAnswer (.error failure))) := by
  cases failure <;> exact Bool.false_ne_true

theorem not_succeeds_saveFailureAnswer (failure : SaveFailure) (ids : Json) :
    ¬ Succeeds (some (saveFailureAnswer failure ids)) := by
  cases failure <;> exact Bool.false_ne_true

theorem not_succeeds_conflictAt {fields : List (String × Json)} {ids : List String} {answer : Json}
    (h : conflictAt x before fields ids = some answer) : ¬ Succeeds (some answer) := by
  induction ids with
  | nil => cases h
  | cons tid rest ih =>
    unfold conflictAt at h
    cases hl : fields.lookup tid with
    | none => rw [hl] at h; exact ih h
    | some expected =>
      rw [hl] at h
      dsimp only at h
      split_ifs at h
      · exact ih h
      · cases h
        exact Bool.false_ne_true

/-- The answer of a saved mutation keeps the engine's success. -/
theorem succeeds_mutationAnswer {payload result : Json} {methods : List Json}
    {updated previous : List (String × String)} (h : truthy (result.field? "success") = true) :
    Succeeds (some (mutationAnswer payload result methods (some updated) previous)) := by
  obtain ⟨fields, rfl⟩ := Json.obj_of_truthy_field h
  simp only [Succeeds, mutationAnswer, chain, Option.bind_some]
  split_ifs
  · rw [field_spread_of_ne _ (by simp)]
    change truthy ((spread (some (.obj fields)) [("appliedMethods", _)]).field? "success") = true
    rw [field_spread_obj fields (by simp), h]
  · rw [field_spread_obj fields (by simp), h]

/-- A mutation that was not saved answers what the engine said. -/
theorem not_succeeds_mutationAnswer {payload result : Json} {methods : List Json}
    {previous : List (String × String)} (h : truthy (result.field? "success") = false) :
    ¬ Succeeds (some (mutationAnswer payload result methods none previous)) := by
  simp [Succeeds, mutationAnswer, chain, h]

/-! ## What follows a save -/

variable {S} {deferred : List Effect} {records : RecordMap} {k : Nat}

/-- What has been saved does not depend on the other tables. -/
theorem Surroundings.SavedUpTo.of_eq {t t' : Tables} (h : S.SavedUpTo deferred records k t)
    (htournaments : t'.tournaments = t.tournaments) (hproviders : t'.providers = t.providers)
    (hrest : (S.frame deferred).rest ([] ++ records.take (k + 1)) t') :
    S.SavedUpTo deferred records k t' where
  savable := h.savable
  saved := htournaments ▸ h.saved
  stamped := htournaments ▸ h.stamped
  providers := hproviders.trans h.providers
  rest := hrest

theorem savedUpTo_projects {st : Statement} (hst : Projects st) :
    KeepsProperty (S.SavedUpTo deferred records k) st := by
  intro t h
  have hne : ∀ id, ¬ st.Changes id := by
    intro id
    cases hst <;> exact not_false
  exact h.of_eq (exec_keeps_tournaments hne t) (exec_providers st t) (S.projects hst t h.rest)

/-- Effects change no provider. -/
theorem effect_providers (effect : Effect) (t : Tables) :
    ((backend patched).effect effect t).providers = t.providers := by
  cases effect with
  | patchCalendar providerId tournamentId updates =>
    simp only [backend, patchCalendar]
    cases t.calendarTournaments tournamentId <;> rfl
  | _ => rfl

theorem savedUpTo_effect {effect : Effect}
    (he : effect ∈ deferred ∨ ∀ p id u, effect ≠ .patchCalendar p id u) {t : Tables}
    (h : S.SavedUpTo deferred records k t) :
    S.SavedUpTo deferred records k ((backend patched).effect effect t) :=
  h.of_eq (effect_tournaments patched effect t) (effect_providers effect t) (S.effects he h.rest)

theorem at_effect {effect : Effect} {touched : RecordMap}
    (he : effect ∈ deferred ∨ ∀ p id u, effect ≠ .patchCalendar p id u) {t : Tables}
    (h : (S.frame deferred).At before.providers before.tournaments touched t) :
    (S.frame deferred).At before.providers before.tournaments touched
      ((backend patched).effect effect t) :=
  ⟨(effect_tournaments patched effect t).trans h.tournaments,
    (effect_providers effect t).trans h.providers, S.effects he h.rest⟩

/-- Before the first save nothing has changed. -/
theorem Surroundings.at_start (deferred : List Effect) :
    (S.frame deferred).At before.providers before.tournaments [] before :=
  ⟨rfl, rfl, S.start deferred⟩

variable (R : Regime x patched borrowed)

/-- The plan is known and its engine run is over. -/
def Surroundings.Run (S : Surroundings x patched userId before) (plan : Option Plan) (p : Plan)
    (t : Tables) : Prop :=
  plan = some p ∧ (S.frame p.deferred).At before.providers before.tournaments [] t

/-- What the loop over the records of a plan comes to. -/
def SavesEnd (S : Surroundings x patched userId before) (R : Regime x patched borrowed)
    (plan : Option Plan) (p : Plan) (records : RecordMap) :
    Except Thrown SaveResults → World Tables Effect → Prop
  | .ok (.ok _) => R.holds fun t => plan = some p ∧
      S.SavedUpTo p.deferred records records.length t
  | .ok (.error _) => R.holds (S.Unfinished False plan)
  | .error _ => R.stopped (S.Unfinished R.faulty plan) fun t => R.faulty ∧ S.Partly plan t

/-- The loop over the records of a plan. -/
theorem ensures_saves {plan : Option Plan} {p : Plan} (hrecords : p.records = some records) :
    Ensures (handle (backend patched)) (R.holds (S.Run plan p))
      (saveTournamentRecords x borrowed 0 userId records) (SavesEnd S R plan p records) := by
  have hloop : Ensures (handle (backend patched))
      (R.holds (((S.frame p.deferred).given (plan = some p)).At before.providers
        before.tournaments []))
      (saveTournamentRecords x borrowed 0 userId records)
      (LoopEnds R ((S.frame p.deferred).given (plan = some p)) before.providers
        before.tournaments [] records) :=
    R.ensures_saveLoop records [] []
  refine hloop.mono (fun w hw => R.mono (fun t ht => ht.2.given ht.1) hw) fun out w hw => ?_
  have hsaved : ∀ {k t}, ((S.frame p.deferred).given (plan = some p)).SavedUpTo before.providers
      before.tournaments [] records k t → plan = some p ∧ S.SavedUpTo p.deferred records k t :=
    fun h => ⟨h.rest.1, ⟨h.savable, h.saved, h.stamped, h.providers, h.rest.2⟩⟩
  have hstopped : ∀ {faulty t}, ((S.frame p.deferred).given (plan = some p)).StoppedAt faulty
      before.providers before.tournaments [] records t → S.Unfinished faulty plan t := by
    rintro faulty t ⟨k, r, hr, hwhy, hs⟩
    obtain ⟨hplan, hs⟩ := hsaved hs
    exact .stopped p records hplan hrecords ⟨k, r, hr, hwhy, hs⟩
  cases out with
  | error e =>
    refine R.stopped_mono (fun t ht => hstopped ht) (fun t ht => Or.inr ?_) hw
    obtain ⟨hfaulty, k, hk, hs⟩ := ht
    obtain ⟨hplan, hs⟩ := hsaved hs
    exact ⟨hfaulty, p, records, k, hplan, hrecords, hk, hs⟩
  | ok result =>
    cases result with
    | error failure => exact R.mono (fun t ht => hstopped ht) hw
    | ok saved => exact R.mono (fun t ht => hsaved ht) hw

/-! ## The two commands -/

variable {plan : Option Plan} {p : Plan}

/-- A failure before anything was done. -/
theorem callbackEnds_refused {e : Thrown} {w : World Tables Effect}
    (h : R.holds (fun t => (R.faulty ∨ plan = none) ∧ t = before) w) :
    CallbackEnds S R plan (.error e) w :=
  R.stopped_of_holds _ (R.mono (fun _ ht => .refused ht.1 ht.2) h)

/-- An answer that is no success. -/
theorem callbackEnds_answer {answer : Option Json} {w : World Tables Effect}
    (hanswer : ¬ Succeeds answer) (h : R.holds (S.Unfinished False plan) w) :
    CallbackEnds S R plan (.ok answer) w :=
  ⟨fun hs => (hanswer hs).elim, fun _ => h⟩

/-- An answered success. -/
theorem callbackEnds_success {answer : Option Json} {w : World Tables Effect}
    (hanswer : Succeeds answer) (hrecords : p.records = some records)
    (h : R.holds (fun t => plan = some p ∧ S.SavedUpTo p.deferred records records.length t) w) :
    CallbackEnds S R plan (.ok answer) w :=
  ⟨fun _ => R.mono (fun _ ht => ⟨p, records, ht.1, hrecords, ht.2⟩) h,
    fun hs => (hs hanswer).elim⟩

/-- The effects of an engine run leave its plan where it is. -/
theorem soft_deferred :
    Soft patched (R.holds (S.Run plan p)) (Prog.forEach p.deferred (defer borrowed)) :=
  Soft.forEach fun effect hmem => R.soft_defer effect fun _ ht => ⟨ht.1, at_effect (Or.inl hmem) ht.2⟩

/-- The check reads the expected times of the payload, if there are any. -/
theorem yields_expectedCheck (params : Json) (records : RecordMap) :
    Yields R before
      (match expectedFields (params.field? "expectedServerUpdatedAt") with
      | none => .ret none
      | some fields => unexpectedServerUpdatedAt x borrowed fields (records.map Prod.fst) :
        Store (Option Json)) (some (conflictOf x before params records)) := by
  unfold conflictOf
  cases expectedFields (params.field? "expectedServerUpdatedAt") with
  | none => exact yields_ret none
  | some fields => exact yields_unexpectedServerUpdatedAt fields _

theorem ensures_replaceRecords (services : Services) (params : Json) (records : RecordMap) :
    Ensures (handle (backend patched)) (R.holds (· = before))
      (replaceRecords x services borrowed params userId records)
      (CallbackEnds S R (savePlan x before params records)) := by
  generalize hplan : savePlan x before params records = plan
  refine Prog.ensures_bind (yields_expectedCheck R params records (· = before) fun _ h => h)
    (fun conflict => ?_)
    fun e w hw => callbackEnds_refused R (R.mono (fun t ht => ⟨?_, ht.2⟩) hw)
  · cases conflict with
    | some answer =>
      refine Prog.ensures_ret fun w hw => ?_
      have hnone : R.holds (fun t => (False ∨ plan = none) ∧ t = before) w := by
        refine R.mono (fun t ht => ⟨Or.inr ?_, ht.2⟩) hw
        rw [← hplan, savePlan, Option.some.inj ht.1]
      refine ⟨fun hs => R.mono (fun t ht => ?_) hw, fun _ =>
        R.mono (fun t ht => .refused ht.1 ht.2) hnone⟩
      obtain ⟨fields, -, hat⟩ := Option.bind_eq_some_iff.mp (Option.some.inj ht.1)
      exact (not_succeeds_conflictAt hat hs).elim
    | none =>
      have hstart : ∀ w, R.holds (fun t => some (conflictOf x before params records) = some none ∧
          t = before) w → R.holds (S.Run plan ⟨[], some records⟩) w := by
        refine fun w hw => R.mono (fun t ht => ⟨?_, ?_⟩) hw
        · rw [← hplan, savePlan, Option.some.inj ht.1]
        · rw [ht.2]
          exact S.at_start []
      have hsaves : Ensures (handle (backend patched))
          (R.holds (S.Run plan ⟨[], some records⟩))
          (saveTournamentRecords x borrowed 0 userId records)
          (SavesEnd S R plan ⟨[], some records⟩ records) := ensures_saves R rfl
      refine Prog.ensures_bind (hsaves.mono hstart fun _ _ h => h) (fun saved => ?_)
        fun e w hw => hw
      cases saved with
      | error failure =>
        exact Prog.ensures_ret fun w hw =>
          callbackEnds_answer R (not_succeeds_saveAnswer failure) hw
      | ok summary =>
        have hflush : Soft patched (R.holds fun t => plan = some ⟨[], some records⟩ ∧
            S.SavedUpTo [] records records.length t)
            (enqueueSnapshots x services borrowed records "factory-save") :=
          R.soft_enqueueSnapshots (fun st hst t ht => ⟨ht.1, savedUpTo_projects hst t ht.2⟩)
            services records _
        refine Prog.ensures_bind hflush (fun _ => Prog.ensures_ret fun w hw => ?_)
          fun e w hw => (by cases hw.1)
        exact callbackEnds_success R (succeeds_saveAnswer summary) rfl hw.2
  · exact ht.1.imp_right fun h => by cases h

end Ends

section Mutation

variable {before : Tables} {S : Surroundings x patched none before} {plan : Option Plan} {p : Plan}
  (R : Regime x patched borrowed)

/-- What follows the engine run. -/
theorem ensures_saveMutated (services : Services) (payload ids : Json) (methods : List Json)
    (previous : List (String × String)) {outcome : EngineOutcome}
    (hp : p.records = savedRecords (.ok outcome)) :
    Ensures (handle (backend patched)) (R.holds (S.Run plan p))
      (saveMutated x services borrowed outcome methods ids fun serverUpdatedAt =>
        (defer borrowed (.evictAndAudit (mutationStatus outcome.result))).bind fun _ =>
        .ret (some (mutationAnswer payload outcome.result methods serverUpdatedAt previous)))
      (CallbackEnds S R plan) := by
  have hlocal : ∀ effect : Effect, (∀ p id u, effect ≠ .patchCalendar p id u) →
      effect ∈ p.deferred ∨ ∀ p id u, effect ≠ .patchCalendar p id u := fun _ h => Or.inr h
  unfold saveMutated
  by_cases hsuccess : truthy (outcome.result.field? "success") = true
  · have hrecords : p.records = some outcome.records := by
      rw [hp, savedRecords, if_pos hsuccess]
    rw [if_pos hsuccess]
    refine Prog.ensures_bind (ensures_saves R hrecords) (fun saved => ?_) fun e w hw => hw
    cases saved with
    | error failure =>
      exact Prog.ensures_ret fun w hw =>
        callbackEnds_answer R (not_succeeds_saveFailureAnswer failure ids) hw
    | ok summary =>
      let I : Tables → Prop := fun t => plan = some p ∧
        S.SavedUpTo p.deferred outcome.records outcome.records.length t
      have hdefer : ∀ effect : Effect, (∀ p id u, effect ≠ .patchCalendar p id u) →
          Soft patched (R.holds I) (defer borrowed effect) := fun effect h =>
        R.soft_defer effect fun t ht => ⟨ht.1, savedUpTo_effect (hlocal effect h) ht.2⟩
      have hflush : Soft patched (R.holds I)
          (flushProjection x services borrowed outcome methods ids) :=
        R.soft_flushProjection (fun st hst t ht => ⟨ht.1, savedUpTo_projects hst t ht.2⟩)
          services outcome methods ids
      refine Prog.ensures_bind (hdefer .snapshotDraws (by simp)) (fun _ => ?_)
        fun e w hw => (by cases hw.1)
      refine Prog.ensures_bind (hflush.mono (fun w hw => hw.2) fun _ _ h => h) (fun _ => ?_)
        fun e w hw => (by cases hw.1)
      refine Prog.ensures_bind
        ((hdefer (.evictAndAudit (mutationStatus outcome.result)) (by simp)).mono
          (fun w hw => hw.2) fun _ _ h => h)
        (fun _ => Prog.ensures_ret fun w hw => ?_) fun e w hw => (by cases hw.1)
      exact callbackEnds_success R (succeeds_mutationAnswer hsuccess) hrecords hw.2
  · have hrecords : p.records = none := by
      rw [hp, savedRecords, if_neg hsuccess]
    have haudit : Soft patched (R.holds (S.Run plan p))
        (defer borrowed (.evictAndAudit (mutationStatus outcome.result))) :=
      R.soft_defer _ fun t ht => ⟨ht.1, at_effect (Or.inr (by simp)) ht.2⟩
    rw [if_neg hsuccess]
    refine Prog.ensures_bind haudit (fun _ => Prog.ensures_ret fun w hw => ?_)
      fun e w hw => (by cases hw.1)
    refine callbackEnds_answer R (not_succeeds_mutationAnswer (by simpa using hsuccess)) ?_
    exact R.mono (fun t ht => .failed p ht.1 (Or.inr hrecords) ht.2) hw.2

/-- The callback from the fetched rows on. -/
theorem ensures_mutateRows (services : Services) (engine : Engine) (payload ids : Json)
    (methods : List Json) (rows : List (String × TournamentRow)) :
    Ensures (handle (backend patched))
      (R.holds fun t => plan = rowsPlan engine payload methods rows ∧ t = before)
      (mutateRows x services engine borrowed payload ids methods rows) (CallbackEnds S R plan) := by
  unfold mutateRows rowsPlan
  cases hresolve : resolveMatchUpReferences engine (loadedRecords rows) methods with
  | error e =>
    exact Prog.ensures_fail fun w hw =>
      callbackEnds_refused R (R.mono (fun t ht => ⟨Or.inr ht.1, ht.2⟩) hw)
  | ok methods =>
    simp only [Prog.settled_ok, Prog.ret_bind, Except.toOption, Option.bind_some]
    by_cases hvalid : recordsAreValid rows = true
    · simp only [hvalid, Bool.not_true, Bool.false_eq_true, if_false]
      generalize engine.executionQueue (loadedRecords rows) methods
        (payload.field? "rollbackOnError") = run
      let p : Plan := ⟨run.deferred, savedRecords run.outcome⟩
      have hrun : Soft patched (R.holds (S.Run plan p)) (Prog.forEach run.deferred (defer borrowed)) :=
        soft_deferred R (p := p)
      refine Prog.ensures_bind (hrun.mono (fun w hw => R.mono (fun t ht => ⟨ht.1, ?_⟩) hw)
        fun _ _ h => h) (fun _ => ?_) fun e w hw => (by cases hw.1)
      · rw [ht.2]
        exact S.at_start run.deferred
      cases hout : run.outcome with
      | error e =>
        refine Prog.ensures_fail fun w hw => R.stopped_of_holds _ (R.mono (fun t ht => ?_) hw.2)
        exact .failed p ht.1 (Or.inr (by simp only [p, hout, savedRecords])) ht.2
      | ok outcome =>
        refine (ensures_saveMutated R services payload ids methods _ (p := p)
          (by simp only [p, hout])).mono (fun w hw => hw.2) fun _ _ h => h
    · simp only [hvalid, Bool.not_false, if_true]
      refine Prog.ensures_ret fun w hw => callbackEnds_answer R Bool.false_ne_true ?_
      exact R.mono (fun t ht => .refused (Or.inr (by simpa [hvalid] using ht.1)) ht.2) hw

theorem ensures_mutate (services : Services) (engine : Engine) (payload ids : Json)
    (methods : List Json) :
    Ensures (handle (backend patched)) (R.holds (· = before))
      (mutate x services engine borrowed payload ids methods)
      (CallbackEnds S R (mutationPlan x engine before payload ids methods)) := by
  have hindex : Yields R before _ _ := yields_resolveMatchUpReferencesFromIndex ids methods
  refine Prog.ensures_bind (hindex (· = before) fun _ h => h) (fun indexed => ?_) fun e w hw => ?_
  · have hfetch := (yields_fetchTournamentRecords ids : Yields R before _ _)
      (fun t => indexedMethods x before ids methods = some indexed ∧ t = before) fun _ h => h.2
    refine Prog.ensures_bind hfetch (fun fetched => ?_) fun e w hw => ?_
    · cases fetched with
      | none =>
        refine Prog.ensures_ret fun w hw => callbackEnds_answer R Bool.false_ne_true ?_
        refine R.mono (fun t ht => .refused (Or.inr ?_) ht.2.2) hw
        have hnone : storedRows x before ids = none := by
          have hsome := ht.1
          split_ifs at hsome
          exact Option.some.inj hsome
        exact mutationPlan_of_storedRows hnone
      | some rows =>
        refine (ensures_mutateRows R services engine payload ids indexed rows).mono
          (fun w hw => R.mono (fun t ht => ⟨?_, ht.2.2⟩) hw) fun _ _ h => h
        have hrows : storedRows x before ids = some rows := by
          have hsome := ht.1
          split_ifs at hsome
          exact Option.some.inj hsome
        simp only [mutationPlan, ht.2.1, hrows, Option.bind_some]
    · refine callbackEnds_refused R (R.mono (fun t ht => ⟨ht.1.imp_right fun hnone => ?_, ht.2.2⟩) hw)
      exact mutationPlan_of_storedRows (storedRows_of_unbound hnone)
  · refine callbackEnds_refused R (R.mono (fun t ht => ⟨ht.1.imp_right fun hnone => ?_, ht.2⟩) hw)
    simp only [mutationPlan, hnone, Option.bind_none]

end Mutation

/-- What a callback comes to, under every regime. -/
theorem ensures_apply {before : Tables} (services : Services) (engine : Engine)
    (command : Command) (S : Surroundings x patched command.userId before)
    (R : Regime x patched borrowed) :
    Ensures (handle (backend patched)) (R.holds (· = before))
      (command.apply x services engine borrowed)
      (CallbackEnds S R (planOf x engine before command)) := by
  cases command with
  | mutation payload ids methods => exact ensures_mutate R services engine payload ids methods
  | wholesaleSave params userId records => exact ensures_replaceRecords R services params records

/-! ## The admitted call -/

/-- The work of an admitted call is its mutation. -/
theorem work_of_admission {services : Services} {engine : Engine} {payload ids : Json} {work : Locked}
    (h : admission x services engine payload = .locked ids work) :
    ∃ methods, ids = queueTournamentIds payload ∧
      methodList (payload.field? "methods") = some methods ∧ work.body = fun borrowed =>
        mutate x services engine borrowed payload (queueTournamentIds payload) methods := by
  unfold admission at h
  dsimp only at h
  split_ifs at h
  cases hmethods : methodList (payload.field? "methods") with
  | none =>
    rw [hmethods] at h
    cases h
  | some methods =>
    rw [hmethods] at h
    dsimp only at h
    split_ifs at h
    cases hids : (queueTournamentIds payload).iterate? with
    | none =>
      rw [hids] at h
      cases h
    | some items =>
      rw [hids] at h
      cases h
      exact ⟨methods, rfl, rfl, rfl⟩

/-! ## The clock -/

/-- The clock does not go back. -/
theorem now_le_exec (st : Statement) (t : Tables) : t.now ≤ (exec st t).1.now := by
  cases st with
  | upsertTournament id record ownerEpoch =>
    simp only [exec, upsertTournament]
    cases t.tournaments id with
    | none => exact Nat.le_succ _
    | some row =>
      dsimp only
      split_ifs
      · exact Nat.le_succ _
      · exact Nat.le_refl _
  | claimFingerprint id fingerprint =>
    simp only [exec]
    split_ifs <;> exact Nat.le_refl _
  | _ => exact Nat.le_refl _

theorem effect_now (effect : Effect) (t : Tables) :
    ((backend patched).effect effect t).now = t.now := by
  cases effect with
  | patchCalendar providerId tournamentId updates =>
    simp only [backend, patchCalendar]
    cases t.calendarTournaments tournamentId <;> rfl
  | _ => rfl

/-- A command stamps what it saves with its own time. -/
def clockKept (x : External) (patched : CalendarRow → Json → Json) (userId : Option String)
    (before : Tables) : Surroundings x patched userId before where
  frame _ := {
    rest := fun _ t => before.now ≤ t.now
    stamps := (before.now ≤ ·)
    now := id
    more := id
    keeps := fun _ t ht => Nat.le_trans ht (now_le_exec _ t) }
  start _ := Nat.le_refl _
  projects _ t ht := Nat.le_trans ht (now_le_exec _ t)
  effects _ ht := Nat.le_trans ht (Nat.le_of_eq (effect_now _ _).symm)

end FactoryServer.CallbackOutcomes
