import FactoryServer.DurableSave
import FactoryServer.PooledConnection
import FactoryServer.PooledSave

/-!
# Mutations and saves that answer an error

What is left of a mutation or a wholesale save that fails. A durable one
leaves nothing. Without a command the storage saves one record after the
other, so a failure leaves the records before it saved: a prefix of the map.
Nothing that belongs to a record after the failing one is touched.
-/

namespace FactoryServer.SaveFailures

open JsonValue AsyncProgram TournamentAccess CommandTransaction CommandReceipts CommandSession
  CommandAtomicity StorageTables TournamentStorage ExecutionQueue StorageFrames StorageRegime
  CallbackOutcomes DurableSave PooledStatements PooledConnection PooledSave
open AsyncProgram.Prog (Ensures Keeps)

variable {x : External} {patched : CalendarRow → Json → Json} {loss : Prop}

/-! ## The calls -/

/-- A mutation or a wholesale save. -/
inductive Call where
  /-- `executionQueue`. -/
  | executionQueue (payload : Json)
  /-- `saveTournamentRecords` of the factory service, once it holds its locks. -/
  | saveTournamentRecords (params : Json) (userId : Option String) (records : RecordMap)

/-- The payload that may carry a command id. -/
def Call.payload : Call → Json
  | .executionQueue payload => payload
  | .saveTournamentRecords params _ _ => params

/-- The user whose id is stamped on first saves. -/
def Call.userId : Call → Option String
  | .executionQueue _ => none
  | .saveTournamentRecords _ userId _ => userId

/-- The call from its first check to its answer. -/
def Call.program (x : External) (services : Services) (engine : Engine)
    (storedJson : Json → Json) : Call → Store (Option Json)
  | .executionQueue payload =>
    (ExecutionQueue.executionQueue x services engine storedJson payload).bind
      fun answer => .ret (some answer)
  | .saveTournamentRecords params userId records =>
    runDurableCommand storedJson params services.commandReceipts fun borrowed =>
      replaceRecords x services borrowed params userId records

/-- The call throws, or its answer is no success. -/
def Failed : Except Thrown (Option Json) → Prop
  | .ok answer => truthy (chain answer "success") = false
  | .error _ => True

instance (out : Except Thrown (Option Json)) : Decidable (Failed out) :=
  match out with
  | .ok _ => inferInstanceAs (Decidable (_ = _))
  | .error _ => isTrue trivial

/-- The records the call sets out to save, and the effects its engine run starts
before: the engine runs on the stored rows or not at all, and its records are
saved when it succeeds. -/
def Call.Attempts (x : External) (engine : Engine) (before : Tables) :
    Call → RecordMap → List Effect → Prop
  | .executionQueue payload, records, deferred => (records = [] ∧ deferred = []) ∨
    ∃ ids methods, x.pg.textArray (queueTournamentIds payload) = some ids ∧
      let run := engine.executionQueue
        (loadedRecords (exec (.selectTournaments ids) before).2) methods
        (payload.field? "rollbackOnError")
      deferred = run.deferred ∧ (records = [] ∨ ∃ outcome, run.outcome = .ok outcome ∧
        truthy (outcome.result.field? "success") = true ∧ records = outcome.records)
  | .saveTournamentRecords _ _ given, records, deferred => records = given ∧ deferred = []

/-- The calendar rows that the effects rewrite. -/
def PatchedBy (deferred : List Effect) (id : String) : Prop :=
  ∃ providerId updates, Effect.patchCalendar providerId id updates ∈ deferred

/-- What a call leaves: the rows of the first `k` of its records, and nothing
that belongs to a record behind the next one. All are saved only if `full`. -/
def Left (x : External) (engine : Engine) (call : Call) (before : Tables) (full : Prop)
    (t : Tables) : Prop :=
  ∃ records deferred k, call.Attempts x engine before records deferred ∧ k ≤ records.length ∧
    (k = records.length → records = [] ∨ full) ∧
    SavedRows x 0 call.userId before.tournaments (records.take k) t.tournaments ∧
    OthersKept x call.userId (PatchedBy deferred) before (records.take (k + 1)) t

variable {engine : Engine} {call : Call} {full : Prop} {before : Tables}

theorem Left.mono {full' : Prop} {t : Tables} (h : Left x engine call before full t)
    (hf : full → full') : Left x engine call before full' t := by
  obtain ⟨records, deferred, k, ha, hk, hl, hs, ho⟩ := h
  exact ⟨records, deferred, k, ha, hk, fun he => (hl he).imp_right hf, hs, ho⟩

theorem left_refl {records : RecordMap} {deferred : List Effect}
    (ha : call.Attempts x engine before records deferred) :
    Left x engine call before full before :=
  ⟨records, deferred, 0, ha, Nat.zero_le _, fun he => Or.inl (List.length_eq_zero_iff.mp he.symm),
    savedRows_nil _ _ _, othersKept_refl before⟩

/-- An effect of the engine run rewrites no calendar row but those the run names. -/
theorem othersKept_effect {userId : Option String} {deferred : List Effect} {effect : Effect}
    {touched : RecordMap} {t : Tables}
    (he : effect ∈ deferred ∨ ∀ p id u, effect ≠ .patchCalendar p id u)
    (h : OthersKept x userId (PatchedBy deferred) before touched t) :
    OthersKept x userId (PatchedBy deferred) before touched
      ((backend patched).effect effect t) := by
  cases effect with
  | patchCalendar providerId tournamentId updates =>
    have hmem := he.resolve_right fun hne => hne _ _ _ rfl
    simp only [backend, patchCalendar]
    cases t.calendarTournaments tournamentId with
    | none => exact h
    | some row =>
      refine ⟨fun id hne hall => ?_, h.participation⟩
      have hid : id ≠ tournamentId := fun heq => hne ⟨providerId, updates, heq ▸ hmem⟩
      simp only [Function.update_of_ne hid]
      exact h.calendar id hne hall
  | _ => exact h

/-- A command leaves the rows of other tournaments alone. -/
def othersKept (x : External) (patched : CalendarRow → Json → Json) (userId : Option String)
    (before : Tables) : Surroundings x patched userId before where
  frame deferred := {
    rest := fun touched t => OthersKept x userId (PatchedBy deferred) before touched t
    stamps := fun _ => True
    now := fun _ => trivial
    more := fun ht => ht.mono fun _ hr => List.mem_append_left _ hr
    keeps := othersKept_saves }
  start _ := othersKept_refl before
  projects hst _ ht := othersKept_projects hst _ ht
  effects he ht := othersKept_effect he ht

/-! ## What the callback leaves -/

/-- The command whose callback a call runs. -/
inductive Call.Runs : Call → Command → Prop
  | mutation (payload : Json) (methods : List Json) :
    Call.Runs (.executionQueue payload)
      (.mutation payload (queueTournamentIds payload) methods)
  | save (params : Json) (userId : Option String) (records : RecordMap) :
    Call.Runs (.saveTournamentRecords params userId records)
      (.wholesaleSave params userId records)

theorem Call.Runs.userId {command : Command} (h : call.Runs command) :
    command.userId = call.userId := by
  cases h <;> rfl

/-- A call attempts what its command plans. -/
theorem Call.Runs.attempts {command : Command} (h : call.Runs command) {p : Plan}
    (hplan : planOf x engine before command = some p) :
    (p.records = none → call.Attempts x engine before [] p.deferred) ∧
      ∀ records, p.records = some records →
        call.Attempts x engine before records p.deferred := by
  cases h with
  | save params userId given =>
    rw [savePlan_eq hplan]
    constructor
    · intro hnone
      cases hnone
    · exact fun records hrecords => ⟨(Option.some.inj hrecords).symm, rfl⟩
  | mutation payload methods =>
    obtain ⟨texts, resolved, htexts, rfl⟩ := run_of_mutationPlan hplan
    refine ⟨fun _ => Or.inr ⟨texts, resolved, htexts, rfl, Or.inl rfl⟩, fun records hrecords => ?_⟩
    obtain ⟨outcome, hout, hsuccess, houtcome⟩ := outcome_of_savedRecords hrecords
    exact Or.inr ⟨texts, resolved, htexts, rfl, Or.inr ⟨outcome, hout, hsuccess, houtcome.symm⟩⟩

/-- A call may attempt nothing. -/
theorem Call.Runs.attempts_nothing {command : Command} (h : call.Runs command) :
    ∃ records, call.Attempts x engine before records [] := by
  cases h with
  | save params userId given => exact ⟨given, rfl, rfl⟩
  | mutation payload methods => exact ⟨[], Or.inl ⟨rfl, rfl⟩⟩

/-- The first records of a plan, saved in tables that keep the others. -/
theorem Call.Runs.left_of_savedUpTo {command : Command} (h : call.Runs command) {p : Plan}
    {records : RecordMap} {k : Nat} {t : Tables}
    (hplan : planOf x engine before command = some p) (hrecords : p.records = some records)
    (hk : k ≤ records.length) (hfull : k = records.length → full)
    (hsaved : (othersKept x patched command.userId before).SavedUpTo p.deferred records k t) :
    Left x engine call before full t := by
  refine ⟨records, p.deferred, k, (h.attempts hplan).2 records hrecords, hk,
    fun he => Or.inr (hfull he), ?_, ?_⟩
  · exact h.userId ▸ hsaved.saved
  · exact h.userId ▸ hsaved.rest

/-- An unfinished command leaves a prefix of its records. -/
theorem Call.Runs.left_of_unfinished {command : Command} (h : call.Runs command)
    {faulty : Prop} {t : Tables} (hu : (othersKept x patched command.userId before).Unfinished
      faulty (planOf x engine before command) t) : Left x engine call before full t := by
  cases hu with
  | refused why same =>
    obtain ⟨records, ha⟩ : ∃ records, call.Attempts x engine before records [] :=
      h.attempts_nothing
    rw [same]
    exact left_refl ha
  | failed p hplan why hat =>
    cases hrecords : p.records with
    | none =>
      refine ⟨[], p.deferred, 0, (h.attempts hplan).1 hrecords, Nat.le_refl _,
        fun _ => Or.inl rfl, ?_, h.userId ▸ hat.rest⟩
      rw [hat.tournaments]
      exact savedRows_nil _ _ _
    | some records =>
      refine ⟨records, p.deferred, 0, (h.attempts hplan).2 records hrecords, Nat.zero_le _,
        fun he => Or.inl (List.length_eq_zero_iff.mp he.symm), ?_, ?_⟩
      · rw [hat.tournaments]
        exact savedRows_nil _ _ _
      · have hrest : OthersKept x command.userId (PatchedBy p.deferred) before [] t := hat.rest
        exact h.userId ▸ hrest.mono fun r hr => by cases hr
  | stopped p records hplan hrecords hat =>
    obtain ⟨k, r, hr, -, hsaved⟩ := hat
    have hk : k < records.length := (List.getElem?_eq_some_iff.mp hr).1
    exact h.left_of_savedUpTo hplan hrecords (by omega) (fun he => by omega) hsaved

/-- What the callback of a call leaves when no command lends it a connection. -/
def LeavesPrefix (x : External) (engine : Engine) (call : Call) (before : Tables) (loss : Prop)
    (out : Except Thrown (Option Json)) : World Tables Effect → Prop :=
  Idle loss (Left x engine call before (loss ∨ ¬ Failed out))

theorem Call.Runs.leavesPrefix {command : Command} (h : call.Runs command) (services : Services) :
    Ensures (handle (backend patched)) (Idle loss (· = before))
      (command.apply x services engine false) (LeavesPrefix x engine call before loss) := by
  have hends := ensures_apply services engine command (othersKept x patched command.userId before)
    (pooledRegime x patched True loss)
  refine hends.mono (fun w hw => ⟨hw, fun _ _ _ => trivial⟩) fun out w hw => ?_
  cases out with
  | error e =>
    refine hw.1.mono fun t ht => ?_
    rcases ht with ht | ⟨hl, -, p, records, k, hplan, hrecords, hk, hsaved⟩
    · exact h.left_of_unfinished ht
    · exact h.left_of_savedUpTo hplan hrecords hk (fun _ => Or.inl hl) hsaved
  | ok answer =>
    by_cases hs : Succeeds answer
    · refine (hw.1 hs).1.mono fun t ht => ?_
      obtain ⟨p, records, hplan, hrecords, hsaved⟩ := ht
      have hfull : ¬ Failed (.ok answer) := by
        simpa [Failed, Succeeds] using hs
      exact h.left_of_savedUpTo hplan hrecords (Nat.le_refl _) (fun _ => Or.inr hfull) hsaved
    · exact (hw.2 hs).1.mono fun t ht => h.left_of_unfinished ht

/-! ## From the callback to the answer -/

/-- The cache warming that follows a mutation throws. -/
def Call.WarmFails (services : Services) : Call → Prop
  | .executionQueue payload =>
    truthy (payload.field? "warmCache") = true ∧ services.warmEventDataCache.isOk = false
  | .saveTournamentRecords _ _ _ => False

/-- A callback of `runDurableCommand` in a call: inside a command it stays on the
command's connection, without one it leaves a prefix. -/
structure Callback (x : External) (engine : Engine) (call : Call)
    (body : Bool → Store (Option Json)) : Prop where
  inCommand : (body true).Uses InCommand
  leaves : ∀ (patched : CalendarRow → Json → Json) (before : Tables) (loss : Prop),
    Ensures (handle (backend patched)) (Idle loss (· = before)) (body false)
      (LeavesPrefix x engine call before loss)

theorem callback_of_runs {engine : Engine} {call : Call} {command : Command}
    (h : call.Runs command) (services : Services) :
    Callback x engine call fun borrowed => command.apply x services engine borrowed where
  inCommand := inCommand services engine command
  leaves _ _ _ := h.leavesPrefix services

/-- What `executionQueue` hands to the lock is the mutation of its ids. -/
theorem callback_of_admission {services : Services} {engine : Engine} {payload ids : Json}
    {work : Locked} (h : admission x services engine payload = .locked ids work) :
    Callback x engine (.executionQueue payload) work.body := by
  obtain ⟨methods, -, -, hbody⟩ := work_of_admission h
  rw [hbody]
  exact callback_of_runs (.mutation payload methods) services

/-- What holds of a world holds of every world with the same tables and commit. -/
def OfTables (I : World Tables Effect → Prop) : Prop :=
  ∀ w w', w'.tables = w.tables → w'.commitLost = w.commitLost → I w → I w'

/-- An audit row changes no table. -/
theorem soft_auditException {I : World Tables Effect → Prop} (hI : OfTables I) :
    Soft patched I (failSoft (perform (.runEffect .auditException))) := by
  have hkeeps : Keeps (handle (backend patched)) I
      (perform (.runEffect .auditException) : Store Unit) := by
    refine Prog.keeps_perform fun w hw => hI w _ ?_ ?_ hw
    · unfold handle
      cases w.faults.headD .none <;> rfl
    · unfold handle
      cases w.faults.headD .none <;> rfl
  exact Prog.ensures_tryCatch hkeeps (fun _ _ hw => ⟨rfl, hw⟩) fun _ =>
    Prog.ensures_ret fun _ hw => ⟨rfl, hw⟩

/-- The `catch` block records the failure. -/
theorem keeps_queueCatch (payload ids : Json) (e : Thrown) {I : World Tables Effect → Prop}
    (hI : OfTables I) : Keeps (handle (backend patched)) I (queueCatch payload ids e) := by
  unfold queueCatch
  cases ids with
  | arr items =>
    refine Prog.ensures_bind (soft_auditException hI) (fun _ => ?_) fun e w hw => hw.2
    refine Prog.Ensures.mono (P := I) ?_ (fun w hw => hw.2) fun _ _ h => h
    change Keeps (handle (backend patched)) I _
    split_ifs
    · cases e with
      | http status message => exact Prog.keeps_fail _
      | error message => exact Prog.keeps_fail _
    · exact Prog.keeps_ret _
  | _ => exact Prog.keeps_fail _

/-- An answer that fails after it was copied had failed before. -/
theorem failed_of_spread {result : Option Json} (h : Failed (.ok (some (spread result [])))) :
    Failed (.ok result) := by
  cases result with
  | none => rfl
  | some value =>
    cases value with
    | obj fields =>
      simp only [Failed, chain, Option.bind_some] at h ⊢
      rwa [field_spread_obj fields (by simp)] at h
    | _ => rfl

/-- The end of `executionQueue` changes nothing, and fails on its own only when
the cache warming does. -/
theorem ensures_answer (services : Services) (payload ids : Json) {p : Store (Option Json)}
    {I : World Tables Effect → Prop} {R : Except Thrown (Option Json) → World Tables Effect → Prop}
    (hR : ∀ out, OfTables (R out)) (hp : Ensures (handle (backend patched)) I p R) :
    Ensures (handle (backend patched)) I
      ((((p.bind fun result =>
        (if truthy (payload.field? "warmCache") then Prog.settled services.warmEventDataCache
          else .ret ()).bind fun _ => .ret (spread result [])).tryCatch
        (queueCatch payload ids)).bind fun answer => .ret (some answer)))
      fun out w => ∃ out', R out' w ∧ (Failed out → Failed out' ∨
        (Call.executionQueue payload).WarmFails services) := by
  let W : Prop := (Call.executionQueue payload).WarmFails services
  let A : Except Thrown Json → World Tables Effect → Prop := fun out w =>
    ∃ out', R out' w ∧ (Failed (out.map some) → Failed out' ∨ W)
  have hwarm : ∀ result, Ensures (handle (backend patched)) (R (.ok result))
      ((if truthy (payload.field? "warmCache") then Prog.settled services.warmEventDataCache
        else .ret ()).bind fun _ => .ret (spread result [])) A := by
    intro result
    have hret : Ensures (handle (backend patched)) (R (.ok result))
        (.ret (spread result []) : Store Json) A :=
      Prog.ensures_ret fun w hw => ⟨_, hw, fun h => Or.inl (failed_of_spread h)⟩
    by_cases hwc : truthy (payload.field? "warmCache") = true
    · rw [if_pos hwc]
      cases hev : services.warmEventDataCache with
      | ok u => exact hret
      | error e =>
        exact Prog.ensures_fail fun w hw => ⟨_, hw, fun _ => Or.inr ⟨hwc, by rw [hev]; rfl⟩⟩
    · rw [if_neg hwc]
      exact hret
  have htry : Ensures (handle (backend patched)) I (p.bind fun result =>
      (if truthy (payload.field? "warmCache") then Prog.settled services.warmEventDataCache
        else .ret ()).bind fun _ => .ret (spread result [])) A :=
    Prog.ensures_bind hp hwarm fun e w hw => ⟨_, hw, fun _ => Or.inl trivial⟩
  have hcatch : ∀ e, Ensures (handle (backend patched)) (A (.error e)) (queueCatch payload ids e)
      A := by
    intro e
    have hkeeps : Keeps (handle (backend patched)) (A (.error e)) (queueCatch payload ids e) :=
      keeps_queueCatch payload ids e fun w w' ht hl hw => by
        obtain ⟨out', hr, h⟩ := hw
        exact ⟨out', hR out' w w' ht hl hr, h⟩
    refine Ensures.mono hkeeps (fun _ h => h) fun out w h => ?_
    obtain ⟨out', hw, h⟩ := h
    exact ⟨out', hw, fun _ => h trivial⟩
  refine Prog.ensures_bind (Prog.ensures_tryCatch htry (fun _ _ h => h) hcatch)
    (fun answer => Prog.ensures_ret fun w hw => hw) fun e w hw => hw

/-- A failed durable command leaves nothing; a failed callback without a command
leaves a prefix. -/
theorem runDurableCommand_fails {engine : Engine} {call : Call} {body : Bool → Store (Option Json)}
    (hbody : Callback x engine call body) (storedJson : Json → Json) (receipts : Bool)
    (patched : CalendarRow → Json → Json) (before : Tables) (faults : List Fault) :
    let r := (runDurableCommand storedJson call.payload receipts body).run
      (handle (backend patched)) (World.start before faults)
    (call.payload.field? "commandId" ≠ none → Failed r.1 → r.2.commitLost = false →
      r.2.tables = before) ∧
    (call.payload.field? "commandId" = none →
      Left x engine call before (Fault.lostAfter ∈ faults ∨ ¬ Failed r.1) r.2.tables) := by
  intro r
  cases hid : call.payload.field? "commandId" with
  | none =>
    refine ⟨fun h => (h rfl).elim, fun _ => ?_⟩
    have hr : r = (body false).run (handle (backend patched)) (World.start before faults) := by
      simp only [r, runDurableCommand, hid]
    rw [hr]
    exact (hbody.leaves patched before (Fault.lostAfter ∈ faults) (World.start before faults)
      ⟨rfl, rfl, id, rfl⟩).tables
  | some commandId =>
    refine ⟨fun _ hfailed hlost => ?_, fun h => by cases h⟩
    cases receipts with
    | false =>
      have hr : r = (.error (.error "Durable command storage unavailable"),
          World.start before faults) := by
        simp only [r, runDurableCommand, hid]
        rfl
      rw [hr]
      rfl
    | true =>
      have hr : r = (execute storedJson call.payload (body true)).run (handle (backend patched))
          (World.start before faults) := by
        simp only [r, runDurableCommand, hid]
        rfl
      rw [hr] at hfailed hlost ⊢
      refine (nothing_left_behind storedJson call.payload hbody.inCommand before faults ?_).2 hlost
      intro answer ha
      rw [ha] at hfailed
      exact Bool.and_eq_false_iff.mpr (Or.inl hfailed)

/-- What is left of a call that answers an error or throws. With a command id:
nothing, unless the answer of its commit was lost or the cache warming behind it
failed. Without one: the rows of a prefix of its records, in order, and nothing
that belongs to a record behind the one that failed. -/
theorem failed_call_leaves_first_records (x : External) (services : Services) (engine : Engine)
    (patched : CalendarRow → Json → Json) (storedJson : Json → Json) (call : Call)
    (before : Tables) (faults : List Fault)
    (hfailed : Failed ((call.program x services engine storedJson).run (handle (backend patched))
      (World.start before faults)).1) :
    let w := ((call.program x services engine storedJson).run (handle (backend patched))
      (World.start before faults)).2
    (call.payload.field? "commandId" ≠ none → ¬ call.WarmFails services →
      w.commitLost = false → w.tables = before) ∧
    (call.payload.field? "commandId" = none →
      Left x engine call before (Fault.lostAfter ∈ faults ∨ call.WarmFails services) w.tables) := by
  cases call with
  | saveTournamentRecords params userId records =>
    have hcallback : Callback x engine (.saveTournamentRecords params userId records) _ :=
      callback_of_runs (.save params userId records) services
    have h := runDurableCommand_fails hcallback storedJson services.commandReceipts patched before
      faults
    refine ⟨fun hid _ hlost => h.1 hid hfailed hlost, fun hid => (h.2 hid).mono fun hl => ?_⟩
    exact hl.elim Or.inl fun hn => (hn hfailed).elim
  | executionQueue payload =>
    have hnothing : Left x engine (.executionQueue payload) before
        (Fault.lostAfter ∈ faults ∨ (Call.executionQueue payload).WarmFails services) before :=
      left_refl (Or.inl ⟨rfl, rfl⟩)
    revert hfailed
    simp only [Call.program, ExecutionQueue.executionQueue]
    cases hadmit : admission x services engine payload with
    | answered answer => exact fun _ => ⟨fun _ _ _ => rfl, fun _ => hnothing⟩
    | thrown e => exact fun _ => ⟨fun _ _ _ => rfl, fun _ => hnothing⟩
    | notIterable ids =>
      intro _
      have hkeeps : Keeps (handle (backend patched)) (·.tables = before)
          ((queueCatch payload ids typeError).bind fun answer => .ret (some answer)) :=
        (keeps_queueCatch payload ids typeError fun w w' ht _ hw => ht.trans hw).bind fun answer =>
          Prog.keeps_ret (some answer)
      have hw := hkeeps (World.start before faults) rfl
      exact ⟨fun _ _ _ => hw, fun _ => by rw [hw]; exact hnothing⟩
    | locked ids work =>
      dsimp only
      intro hfailed
      have h := runDurableCommand_fails (callback_of_admission hadmit) storedJson services.commandReceipts
        patched before faults
      let r := (runDurableCommand storedJson payload services.commandReceipts work.body).run
        (handle (backend patched)) (World.start before faults)
      have hrun : Ensures (handle (backend patched)) (· = World.start before faults)
          (runDurableCommand storedJson payload services.commandReceipts work.body)
          fun out w => out = r.1 ∧ w.tables = r.2.tables ∧ w.commitLost = r.2.commitLost := by
        rintro w rfl
        exact ⟨rfl, rfl, rfl⟩
      have hsame : ∀ out, OfTables fun w : World Tables Effect =>
          out = r.1 ∧ w.tables = r.2.tables ∧ w.commitLost = r.2.commitLost :=
        fun out w w' ht hl hw => ⟨hw.1, ht.trans hw.2.1, hl.trans hw.2.2⟩
      obtain ⟨out', ⟨rfl, htables, hcommit⟩, hf⟩ :=
        ensures_answer services payload ids hsame hrun (World.start before faults) rfl
      rw [htables, hcommit]
      refine ⟨fun hid hwarm hlost => ?_, fun hid => (h.2 hid).mono fun hl => ?_⟩
      · exact h.1 hid ((hf hfailed).resolve_right hwarm) hlost
      · rcases hl with hl | hn
        · exact Or.inl hl
        · exact Or.inr ((hf hfailed).resolve_left hn)

/-! ## A failure behind a saved record -/

/-- A wholesale save without a command id, whose second record has no provider. -/
def halfSave : Call :=
  .saveTournamentRecords (.obj []) none
    [("test", plainRecord "test" none), ("t-2", plainRecord "t-2" none)]

/-- The save with nothing going wrong in the database. -/
def halfSaveRun : Except Thrown (Option Json) × World Tables Effect :=
  (halfSave.program plainExternal plainServices noEngine id).run
    (handle (backend fun row _ => row.entry)) (World.start emptyTables [])

/-- It answers an error, and its first record is stored. -/
theorem half_saved : Failed halfSaveRun.1 ∧
    halfSaveRun.2.tables.tournaments ≠ emptyTables.tournaments := by
  refine ⟨by decide, fun h => ?_⟩
  have hrow := congrArg (fun rows => (rows "test").isSome) h
  revert hrow
  decide

/-- What the save above leaves is a prefix. -/
theorem failed_call_leaves_first_records_sample :
    Left plainExternal noEngine halfSave emptyTables
      (Fault.lostAfter ∈ ([] : List Fault) ∨ halfSave.WarmFails plainServices)
      halfSaveRun.2.tables :=
  (failed_call_leaves_first_records plainExternal plainServices noEngine (fun row _ => row.entry) id
    halfSave emptyTables [] (by decide)).2 rfl

end FactoryServer.SaveFailures
