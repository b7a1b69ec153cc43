import FactoryServer.AuditLog

/-!
# When the audit log agrees with what was committed

Outside a durable command every record commits on its own and the effects of
the engine run start before the first save, so the log agrees when nothing can
come between them. Inside a durable command the effects wait for the commit,
and the log agrees unless the answer of the commit is lost.
-/

namespace FactoryServer.AuditAgreement

open JsonValue AsyncProgram SqlTransaction TournamentAccess CommandTransaction CommandReceipts
  CommandSession CommandAtomicity CommandCommit StorageTables TournamentStorage ExecutionQueue
  StorageFrames StorageRegime CallbackOutcomes QueueEffects PooledStatements PooledConnection
  BorrowedConnection DurableSave AuditLog
open AsyncProgram.Prog (Ensures Keeps)

variable {x : External} {patched : CalendarRow → Json → Json} {engine : Engine} {payload : Json}
  {before : Tables} {w : World Tables Effect}

/-! ## Outside a durable command -/

/-- The engine run has deleted no draw. -/
def DeletesNothing (p : Plan) : Prop :=
  ∀ id drawId, .auditDrawDeletion id drawId ∉ p.deferred

/-- Warming the cache, if asked for, does not throw. -/
def Warms (services : Services) (payload : Json) : Prop :=
  ListsIds (queueTournamentIds payload) → truthy (payload.field? "warmCache") = true →
    services.warmEventDataCache = .ok ()

/-- The record can be saved on the stored rows. -/
abbrev CanSave (x : External) (before : Tables) (record : TournamentRecord) : Prop :=
  Savable x 0 none before.providers before.tournaments record

/-- Without a command: nothing comes between the effects of the engine run, the
save of each record and the audit of the mutation. -/
inductive Undivided (x : External) (services : Services) (payload : Json) (before : Tables)
    (faults : List Fault) (p : Plan) : Prop
  /-- Nothing is to be saved. -/
  | unsaved (unsaved : p.records = none) (undeleted : DeletesNothing p)
  /-- The first record cannot be saved. -/
  | barred (r : String × TournamentRecord) (rest : RecordMap) (records : p.records = some (r :: rest))
      (bar : ¬ CanSave x before r.2) (undeleted : DeletesNothing p)
  /-- Every record can be saved, and nothing goes wrong. -/
  | whole (records : RecordMap) (saves : p.records = some records)
      (savable : ∀ r ∈ records, CanSave x before r.2) (calm : ∀ fault ∈ faults, fault = .none)
      (covers : Covers x payload p records) (warms : Warms services payload)
  /-- One record is to be saved, and no answer is lost. -/
  | single (records : RecordMap) (saves : p.records = some records) (one : records.length ≤ 1)
      (answered : .lostAfter ∉ faults) (undeleted : DeletesNothing p)
      (covers : Covers x payload p records) (warms : Warms services payload)

/-- How the work under the locks ends, when all is well. -/
def WorkEnds (x : External) (services : Services) (engine : Engine) (payload : Json)
    (before : Tables) (out : Except Thrown (Option Json)) (w : World Tables Effect) : Prop :=
  Unwritten before w ∨
    (∃ answer, out = .ok answer) ∧ Warms services payload ∧ Agrees x engine payload before w

section Pooled

variable {services : Services} {faulty loss : Prop} {plan : Option Plan}
  {out : Except Thrown (Option Json)}

/-- Where a mutation that answered no success has stopped. -/
inductive Interrupted (x : External) (patched : CalendarRow → Json → Json) (before : Tables)
    (faulty loss : Prop) (plan : Option Plan) (t : Tables) : Prop
  /-- Before its saves. -/
  | early (same : t.tournaments = before.tournaments)
      (why : faulty ∨ ∀ p, plan = some p → p.records = none)
  /-- During the saves, or with the answer of the last one lost. -/
  | late (p : Plan) (records : RecordMap) (k : Nat) (planned : plan = some p)
      (saves : p.records = some records)
      (saved : (clockKept x patched none before).SavedUpTo p.deferred records k t)
      (why : faulty ∨ ∃ r, records[k]? = some r ∧ ¬ CanSave x before r.2)
      (short : k < records.length ∨ loss)

theorem interrupted_of_unfinished {t : Tables}
    (h : (clockKept x patched none before).Unfinished faulty plan t) :
    Interrupted x patched before faulty loss plan t := by
  cases h with
  | refused why same =>
    refine .early (by rw [same]) (why.imp_right fun hnone p hp => ?_)
    rw [hnone] at hp
    cases hp
  | failed p planned why at_ =>
    refine .early at_.tournaments (why.imp_right fun hnone q hq => ?_)
    rwa [← Option.some.inj (planned.symm.trans hq)]
  | stopped p records planned saves at_ =>
    obtain ⟨k, r, hr, hwhy, hsaved⟩ := at_
    obtain ⟨hk, -⟩ := List.getElem?_eq_some_iff.mp hr
    exact .late p records k planned saves hsaved (hwhy.imp_right fun hn => ⟨r, hr, hn⟩)
      (Or.inl hk)

theorem interrupted_of_unsuccessful (hfailed : Unsuccessful out)
    (h : CallbackEnds (clockKept x patched none before) (pooledRegime x patched faulty loss) plan
      out w) : Interrupted x patched before faulty loss plan w.tables := by
  cases out with
  | ok answer =>
    have hunfinished := (h.2 (hfailed answer rfl)).1.tables
    have hinterrupted : Interrupted x patched before False loss plan w.tables :=
      interrupted_of_unfinished hunfinished
    cases hinterrupted with
    | early same why => exact .early same (why.imp_left False.elim)
    | late p records k planned saves saved why short =>
      exact .late p records k planned saves saved (why.imp_left False.elim) short
  | error e =>
    rcases h.1.tables with hunfinished | ⟨hloss, hfaulty, p, records, k, planned, saves, -, saved⟩
    · exact interrupted_of_unfinished hunfinished
    · exact .late p records k planned saves saved (Or.inl hfaulty) (Or.inr hloss)

/-- A mutation that deleted no draw and answered no success is silent. -/
theorem silent_of_unsuccessful {es : List Effect} (h : MutationEmits plan out es)
    (hfailed : Unsuccessful out)
    (hnotice : ∀ p, plan = some p → ∀ effect ∈ p.deferred, effect.ofNotice = true)
    (hundeleted : ∀ p, plan = some p → DeletesNothing p) : ∀ effect ∈ es, Silent effect := by
  have hdeferred : ∀ p, plan = some p → ∀ effect ∈ p.deferred, Silent effect := by
    intro p hp effect hmem
    have hn := hnotice p hp effect hmem
    cases effect with
    | auditDrawDeletion id drawId => exact hundeleted p hp id drawId hmem
    | patchCalendar providerId tournamentId updates => trivial
    | _ => cases hn
  cases h with
  | silent unplanned failed => exact fun effect hmem => by cases hmem
  | announced planned failed => exact hdeferred _ planned
  | refused planned unsaved status_ne failed =>
    intro effect hmem
    rcases List.mem_append.mp hmem with hmem | hmem
    · exact hdeferred _ planned effect hmem
    · obtain rfl := List.mem_singleton.mp hmem
      exact status_ne
  | saved planned done => exact (hfailed _ rfl done).elim

/-- Before the first save nothing is committed. -/
theorem nothing_of_zero {deferred : List Effect} {records : RecordMap} {t : Tables}
    (hclock : Clocked before)
    (h : (clockKept x patched none before).SavedUpTo deferred records 0 t) (id : String) :
    ¬ Committed before t id := by
  rw [committed_iff hclock h]
  rintro ⟨r, hr, -⟩
  cases hr

/-- An undivided mutation that was interrupted has committed nothing, and has
deleted no draw. -/
theorem nothing_of_interrupted {faults : List Fault} {p : Plan} {t : Tables}
    (hclock : Clocked before) (hsafe : Undivided x services payload before faults p)
    (h : Interrupted x patched before (∃ fault ∈ faults, fault ≠ .none) (.lostAfter ∈ faults)
      (some p) t) : (∀ id, ¬ Committed before t id) ∧ DeletesNothing p := by
  have hearly : t.tournaments = before.tournaments → ∀ id, ¬ Committed before t id :=
    fun same => not_committed_of_same hclock same
  cases hsafe with
  | unsaved unsaved undeleted =>
    cases h with
    | early same why => exact ⟨hearly same, undeleted⟩
    | late q records k planned saves saved why short =>
      cases planned
      rw [unsaved] at saves
      cases saves
  | barred r rest records bar undeleted =>
    refine ⟨?_, undeleted⟩
    cases h with
    | early same why => exact hearly same
    | late q records' k planned saves saved why short =>
      cases planned
      obtain rfl : r :: rest = records' := Option.some.inj (records.symm.trans saves)
      cases k with
      | zero => exact nothing_of_zero hclock saved
      | succ k =>
        have hmem : r ∈ (r :: rest).take (k + 1) := by
          rw [List.take_succ_cons]
          exact List.mem_cons_self
        exact (bar (saved.savable r hmem)).elim
  | whole records saves savable calm covers warms =>
    exfalso
    have hcalm : ¬ ∃ fault ∈ faults, fault ≠ .none := by
      rintro ⟨fault, hmem, hne⟩
      exact hne (calm fault hmem)
    cases h with
    | early same why =>
      rcases why with hfaulty | hnone
      · exact hcalm hfaulty
      · rw [hnone p rfl] at saves
        cases saves
    | late q records' k planned saves' saved why short =>
      cases planned
      obtain rfl : records = records' := Option.some.inj (saves.symm.trans saves')
      rcases why with hfaulty | ⟨r, hr, hbar⟩
      · exact hcalm hfaulty
      · exact hbar (savable r (List.mem_of_getElem? hr))
  | single records saves one answered undeleted covers warms =>
    refine ⟨?_, undeleted⟩
    cases h with
    | early same why => exact hearly same
    | late q records' k planned saves' saved why short =>
      cases planned
      obtain rfl : records = records' := Option.some.inj (saves.symm.trans saves')
      have hk : k = 0 := by
        have hlt := short.resolve_right answered
        omega
      subst hk
      exact nothing_of_zero hclock saved

/-- An undivided mutation that has saved everything agrees with its log. -/
theorem agrees_of_done {faults : List Fault} {p : Plan} {records : RecordMap}
    (hclock : Clocked before) (hp : queuePlan x engine before payload = some p)
    (hrecords : p.records = some records)
    (hdone : (clockKept x patched none before).SavedUpTo p.deferred records records.length
      w.tables)
    (heffects : w.effects = p.deferred ++ [.snapshotDraws, .evictAndAudit .applied])
    (hsafe : Undivided x services payload before faults p) :
    Warms services payload ∧ Agrees x engine payload before w := by
  have hcommitted := committed_iff hclock hdone
  rw [List.take_length] at hcommitted
  cases hsafe with
  | unsaved unsaved undeleted =>
    rw [unsaved] at hrecords
    cases hrecords
  | barred r rest saves bar undeleted =>
    obtain rfl : r :: rest = records := Option.some.inj (saves.symm.trans hrecords)
    have hmem : r ∈ (r :: rest).take (r :: rest).length := by
      rw [List.take_length]
      exact List.mem_cons_self
    exact (bar (hdone.savable r hmem)).elim
  | whole records' saves savable calm covers warms =>
    obtain rfl : records' = records := Option.some.inj (saves.symm.trans hrecords)
    exact ⟨warms, agrees_of_saved hp covers hcommitted heffects⟩
  | single records' saves one answered undeleted covers warms =>
    obtain rfl : records' = records := Option.some.inj (saves.symm.trans hrecords)
    exact ⟨warms, agrees_of_saved hp covers hcommitted heffects⟩

/-- What a mutation outside a durable command comes to, on the tables it finds
and with the faults to come. -/
structure PooledEnds (x : External) (patched : CalendarRow → Json → Json) (engine : Engine)
    (payload : Json) (before : Tables) (faults : List Fault) (out : Except Thrown (Option Json))
    (w : World Tables Effect) : Prop where
  tables : CallbackEnds (clockKept x patched none before)
    (pooledRegime x patched (∃ fault ∈ faults, fault ≠ .none) (.lostAfter ∈ faults))
    (queuePlan x engine before payload) out w
  effects : (Unsuccessful out ∧ w.effects = [] ∧
      ((∃ fault ∈ faults, fault ≠ .none) ∨ queuePlan x engine before payload = none)) ∨
    MutationEmits (queuePlan x engine before payload) out w.effects

theorem pooledEnds_mutate (services : Services) {methods : List Json} (faults : List Fault)
    (hplan : queuePlan x engine before payload =
      mutationPlan x engine before payload (queueTournamentIds payload) methods) :
    let r := (mutate x services engine false payload (queueTournamentIds payload) methods).run
      (handle (backend patched)) (World.start before faults)
    PooledEnds x patched engine payload before faults r.1 r.2 := by
  intro r
  let R := pooledRegime x patched (∃ fault ∈ faults, fault ≠ .none) (.lostAfter ∈ faults)
  have hstart : R.holds (· = before) (World.start before faults) :=
    ⟨⟨rfl, rfl, id, rfl⟩, fun fault hmem hne => ⟨fault, hmem, hne⟩⟩
  have hends := ensures_mutate (S := clockKept x patched none before) R services engine payload
    (queueTournamentIds payload) methods _ hstart
  rw [← hplan] at hends
  refine ⟨hends, ?_⟩
  have heffects : r.2.effects = effectsOf patched
      (mutate x services engine false payload (queueTournamentIds payload) methods)
      (World.start before faults) :=
    effects_run (S := fun _ => True) (F := fun _ => True) (uses_mutate (fun _ _ => trivial)
      (fun _ _ => trivial) (fun _ _ _ => trivial) (fun _ => trivial) services engine payload
      (queueTournamentIds payload) methods) _
  rw [heffects, hplan]
  rcases mutate_cases services engine payload (queueTournamentIds payload) methods R hstart with
    ⟨hfailed, hnil, hwhy⟩ | ⟨indexed, rows, w', hw', hsame, hes⟩
  · exact Or.inl ⟨hfailed, hnil, hwhy.1.tables⟩
  · have hrows : MutationEmits (rowsPlan engine payload indexed rows)
        ((mutateRows x services engine false payload (queueTournamentIds payload) indexed rows).run
          (handle (backend patched)) w').1 (effectsOf patched
        (mutateRows x services engine false payload (queueTournamentIds payload) indexed rows)
          w') :=
      emits_mutateRows services engine payload (queueTournamentIds payload) indexed rows w'
    rw [hes, hw'.1.tables.1, show r.1 = _ from congrArg Prod.fst hsame]
    exact Or.inr hrows

/-- An outcome that is no failure is a success. -/
theorem success_of_not_unsuccessful (h : ¬ Unsuccessful out) :
    ∃ answer, out = .ok answer ∧ Succeeds answer := by
  by_contra hno
  exact h fun answer hanswer hs => hno ⟨answer, hanswer, hs⟩

/-- A success has saved the records of its plan, and has audited them. -/
theorem PooledEnds.saved {faults : List Fault}
    (h : PooledEnds x patched engine payload before faults out w) (hs : ¬ Unsuccessful out) :
    (∃ answer, out = .ok answer) ∧ ∃ p records,
      queuePlan x engine before payload = some p ∧ p.records = some records ∧
      (clockKept x patched none before).SavedUpTo p.deferred records records.length w.tables ∧
      w.effects = p.deferred ++ [.snapshotDraws, .evictAndAudit .applied] := by
  obtain ⟨answer, rfl, hsuccess⟩ := success_of_not_unsuccessful hs
  obtain ⟨p, records, hp, hrecords, hdone⟩ := (h.tables.1 hsuccess).1.tables
  rcases h.effects with ⟨hfailed, -, -⟩ | hemits
  · exact (hs hfailed).elim
  · obtain ⟨q, hq, heq⟩ := hemits.of_success hsuccess
    obtain rfl : p = q := Option.some.inj (hp.symm.trans hq)
    exact ⟨⟨answer, rfl⟩, p, records, hp, hrecords, hdone, heq⟩

/-- A mutation outside a durable command whose plan cannot come apart. -/
theorem PooledEnds.workEnds {faults : List Fault}
    (h : PooledEnds x patched engine payload before faults out w) (hclock : Clocked before)
    (hsafe : ∀ p, queuePlan x engine before payload = some p →
      Undivided x services payload before faults p) :
    WorkEnds x services engine payload before out w := by
  by_cases hfailed : Unsuccessful out
  · refine Or.inl ?_
    have hinterrupted := interrupted_of_unsuccessful hfailed h.tables
    have hall : (∀ id, ¬ Committed before w.tables id) ∧
        ∀ p, queuePlan x engine before payload = some p → DeletesNothing p := by
      cases hp : queuePlan x engine before payload with
      | none =>
        refine ⟨?_, fun p h => by cases h⟩
        rw [hp] at hinterrupted
        cases hinterrupted with
        | early same why => exact not_committed_of_same hclock same
        | late p records k planned saves saved why short => cases planned
      | some p =>
        rw [hp] at hinterrupted
        obtain ⟨hnothing, hundeleted⟩ := nothing_of_interrupted hclock (hsafe p hp) hinterrupted
        exact ⟨hnothing, fun q hq => Option.some.inj hq ▸ hundeleted⟩
    refine ⟨hall.1, ?_⟩
    rcases h.effects with ⟨-, hnil, -⟩ | hemits
    · intro effect hmem
      rw [hnil] at hmem
      cases hmem
    · exact silent_of_unsuccessful hemits hfailed (fun p hp => notices_of_queuePlan hp) hall.2
  · obtain ⟨hok, p, records, hp, hrecords, hdone, heffects⟩ := h.saved hfailed
    exact Or.inr ⟨hok, agrees_of_done hclock hp hrecords hdone heffects (hsafe p hp)⟩

/-- The request of a call with a plan names a tournament. -/
theorem ids_ne_nil {p : Plan} {items : List Json}
    (hp : queuePlan x engine before payload = some p)
    (hids : queueTournamentIds payload = .arr items) : items ≠ [] := by
  rintro rfl
  obtain ⟨methods, -, hplan⟩ := Option.bind_eq_some_iff.mp hp
  have hnone : storedRows x before (queueTournamentIds payload) = none := by
    rw [hids]
    rfl
  rw [mutationPlan_of_storedRows hnone] at hplan
  cases hplan

/-- A mutation with nothing going wrong that agrees with its log could not have
come apart. -/
theorem PooledEnds.undivided {faults : List Fault} {w' : World Tables Effect}
    (h : PooledEnds x patched engine payload before faults out w) (hclock : Clocked before)
    (hcalm : ∀ fault ∈ faults, fault = .none)
    (htail : Tail (ListsIds (queueTournamentIds payload) ∧ Throws services payload out) w w')
    (hagrees : Agrees x engine payload before w') {p : Plan}
    (hp : queuePlan x engine before payload = some p) :
    Undivided x services payload before faults p := by
  have hnotFaulty : ¬ ∃ fault ∈ faults, fault ≠ .none := by
    rintro ⟨fault, hmem, hne⟩
    exact hne (hcalm fault hmem)
  have hnotLost : .lostAfter ∉ faults := fun hmem => by cases hcalm _ hmem
  have hemits : MutationEmits (some p) out w.effects := by
    rcases h.effects with ⟨-, -, hfaulty | hnone⟩ | hemits
    · exact (hnotFaulty hfaulty).elim
    · rw [hp] at hnone
      cases hnone
    · rwa [hp] at hemits
  have hnotices := notices_of_queuePlan hp
  -- what was deleted was recorded, so it was committed
  have hdeleted : ∀ id drawId, .auditDrawDeletion id drawId ∈ p.deferred →
      Committed before w.tables id := by
    intro id drawId hmem
    have heffect : .auditDrawDeletion id drawId ∈ w.effects := by
      generalize w.effects = es at hemits
      cases hemits with
      | silent unplanned failed => cases unplanned
      | announced planned failed => exact Option.some.inj planned ▸ hmem
      | refused planned unsaved status_ne failed =>
        exact List.mem_append_left _ (Option.some.inj planned ▸ hmem)
      | saved planned done => exact List.mem_append_left _ (Option.some.inj planned ▸ hmem)
    have hrow : .deleteDraw id drawId ∈ auditLog x payload w' :=
      (mem_auditLog_tail htail (by simp)).mpr
        (List.mem_flatMap.mpr ⟨_, heffect, List.mem_singleton.mpr rfl⟩)
    exact htail.tables ▸ ((hagrees.deleted id drawId).mp hrow).2
  by_cases hfailed : Unsuccessful out
  · have hinterrupted := interrupted_of_unsuccessful hfailed h.tables
    rw [hp] at hinterrupted
    cases hinterrupted with
    | early same why =>
      have hnone : p.records = none := (why.resolve_left hnotFaulty) p rfl
      exact .unsaved hnone fun id drawId hmem =>
        not_committed_of_same hclock same id (hdeleted id drawId hmem)
    | late q records k planned saves saved why short =>
      cases planned
      obtain ⟨r, hr, hbar⟩ := why.resolve_left hnotFaulty
      cases records with
      | nil => simp at hr
      | cons head rest =>
        cases k with
        | zero =>
          obtain rfl : head = r := by simpa using hr
          exact .barred head rest saves hbar fun id drawId hmem =>
            nothing_of_zero hclock saved id (hdeleted id drawId hmem)
        | succ k =>
          exfalso
          have hmem : head ∈ (head :: rest).take (k + 1) := by
            rw [List.take_succ_cons]
            exact List.mem_cons_self
          obtain ⟨key, hkey, -⟩ := (saved.savable head hmem).allowed
          have hcommitted := (committed_iff hclock saved (x.pg.text key)).mpr
            ⟨head, hmem, rowId_of_recordKey hkey⟩
          have hrow : .mutation (x.pg.text key) .applied ∈ auditLog x payload w :=
            (mem_auditLog_tail htail (by simp)).mp
              ((hagrees.applied _).mpr (htail.tables ▸ hcommitted))
          obtain ⟨effect, heffect, happended⟩ := List.mem_flatMap.mp hrow
          have hdeferred : effect ∈ p.deferred := by
            generalize w.effects = es at hemits heffect
            cases hemits with
            | silent unplanned failed => cases unplanned
            | announced planned failed => exact Option.some.inj planned ▸ heffect
            | refused planned unsaved status_ne failed =>
              rw [← Option.some.inj planned, saves] at unsaved
              cases unsaved
            | saved planned done => exact (hfailed _ rfl done).elim
          obtain ⟨_, _, -, hdelete⟩ := mem_appended_notice (hnotices effect hdeferred) happended
          cases hdelete
  · obtain ⟨⟨answer, rfl⟩, q, records, hq, hrecords, hdone, heffects⟩ := h.saved hfailed
    obtain rfl : p = q := Option.some.inj (hp.symm.trans hq)
    have hcommitted := committed_iff hclock hdone
    have hsavable := hdone.savable
    rw [List.take_length] at hcommitted hsavable
    have hlog := fun row => (mem_auditLog_saved hnotices heffects row :
      row ∈ auditLog x payload w ↔ _)
    have hnamed : ∀ id, id ∈ ((queueTournamentIds payload).iterate?.getD []).map x.pg.text ↔
        Holds x records id := by
      intro id
      rw [← hcommitted, ← htail.tables, ← hagrees.applied, mem_auditLog_tail htail (by simp), hlog]
      constructor
      · exact fun hid => Or.inr ⟨id, hid, rfl⟩
      · rintro (⟨_, _, -, hrow⟩ | ⟨_, hid, hrow⟩)
        · cases hrow
        · cases hrow
          exact hid
    refine .whole records hrecords hsavable hcalm
      ⟨hnamed, fun id drawId hmem => (hcommitted id).mp (hdeleted id drawId hmem)⟩ ?_
    rintro ⟨items, hids⟩ hwarm
    cases hcache : services.warmEventDataCache with
    | ok _ => rfl
    | error e =>
      exfalso
      -- an exception after the commit is recorded as a rejection of every id
      have heffects' := htail.adds ⟨⟨items, hids⟩, Or.inr ⟨hwarm, e, hcache⟩⟩
      obtain ⟨id, hid⟩ := List.exists_mem_of_ne_nil items (ids_ne_nil hp hids)
      have hrejected : .mutation (x.pg.text id) .rejected ∈ auditLog x payload w' := by
        rw [auditLog, heffects', hids]
        refine List.mem_flatMap.mpr ⟨.auditException, by simp, ?_⟩
        exact List.mem_map.mpr ⟨id, hid, rfl⟩
      have hholds := (hnamed (x.pg.text id)).mp (by
        rw [hids]
        exact List.mem_map.mpr ⟨id, hid, rfl⟩)
      exact hagrees.rejected _ hrejected _ (htail.tables ▸ (hcommitted _).mpr hholds)

end Pooled

/-! ## Inside a durable command -/

/-- A command that is applied now has a plan that the request covers, and no
cache to warm that throws. -/
def Fits (x : External) (services : Services) (engine : Engine) (payload : Json)
    (before : Tables) : Prop :=
  ∀ identity p records, identityOf payload = some identity →
    before.commandReceipts identity.actor identity.commandId = none →
    queuePlan x engine before payload = some p → p.records = some records →
    Covers x payload p records ∧ Warms services payload

/-- What the tables of a committed command satisfy, told from its effects: a
replay has none, a fresh command those of its saved plan. -/
def CommittedWith (x : External) (engine : Engine) (payload : Json) (before : Tables)
    (identity : CommandIdentity) (effects : List Effect) (t : Tables) : Prop :=
  (effects = [] ∧ t.tournaments = before.tournaments) ∨
  (before.commandReceipts identity.actor identity.commandId = none ∧
    ∃ p records, queuePlan x engine before payload = some p ∧ p.records = some records ∧
      (∀ id, Committed before t id ↔ Holds x records id) ∧
      effects = p.deferred ++ [.snapshotDraws, .evictAndAudit .applied])

section Durable

variable {services : Services}

/-- What was committed depends on the rows only. -/
theorem CommittedWith.of_same {identity : CommandIdentity} {effects : List Effect}
    {t t' : Tables} (h : CommittedWith x engine payload before identity effects t)
    (hsame : t'.tournaments = t.tournaments) :
    CommittedWith x engine payload before identity effects t' := by
  rcases h with ⟨he, ht⟩ | ⟨hnone, p, records, hp, hrecords, hcommitted, he⟩
  · exact Or.inl ⟨he, hsame.trans ht⟩
  · refine Or.inr ⟨hnone, p, records, hp, hrecords, fun id => ?_, he⟩
    rw [← hcommitted id, Committed, Committed, hsame]

/-- A mutation whose commit was answered, or not executed, on a connection that
refused no `SAVEPOINT`. -/
theorem durable_workEnds (storedJson : Json → Json) {methods : List Json} {faults : List Fault}
    (hclock : Clocked before)
    (hplan : queuePlan x engine before payload =
      mutationPlan x engine before payload (queueTournamentIds payload) methods)
    (hfits : Fits x services engine payload before) :
    let r := (execute storedJson payload
      (mutate x services engine true payload (queueTournamentIds payload) methods)).run
      (handle (backend patched)) (World.start before faults)
    r.2.commitLost = false → r.2.savepointRefused = false →
      WorkEnds x services engine payload before r.1 r.2 := by
  intro r hlost hflag
  let command : Command := .mutation payload (queueTournamentIds payload) methods
  have hcommand := inCommand (x := x) services engine command
  by_cases hs : ∃ answer, r.1 = .ok answer ∧ succeeded answer = true
  · cases hid : identityOf payload with
    | none =>
      obtain ⟨answer, hanswer, -⟩ := hs
      simp only [r, execute, hid, Prog.run_fail] at hanswer
      cases hanswer
    | some identity =>
      let Post : List Effect → Option Json → Tables → Prop := fun effects _ t =>
        ∃ p records, queuePlan x engine before payload = some p ∧ p.records = some records ∧
          (∀ id, Committed before t id ↔ Holds x records id) ∧
          effects = p.deferred ++ [.snapshotDraws, .evictAndAudit .applied]
      have hleaves : Leaves (backend patched) before (command.apply x services engine true)
          Post := by
        intro w hw answer hanswer hsucceeded
        refine (saved_with_effects services engine payload (queueTournamentIds payload) methods
          (commandRegime x patched) (clockKept x patched none before) hw hanswer
          (Bool.and_eq_true_iff.mp hsucceeded).1).mono fun tx htx => htx.mono fun t ht => ?_
        obtain ⟨p, records, hp, hrecords, hdone, heffects⟩ := ht
        refine ⟨p, records, hplan.trans hp, hrecords, fun id => ?_, heffects⟩
        have hcommitted := committed_iff hclock hdone id
        rwa [List.take_length] at hcommitted
      have hall := committed_tables (L := CommittedWith x engine payload before identity) hid
        hcommand hleaves (fun _ => Or.inl ⟨rfl, rfl⟩)
        (fun hnone effects _ t _ ht => Or.inr ⟨hnone, ht⟩)
        (fun effects effect t ht => ht.of_same (effect_tournaments patched effect t)) faults hflag
      rcases hall.1 hs with ⟨hnil, hsame⟩ | ⟨hnone, p, records, hp, hrecords, hcommitted, heffects⟩
      · have hnil' : r.2.effects = [] := hnil
        refine Or.inl ⟨not_committed_of_same hclock hsame, fun effect hmem => ?_⟩
        rw [hnil'] at hmem
        cases hmem
      · obtain ⟨hcovers, hwarms⟩ := hfits identity p records hid hnone hp hrecords
        obtain ⟨answer, hanswer, -⟩ := hs
        exact Or.inr ⟨⟨answer, hanswer⟩, hwarms, agrees_of_saved hp hcovers hcommitted heffects⟩
  · have hfailed : ∀ answer, r.1 = .ok answer → succeeded answer = false := fun answer hanswer =>
      Bool.eq_false_iff.mpr fun hsucceeded => hs ⟨answer, hanswer, hsucceeded⟩
    obtain ⟨hnil, hsame⟩ := nothing_left_behind storedJson payload hcommand before faults hfailed
    have hnil' : r.2.effects = [] := hnil
    refine Or.inl ⟨not_committed_of_same hclock (congrArg Tables.tournaments (hsame hlost)),
      fun effect hmem => ?_⟩
    rw [hnil'] at hmem
    cases hmem

end Durable

/-! ## The whole call -/

/-- The condition under which the log agrees, for a call that gets its locks:
the saves of a mutation without a command cannot come apart; a command's commit
is answered, if it is executed, no `SAVEPOINT` is refused, and the request
covers what is saved. -/
def AuditSafe (x : External) (services : Services) (engine : Engine) (payload : Json)
    (lockTimeout : Option Thrown) (before : Tables) (faults : List Fault)
    (w : World Tables Effect) : Prop :=
  ∀ ids work, admission x services engine payload = .locked ids work → lockTimeout = none →
    match payload.field? "commandId" with
    | none => ∀ p, queuePlan x engine before payload = some p →
        Undivided x services payload before faults p
    | some _ => w.commitLost = false ∧ w.savepointRefused = false ∧
        Fits x services engine payload before

/-- A call that does not get to its work agrees with its log, and any other is
the tail of its work. -/
theorem queueCall_cases (services : Services) (storedJson : Json → Json)
    (lockTimeout : Option Thrown) (faults : List Fault) (hclock : Clocked before) :
    let r := (queueCall x services engine storedJson payload lockTimeout).run
      (handle (backend patched)) (World.start before faults)
    Agrees x engine payload before r.2 ∧
      (∀ ids work, admission x services engine payload = .locked ids work →
        lockTimeout ≠ none) ∨
    ∃ work methods, lockTimeout = none ∧
      admission x services engine payload = .locked (queueTournamentIds payload) work ∧
      methodList (payload.field? "methods") = some methods ∧
      let body := (runDurableCommand storedJson payload services.commandReceipts fun borrowed =>
        mutate x services engine borrowed payload (queueTournamentIds payload) methods).run
          (handle (backend patched)) (World.start before faults)
      Tail (ListsIds (queueTournamentIds payload) ∧ Throws services payload body.1) body.2 r.2 := by
  intro r
  have hstart : Unwritten before (World.start before faults) :=
    ⟨not_committed_of_same hclock rfl, fun effect hmem => by cases hmem⟩
  cases hadmit : admission x services engine payload with
  | answered answer =>
    refine Or.inl ⟨?_, fun ids work h => by cases h⟩
    simp only [r, queueCall, executionQueue, hadmit, Prog.run_ret]
    exact hstart.agrees
  | thrown error =>
    refine Or.inl ⟨?_, fun ids work h => by cases h⟩
    simp only [r, queueCall, executionQueue, hadmit, Prog.run_fail]
    exact hstart.agrees
  | notIterable ids =>
    refine Or.inl ⟨?_, fun ids work h => by cases h⟩
    simp only [r, queueCall, executionQueue, hadmit]
    exact (hstart.tail (tail_queueCatch ids typeError _)).agrees
  | locked ids work =>
    cases lockTimeout with
    | some error =>
      refine Or.inl ⟨?_, fun ids work _ => Option.some_ne_none error⟩
      simp only [r, queueCall, hadmit]
      exact (hstart.tail (tail_queueCatch ids error _)).agrees
    | none =>
      obtain ⟨methods, rfl, hmethods, hwork⟩ := work_of_admission hadmit
      refine Or.inr ⟨work, methods, rfl, rfl, hmethods, ?_⟩
      simp only [r, queueCall, executionQueue, hadmit, hwork]
      exact tail_guarded services (queueTournamentIds payload) _ _

/-- Work that ends well makes the call agree. -/
theorem WorkEnds.agrees {services : Services} {out : Except Thrown (Option Json)}
    {w' : World Tables Effect} (h : WorkEnds x services engine payload before out w)
    (htail : Tail (ListsIds (queueTournamentIds payload) ∧ Throws services payload out) w w') :
    Agrees x engine payload before w' := by
  rcases h with hunwritten | ⟨⟨answer, rfl⟩, hwarms, hagrees⟩
  · exact (hunwritten.tail htail).agrees
  · refine hagrees.tail htail ?_
    rintro ⟨hids, ⟨e, he⟩ | ⟨hwarm, e, he⟩⟩
    · cases he
    · rw [hwarms hids hwarm] at he
      cases he

/-- In every run that meets the condition the audit log agrees with what the
run has committed, whatever else goes wrong; a run without a command in which
nothing goes wrong agrees under no other condition. -/
theorem audit_agrees (x : External) (services : Services) (engine : Engine)
    (patched : CalendarRow → Json → Json) (storedJson : Json → Json) (payload : Json)
    (lockTimeout : Option Thrown) (tables : Tables) (faults : List Fault)
    (hclock : Clocked tables) :
    let r := (queueCall x services engine storedJson payload lockTimeout).run
      (handle (backend patched)) (World.start tables faults)
    (AuditSafe x services engine payload lockTimeout tables faults r.2 →
      Agrees x engine payload tables r.2) ∧
    (payload.field? "commandId" = none → (∀ fault ∈ faults, fault = .none) →
      Agrees x engine payload tables r.2 →
      AuditSafe x services engine payload lockTimeout tables faults r.2) := by
  intro r
  have hcases := @queueCall_cases x patched engine payload tables services storedJson lockTimeout
    faults hclock
  rcases hcases with ⟨hagrees, hnever⟩ | ⟨work, methods, rfl, hadmit, hmethods, htail⟩
  · exact ⟨fun _ => hagrees, fun _ _ _ ids work hadmit hlock => (hnever ids work hadmit hlock).elim⟩
  have hplan : queuePlan x engine tables payload =
      mutationPlan x engine tables payload (queueTournamentIds payload) methods := by
    rw [queuePlan, hmethods, Option.bind_some]
  unfold runDurableCommand at htail
  cases hc : payload.field? "commandId" with
  | none =>
    simp only [hc] at htail
    have hends := @pooledEnds_mutate x patched engine payload tables services methods faults hplan
    refine ⟨fun hsafe => ?_, fun _ hcalm hagrees ids work' _ _ => ?_⟩
    · have hundivided := hsafe _ _ hadmit rfl
      rw [hc] at hundivided
      exact (hends.workEnds hclock hundivided).agrees htail
    · rw [hc]
      exact fun p hp => hends.undivided hclock hcalm htail hagrees hp
  | some id =>
    simp only [hc] at htail
    refine ⟨fun hsafe => ?_, fun h => by cases h⟩
    obtain ⟨hlost, hflag, hfits⟩ := by
      have hcommand := hsafe _ _ hadmit rfl
      rw [hc] at hcommand
      exact hcommand
    cases hstorage : services.commandReceipts with
    | true =>
      simp only [hstorage, if_true] at htail
      exact (durable_workEnds storedJson hclock hplan hfits (htail.commitLost.symm.trans hlost)
        (htail.savepointRefused.symm.trans hflag)).agrees htail
    | false =>
      simp only [hstorage, Bool.false_eq_true, if_false] at htail
      have hstart : Unwritten tables (World.start tables faults) :=
        ⟨not_committed_of_same hclock rfl, fun effect hmem => by cases hmem⟩
      exact (hstart.tail htail).agrees

/-! ## Two runs -/

/-- An engine that deletes a draw of a tournament, and succeeds. -/
def deletingEngine (tournamentId : String) : Engine where
  executionQueue loaded _ _ :=
    ⟨[.auditDrawDeletion tournamentId "draw-1"],
      .ok ⟨.obj [("success", .bool true)], loaded, [], .ok []⟩, by simp [Effect.ofNotice]⟩
  findMatchUp _ _ := .ok none
  isTestDataMethod _ := false

/-- Two stored tournaments, the second of them owned by a newer epoch. -/
def storedTables : Tables where
  __ := emptyTables
  tournaments id :=
    if id = "test" then some ⟨plainRecord "test" none, 0, 0⟩
    else if id = "test-2" then some ⟨plainRecord "test-2" none, 1, 0⟩
    else none

theorem clocked_storedTables : Clocked storedTables := by
  intro id row h
  simp only [storedTables] at h
  split_ifs at h <;> cases h <;> exact Nat.zero_lt_one

/-- A mutation of one tournament as a durable command. -/
def durablePayload : Json :=
  .obj [("tournamentIds", .arr [.str "test"]), ("commandId", .str "command-1"),
    ("commandActor", .str "user-1"), ("commandFingerprint", .str
      "0123456789abcdef0123456789abcdef0123456789abcdef0123456789abcdef")]

/-- A mutation of both tournaments without a command id. -/
def pooledPayload : Json := .obj [("tournamentIds", .arr [.str "test", .str "test-2"])]

/-- A call that deletes a draw of the given tournament. -/
def deletingRun (tournamentId : String) (payload : Json) (faults : List Fault) :
    Except Thrown Json × World Tables Effect :=
  (queueCall plainExternal plainServices (deletingEngine tournamentId) id payload none).run
    (handle (backend fun row _ => row.entry)) (World.start storedTables faults)

/-- The durable command commits the record without the draw, and says so. -/
theorem audit_agrees_sample :
    Agrees plainExternal (deletingEngine "test") durablePayload storedTables
      (deletingRun "test" durablePayload []).2 := by
  refine (audit_agrees plainExternal plainServices (deletingEngine "test")
    (fun row _ => row.entry) id durablePayload none storedTables [] clocked_storedTables).1
    fun _ _ _ _ => ⟨by decide, by decide, ?_⟩
  intro identity p records _ _ hp hrecords
  have hplan : queuePlan plainExternal (deletingEngine "test") storedTables durablePayload =
      some ⟨[.auditDrawDeletion "test" "draw-1"], some [("test", plainRecord "test" none)]⟩ := rfl
  obtain rfl := Option.some.inj (hp.symm.trans hplan)
  obtain rfl := Option.some.inj hrecords
  have hid : rowId plainExternal (plainRecord "test" none) = some "test" := rfl
  have htexts : ((queueTournamentIds durablePayload).iterate?.getD []).map plainExternal.pg.text =
      ["test"] := rfl
  refine ⟨⟨fun id => ?_, fun id drawId h => ?_⟩, fun _ h => by cases h⟩
  · simp [htexts, Holds, hid, eq_comm]
  · obtain ⟨rfl, -⟩ : id = "test" ∧ drawId = "draw-1" := by simpa using h
    exact ⟨_, List.mem_singleton.mpr rfl, hid⟩

/-- Without a command, a save fenced at its second record leaves the first one
committed without a row, and the row of a deletion that was not committed. When
the answer of a command's commit is lost, what it committed is recorded as
rejected. -/
theorem audit_disagrees :
    ¬ Agrees plainExternal (deletingEngine "test-2") pooledPayload storedTables
      (deletingRun "test-2" pooledPayload []).2 ∧
    ¬ Agrees plainExternal (deletingEngine "test") durablePayload storedTables
      (deletingRun "test" durablePayload (List.replicate 14 .none ++ [.lostAfter])).2 := by
  refine ⟨fun h => ?_, fun h => ?_⟩
  · have hrow : .deleteDraw "test-2" "draw-1" ∈
        auditLog plainExternal pooledPayload (deletingRun "test-2" pooledPayload []).2 := by decide
    have hcommitted := ((h.deleted _ _).mp hrow).2
    revert hcommitted
    decide
  · have hrow : .mutation "test" .rejected ∈ auditLog plainExternal durablePayload
        (deletingRun "test" durablePayload (List.replicate 14 .none ++ [.lostAfter])).2 := by decide
    have hnothing := h.rejected _ hrow "test"
    revert hnothing
    decide

end FactoryServer.AuditAgreement
