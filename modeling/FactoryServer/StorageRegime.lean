import FactoryServer.StorageFrames

/-!
# Reasoning about storage code

The rules by which the storage functions are verified, once for every way they
run. A regime says what is known of the tables the code sees, and what of them
when a statement fails: inside a command or outside, with failures to come or
without. From its rules for single statements follow the rules of the save loop
and of the projection.
-/

namespace FactoryServer.StorageRegime

open JsonValue AsyncProgram TournamentAccess CommandTransaction CommandSession StorageTables
  TournamentStorage ExecutionQueue StorageFrames
open AsyncProgram.Prog (Ensures Keeps)

/-- Statements that keep a property of the tables. -/
def KeepsProperty (P : Tables → Prop) (st : Statement) : Prop := ∀ t, P t → P (exec st t).1

/-- The postcondition of one statement. -/
def Answered {α : Type} (holds : (Tables → Prop) → World Tables Effect → Prop)
    (stopped : World Tables Effect → Prop) (Q : α → Tables → Prop) :
    Except Thrown α → World Tables Effect → Prop
  | .ok a => holds (Q a)
  | .error _ => stopped

/-- A way in which storage code runs. -/
structure Regime (x : External) (patched : CalendarRow → Json → Json) (borrowed : Bool) where
  /-- The tables the code sees have a property. -/
  holds : (Tables → Prop) → World Tables Effect → Prop
  /-- A statement that leads from one property to another has failed. -/
  stopped : (Tables → Prop) → (Tables → Prop) → World Tables Effect → Prop
  /-- Statements may fail. -/
  faulty : Prop
  mono : ∀ {P Q w}, (∀ t, P t → Q t) → holds P w → holds Q w
  stopped_mono : ∀ {P P' Q Q' w}, (∀ t, P t → P' t) → (∀ t, Q t → P' t ∨ Q' t) → stopped P Q w →
    stopped P' Q' w
  stopped_of_holds : ∀ {P w} Q, holds P w → stopped P Q w
  holds_of_stopped : ∀ {P w}, stopped P P w → holds P w
  statement : ∀ (st : Statement) {P : Tables → Prop} {Q : st.Answer → Tables → Prop},
    (∀ t, P t → Q (exec st t).2 (exec st t).1) →
    Ensures (handle (backend patched)) (holds P) (queryClient borrowed st)
      (Answered holds (fun w => faulty ∧ stopped P (fun t => ∃ a, Q a t) w) Q)
  replaceTournamentRows : ∀ {P : Tables → Prop} {id : String} (rows : List ParticipationRow),
    (∀ fingerprint, KeepsProperty P (.claimFingerprint id fingerprint)) →
    KeepsProperty P (.deleteParticipation id) →
    (∀ rows, KeepsProperty P (.insertParticipation id rows)) →
    Keeps (handle (backend patched)) (holds P) (replaceTournamentRows x borrowed id rows)
  enqueue : ∀ {P : Tables → Prop}, (∀ st, Projects st → KeepsProperty P st) →
    ∀ deltas, Keeps (handle (backend patched)) (holds P) (enqueue borrowed deltas)
  request : ∀ {P : Tables → Prop}, (∀ st, Projects st → KeepsProperty P st) →
    ∀ table ids source, Keeps (handle (backend patched)) (holds P)
      (request x borrowed table ids source)
  afterCommandCommit : ∀ {P : Tables → Prop} (effect : Effect),
    (∀ t, P t → P ((backend patched).effect effect t)) →
    Keeps (handle (backend patched)) (holds P) (afterCommandCommit borrowed effect)

/-- A program that keeps `I` and never throws. -/
def Soft (patched : CalendarRow → Json → Json) (I : World Tables Effect → Prop) (p : Store Unit) :
    Prop :=
  Ensures (handle (backend patched)) I p fun out w => out = .ok () ∧ I w

variable {x : External} {patched : CalendarRow → Json → Json} {borrowed : Bool}
  {I : World Tables Effect → Prop}

theorem soft_ret : Soft patched I (.ret ()) := fun _ hw => ⟨rfl, hw⟩

theorem Soft.bind {p : Store Unit} {f : Unit → Store Unit} (hp : Soft patched I p)
    (hf : Soft patched I (f ())) : Soft patched I (p.bind f) :=
  Prog.ensures_bind hp (fun _ => hf.mono (fun _ hw => hw.2) fun _ _ h => h)
    fun e w hw => (by cases hw.1)

theorem Soft.forEach {γ : Type} {items : List γ} {body : γ → Store Unit}
    (h : ∀ item ∈ items, Soft patched I (body item)) :
    Soft patched I (Prog.forEach items body) := by
  induction items with
  | nil => exact soft_ret
  | cons item rest ih =>
    have hrest := ih fun y hy => h y (List.mem_cons_of_mem item hy)
    exact (h item List.mem_cons_self).bind hrest

theorem soft_failSoft {p : Store Unit} (h : Keeps (handle (backend patched)) I p) :
    Soft patched I (failSoft p) :=
  Prog.ensures_tryCatch h (fun _ _ hw => ⟨rfl, hw⟩) fun _ => Prog.ensures_ret fun _ hw => ⟨rfl, hw⟩

namespace Regime

variable (R : Regime x patched borrowed) {P Q : Tables → Prop}

/-- After a failed statement that keeps `P`, whether it was executed or not. -/
theorem holds_of_failed {α : Type} {w : World Tables Effect}
    (h : R.stopped P (fun t => ∃ _ : α, P t) w) : R.holds P w := by
  have hstopped : R.stopped P P w :=
    R.stopped_mono (fun _ h => h) (fun _ h => Or.inl (h.elim fun _ h => h)) h
  exact R.holds_of_stopped hstopped

/-! ## The projection -/

/-- The effects the queue defers catch their own failures. -/
theorem soft_defer (effect : Effect) (h : ∀ t, P t → P ((backend patched).effect effect t)) :
    Soft patched (R.holds P) (defer borrowed effect) :=
  soft_failSoft (R.afterCommandCommit effect h)

theorem soft_flushProjection (h : ∀ st, Projects st → KeepsProperty P st) (services : Services)
    (outcome : EngineOutcome) (methods : List Json) (ids : Json) :
    Soft patched (R.holds P) (flushProjection x services borrowed outcome methods ids) := by
  unfold flushProjection
  split_ifs
  · refine Soft.bind (soft_failSoft ?_) (soft_failSoft ?_)
    · cases outcome.deltas with
      | error e => exact Prog.keeps_fail e
      | ok deltas => exact R.enqueue h deltas
    · dsimp only
      split_ifs
      · exact Prog.keeps_ret ()
      · exact R.request h _ _ _
  · exact soft_ret

theorem soft_enqueueSnapshots (h : ∀ st, Projects st → KeepsProperty P st) (services : Services)
    (records : RecordMap) (source : String) :
    Soft patched (R.holds P) (enqueueSnapshots x services borrowed records source) := by
  unfold enqueueSnapshots
  dsimp only
  split_ifs
  · exact soft_ret
  · exact (soft_failSoft (R.request h _ _ _)).bind (soft_failSoft (R.request h _ _ _))
  · refine (soft_failSoft (R.request h _ _ _)).bind
      (Soft.forEach fun record _ => soft_failSoft ?_)
    cases services.snapshotDeltas record.2 with
    | error e => exact Prog.keeps_fail e
    | ok deltas => exact R.enqueue h deltas

end Regime

/-! ## One record -/

/-- The calendar entry of a listed record cannot be derived. -/
def CalendarThrows (x : External) (providers : String → Option Provider) (userId : Option String)
    (record : TournamentRecord) : Prop :=
  ∃ providerId e, getTournamentProviderId (stampCreatedBy userId record) = some providerId ∧
    isCalendarListed (stampCreatedBy userId record) = true ∧
    (providers providerId).isSome = true ∧
    getCalendarEntry x (stampCreatedBy userId record) = .error e

/-- The record can be saved on top of these rows. -/
structure Savable (x : External) (ownerEpoch : Nat) (userId : Option String)
    (providers : String → Option Provider) (rows : String → Option TournamentRow)
    (record : TournamentRecord) : Prop where
  allowed : ∃ key, recordKey record = some key ∧ hasProviderOrTestId key record = .ok true
  calendar : ¬ CalendarThrows x providers userId record
  fence : ∀ id row, rowId x record = some id → rows id = some row → row.ownerEpoch ≤ ownerEpoch

/-- Saving a record fences no other one, and opens no fence. -/
theorem Savable.update_iff {ownerEpoch updatedAt : Nat} {userId : Option String}
    {providers : String → Option Provider} {rows : String → Option TournamentRow} {id : String}
    {record saved other : TournamentRecord} (hid : rowId x record = some id)
    (h : Savable x ownerEpoch userId providers rows record) :
    Savable x ownerEpoch userId providers
      (Function.update rows id (some ⟨saved, ownerEpoch, updatedAt⟩)) other ↔
      Savable x ownerEpoch userId providers rows other := by
  constructor
  · intro ho
    refine ⟨ho.allowed, ho.calendar, fun id' row hid' hrow => ?_⟩
    by_cases he : id' = id
    · subst he
      exact h.fence id' row hid hrow
    · exact ho.fence id' row hid' (by rwa [Function.update_of_ne he])
  · intro ho
    refine ⟨ho.allowed, ho.calendar, fun id' row hid' hrow => ?_⟩
    by_cases he : id' = id
    · subst he
      rw [Function.update_self] at hrow
      cases hrow
      exact Nat.le_refl _
    · rw [Function.update_of_ne he] at hrow
      exact ho.fence id' row hid' hrow

/-- What saving leaves alone: a property that the statements saving a record
keep once the record counts as touched. -/
structure Frame (x : External) (ownerEpoch : Nat) (userId : Option String) where
  /-- The property, given the records touched so far. -/
  rest : RecordMap → Tables → Prop
  /-- The times a save may be stamped with. -/
  stamps : Nat → Prop
  now : ∀ {touched t}, rest touched t → stamps t.now
  more : ∀ {touched record t}, rest touched t → rest (touched ++ [record]) t
  keeps : ∀ {touched : RecordMap} {record : String × TournamentRecord} {st : Statement},
    Saves x ownerEpoch userId record.2 st → KeepsProperty (rest (touched ++ [record])) st

/-- The frame with a fact that does not depend on the tables. -/
def Frame.given {ownerEpoch : Nat} {userId : Option String} (frame : Frame x ownerEpoch userId)
    (φ : Prop) : Frame x ownerEpoch userId where
  rest touched t := φ ∧ frame.rest touched t
  stamps := frame.stamps
  now h := frame.now h.2
  more h := ⟨h.1, frame.more h.2⟩
  keeps h t ht := ⟨ht.1, frame.keeps h t ht.2⟩

/-- Tables with these rows and providers, and the frame. -/
structure Frame.At {ownerEpoch : Nat} {userId : Option String} (frame : Frame x ownerEpoch userId)
    (providers : String → Option Provider) (rows : String → Option TournamentRow)
    (touched : RecordMap) (t : Tables) : Prop where
  tournaments : t.tournaments = rows
  providers : t.providers = providers
  rest : frame.rest touched t

section Record

variable {ownerEpoch : Nat} {userId : Option String} {frame : Frame x ownerEpoch userId}
  {providers : String → Option Provider} {rows : String → Option TournamentRow}
  {touched : RecordMap}

/-- A record counts as touched once its save has begun. -/
theorem Frame.At.more {record : String × TournamentRecord} {t : Tables}
    (h : frame.At providers rows touched t) : frame.At providers rows (touched ++ [record]) t :=
  ⟨h.tournaments, h.providers, frame.more h.rest⟩

theorem exec_providers (st : Statement) (t : Tables) : (exec st t).1.providers = t.providers := by
  cases st with
  | upsertTournament id record ownerEpoch =>
    simp only [exec, upsertTournament]
    cases t.tournaments id with
    | none => rfl
    | some row => dsimp only; split_ifs <;> rfl
  | claimFingerprint id fingerprint => simp only [exec]; split_ifs <;> rfl
  | _ => rfl

/-- The statements that save a record, the upsert apart, keep the tables as they are
described. -/
theorem keepsProperty_at {record : String × TournamentRecord} {st : Statement}
    (h : Saves x ownerEpoch userId record.2 st)
    (hst : ∀ id, ¬ st.Changes id) :
    KeepsProperty (frame.At providers rows (touched ++ [record])) st := fun t ht =>
  ⟨(exec_keeps_tournaments hst t).trans ht.tournaments, (exec_providers st t).trans ht.providers,
    frame.keeps h t ht.rest⟩

/-- The rows with a record saved on top. -/
def saveRow (ownerEpoch : Nat) (userId : Option String) (rows : String → Option TournamentRow)
    (record : TournamentRecord) (id : String) (updatedAt : Nat) :
    String → Option TournamentRow :=
  Function.update rows id (some ⟨stampCreatedBy userId record, ownerEpoch, updatedAt⟩)

/-- What saving a record comes to in a regime. -/
def RecordSaved (R : Regime x patched borrowed) (frame : Frame x ownerEpoch userId)
    (providers : String → Option Provider) (rows : String → Option TournamentRow)
    (touched : RecordMap) (record : TournamentRecord) (out : Except Thrown SaveResult)
    (w : World Tables Effect) : Prop :=
  let savable := Savable x ownerEpoch userId providers rows record
  match out with
  | .ok (.ok _) => ∃ id updatedAt, rowId x record = some id ∧ R.holds
      (fun t => (savable ∧ frame.stamps updatedAt) ∧
        frame.At providers (saveRow ownerEpoch userId rows record id updatedAt) touched t) w
  | .ok (.error _) => R.holds (fun t => ¬ savable ∧ frame.At providers rows touched t) w
  | .error _ => R.stopped
      (fun t => (R.faulty ∨ ¬ savable) ∧ frame.At providers rows touched t)
      (fun t => R.faulty ∧ ∃ id updatedAt, rowId x record = some id ∧
        (savable ∧ frame.stamps updatedAt) ∧
          frame.At providers (saveRow ownerEpoch userId rows record id updatedAt) touched t) w

variable (R : Regime x patched borrowed) (key : String) (record : TournamentRecord)

/-- The calendar step: it throws for a statement that failed, or because the
entry cannot be derived. -/
theorem Regime.ensures_calendar :
    Ensures (handle (backend patched))
      (R.holds (frame.At providers rows (touched ++ [(key, record)])))
      (match getTournamentProviderId (stampCreatedBy userId record) with
      | some providerId =>
        if isCalendarListed (stampCreatedBy userId record) then
          addToOrUpdateCalendar x borrowed providerId (stampCreatedBy userId record)
        else .ret ()
      | none => .ret () : Store Unit)
      fun out => R.holds fun t => (match out with
        | .ok _ => ¬ CalendarThrows x providers userId record
        | .error _ => R.faulty ∨ CalendarThrows x providers userId record) ∧
          frame.At providers rows (touched ++ [(key, record)]) t := by
  have hkeeps : ∀ st, Saves x ownerEpoch userId record st →
      (∀ id, ¬ st.Changes id) →
      KeepsProperty (frame.At providers rows (touched ++ [(key, record)])) st :=
    fun st h hst => keepsProperty_at h hst
  cases hp : getTournamentProviderId (stampCreatedBy userId record) with
  | none =>
    have hnot : ¬ CalendarThrows x providers userId record := by
      rintro ⟨providerId, e, h, -⟩
      rw [hp] at h
      cases h
    exact Prog.ensures_ret fun w hw => R.mono (fun t ht => ⟨hnot, ht⟩) hw
  | some providerId =>
    dsimp only
    by_cases hlisted : isCalendarListed (stampCreatedBy userId record) = true
    · rw [if_pos hlisted]
      have hselect := R.statement (.selectProvider providerId)
        (P := frame.At providers rows (touched ++ [(key, record)]))
        (Q := fun a t => a = providers providerId ∧
          frame.At providers rows (touched ++ [(key, record)]) t)
        fun t ht => ⟨congrFun ht.providers providerId, ht⟩
      refine Prog.ensures_bind hselect (fun provider => ?_) fun e w hw => ?_
      · cases provider with
        | none =>
          refine Prog.ensures_ret fun w hw => R.mono (fun t ht => ⟨?_, ht.2⟩) hw
          rintro ⟨providerId', e, h, -, hsome, -⟩
          rw [hp] at h
          cases h
          rw [← ht.1] at hsome
          cases hsome
        | some provider =>
          cases he : getCalendarEntry x (stampCreatedBy userId record) with
          | error e =>
            refine Prog.ensures_fail fun w hw => R.mono (fun t ht => ⟨Or.inr ?_, ht.2⟩) hw
            exact ⟨providerId, e, hp, hlisted, by rw [← ht.1]; rfl, he⟩
          | ok entry =>
            have hnot : ¬ CalendarThrows x providers userId record := by
              rintro ⟨providerId', e, -, -, -, h⟩
              rw [he] at h
              cases h
            have hdone : ∀ w, R.holds (fun t => some provider = providers providerId ∧
                frame.At providers rows (touched ++ [(key, record)]) t) w →
                R.holds (fun t => ¬ CalendarThrows x providers userId record ∧
                  frame.At providers rows (touched ++ [(key, record)]) t) w :=
              fun w hw => R.mono (fun t ht => ⟨hnot, ht.2⟩) hw
            dsimp only
            cases hk : entry.field? "tournamentId" with
            | none => exact Prog.ensures_ret hdone
            | some id =>
              dsimp only
              split_ifs
              · have hupsert := R.statement (.upsertCalendar
                    ⟨x.pg.text id, providerId, provider.organisationAbbreviation, entry⟩)
                  (P := frame.At providers rows (touched ++ [(key, record)]))
                  (Q := fun _ => frame.At providers rows (touched ++ [(key, record)]))
                  (hkeeps _ (.calendar he hk rfl) (fun _ => not_false))
                refine hupsert.mono (fun w hw => R.mono (fun t ht => ht.2) hw) fun out w hw => ?_
                cases out with
                | ok a => exact R.mono (fun t ht => ⟨hnot, ht⟩) hw
                | error e =>
                  exact R.mono (fun t ht => ⟨Or.inl hw.1, ht⟩) (R.holds_of_failed hw.2)
              · exact Prog.ensures_ret hdone
      · have hat : R.stopped (frame.At providers rows (touched ++ [(key, record)]))
            (frame.At providers rows (touched ++ [(key, record)])) w :=
          R.stopped_mono (fun _ h => h) (fun _ h => Or.inl (h.elim fun _ h => h.2)) hw.2
        exact R.mono (fun t ht => ⟨Or.inl hw.1, ht⟩) (R.holds_of_stopped hat)
    · rw [if_neg hlisted]
      have hnot : ¬ CalendarThrows x providers userId record := by
        rintro ⟨providerId', e, -, h, -⟩
        exact hlisted h
      exact Prog.ensures_ret fun w hw => R.mono (fun t ht => ⟨hnot, ht⟩) hw

/-- The participation step never throws. -/
theorem Regime.soft_participation (φ : Prop) {recordId : Json}
    (hkey : recordKey record = some recordId) :
    Soft patched (R.holds fun t => φ ∧ frame.At providers rows (touched ++ [(key, record)]) t)
      (updateParticipationIndex x borrowed (stampCreatedBy userId record)) := by
  have hkeeps : ∀ st, Saves x ownerEpoch userId record st →
      (∀ id, ¬ st.Changes id) →
      KeepsProperty (fun t => φ ∧ frame.At providers rows (touched ++ [(key, record)]) t) st :=
    fun st h hst t ht => ⟨ht.1, keepsProperty_at h hst t ht.2⟩
  have hid := rowId_of_recordKey (x := x) hkey
  refine soft_failSoft ?_
  cases x.getParticipation (stampCreatedBy userId record) with
  | error e => exact Prog.keeps_fail e
  | ok participation =>
    rw [rowId_stampCreatedBy, hid]
    exact R.replaceTournamentRows participation
      (fun _ => hkeeps _ (.claim hid _) (fun _ => not_false)) (hkeeps _ (.delete hid) (fun _ => not_false))
      fun _ => hkeeps _ (.insert hid _) (fun _ => not_false)

/-- What the fenced upsert of a record comes to, by its answer. -/
def Frame.Upserted (frame : Frame x ownerEpoch userId) (providers : String → Option Provider)
    (rows : String → Option TournamentRow) (touched : RecordMap) (record : TournamentRecord)
    (id : String) : Option Nat → Tables → Prop
  | some updatedAt => fun t => (∀ row, rows id = some row → row.ownerEpoch ≤ ownerEpoch) ∧
    frame.stamps updatedAt ∧
      frame.At providers (saveRow ownerEpoch userId rows record id updatedAt) touched t
  | none => fun t => (¬ ∀ row, rows id = some row → row.ownerEpoch ≤ ownerEpoch) ∧
    frame.At providers rows touched t

theorem upserted {id : String} (hid : rowId x record = some id) (t : Tables)
    (ht : frame.At providers rows (touched ++ [(key, record)]) t) :
    frame.Upserted providers rows (touched ++ [(key, record)]) record id
      (exec (.upsertTournament id (stampCreatedBy userId record) ownerEpoch) t).2
      (exec (.upsertTournament id (stampCreatedBy userId record) ownerEpoch) t).1 := by
  let st : Statement := .upsertTournament id (stampCreatedBy userId record) ownerEpoch
  have hproviders : (exec st t).1.providers = providers :=
    (exec_providers st t).trans ht.providers
  have hsaves : Saves x ownerEpoch userId (key, record).2 st := .upsert hid
  have hrest : frame.rest (touched ++ [(key, record)]) (exec st t).1 :=
    frame.keeps hsaves t ht.rest
  have hexec := exec_upsert_tournaments t id (stampCreatedBy userId record) ownerEpoch
  have hfence : (exec st t).2 = some t.now ∧
        (∀ row, rows id = some row → row.ownerEpoch ≤ ownerEpoch) ∨
      (exec st t).2 = none ∧ ¬ ∀ row, rows id = some row → row.ownerEpoch ≤ ownerEpoch := by
    rw [← ht.tournaments]
    simp only [st, exec, upsertTournament]
    cases t.tournaments id with
    | none => simp
    | some row => dsimp only; split_ifs with h <;> simp [h]
  rcases hfence with ⟨hr, hfence⟩ | ⟨hr, hfence⟩
  · rw [hr] at hexec ⊢
    have hrows := hexec.trans (congrArg (Function.update · id _) ht.tournaments)
    exact ⟨hfence, frame.now ht.rest, hrows, hproviders, hrest⟩
  · rw [hr] at hexec ⊢
    have hrows : (exec st t).1.tournaments = rows := by
      rw [hexec]
      exact ht.tournaments
    exact ⟨hfence, hrows, hproviders, hrest⟩

/-- The rule of the upsert, for a record whose other checks passed. -/
theorem Regime.ensures_upsert {recordId : Json} (hkey : recordKey record = some recordId)
    (hallowed : hasProviderOrTestId recordId record = .ok true) :
    Ensures (handle (backend patched))
      (R.holds fun t => ¬ CalendarThrows x providers userId record ∧
        frame.At providers rows (touched ++ [(key, record)]) t)
      (PostgresTournamentStorage.saveTournamentRecord x borrowed (stampCreatedBy userId record)
        ownerEpoch)
      (RecordSaved R frame providers rows (touched ++ [(key, record)]) record) := by
  have hid := rowId_of_recordKey (x := x) hkey
  have hsavable : ¬ CalendarThrows x providers userId record →
      ((∀ row, rows (x.pg.text recordId) = some row → row.ownerEpoch ≤ ownerEpoch) ↔
        Savable x ownerEpoch userId providers rows record) := by
    refine fun hcalendar => ⟨fun h => ⟨⟨recordId, hkey, hallowed⟩, hcalendar, ?_⟩, fun h row hrow =>
      h.fence _ row hid hrow⟩
    intro id row hid' hrow
    rw [hid] at hid'
    cases hid'
    exact h row hrow
  unfold PostgresTournamentStorage.saveTournamentRecord
  rw [recordKey_stampCreatedBy, hkey]
  dsimp only
  have hstatement := R.statement
    (.upsertTournament (x.pg.text recordId) (stampCreatedBy userId record) ownerEpoch)
    (P := fun t => ¬ CalendarThrows x providers userId record ∧
      frame.At providers rows (touched ++ [(key, record)]) t)
    (Q := fun a t => ¬ CalendarThrows x providers userId record ∧
      frame.Upserted providers rows (touched ++ [(key, record)]) record (x.pg.text recordId) a t)
    fun t ht => ⟨ht.1, upserted key record hid t ht.2⟩
  refine Prog.ensures_bind hstatement (fun row => ?_) fun e w hw => ?_
  · cases row with
    | none =>
      refine Prog.ensures_ret fun w hw => R.mono (fun t ht => ⟨fun hs => ?_, ht.2.2⟩) hw
      exact ht.2.1 ((hsavable ht.1).mpr hs)
    | some updatedAt =>
      exact Prog.ensures_ret fun w hw => ⟨_, updatedAt, hid,
        R.mono (fun t ht => ⟨⟨(hsavable ht.1).mp ht.2.1, ht.2.2.1⟩, ht.2.2.2⟩) hw⟩
  · refine R.stopped_mono (fun t ht => ⟨Or.inl hw.1, ht.2⟩) (fun t ht => ?_) hw.2
    obtain ⟨a, hcalendar, ha⟩ := ht
    cases a with
    | none => exact Or.inl ⟨Or.inl hw.1, ha.2⟩
    | some updatedAt =>
      exact Or.inr ⟨hw.1, _, updatedAt, hid, ⟨(hsavable hcalendar).mp ha.1, ha.2.1⟩, ha.2.2⟩

/-- The rule of saving one record. -/
theorem Regime.ensures_saveTournamentRecord :
    Ensures (handle (backend patched)) (R.holds (frame.At providers rows touched))
      (saveTournamentRecord x borrowed ownerEpoch userId record)
      (RecordSaved R frame providers rows (touched ++ [(key, record)]) record) := by
  have hmore : ∀ {w}, R.holds (frame.At providers rows touched) w →
      R.holds (frame.At providers rows (touched ++ [(key, record)])) w :=
    R.mono fun t ht => ht.more
  have hnot : (∀ id, recordKey record = some id → hasProviderOrTestId id record ≠ .ok true) →
      ¬ Savable x ownerEpoch userId providers rows record := fun h hs => by
    obtain ⟨id, hid, ha⟩ := hs.allowed
    exact h id hid ha
  unfold saveTournamentRecord
  cases hkey : recordKey record with
  | none =>
    refine Prog.ensures_ret fun w hw => R.mono (fun t ht => ⟨hnot ?_, ht⟩) (hmore hw)
    rw [hkey]
    simp
  | some recordId =>
    have hid := rowId_of_recordKey (x := x) hkey
    dsimp only
    cases hallowed : hasProviderOrTestId recordId record with
    | error e =>
      have hn : ¬ Savable x ownerEpoch userId providers rows record := hnot (by simp [hkey, hallowed])
      exact Prog.ensures_fail fun w hw =>
        R.stopped_of_holds _ (R.mono (fun t ht => ⟨Or.inr hn, ht⟩) (hmore hw))
    | ok allowed =>
      cases allowed with
      | false =>
        have hn : ¬ Savable x ownerEpoch userId providers rows record :=
          hnot (by simp [hkey, hallowed])
        exact Prog.ensures_ret fun w hw => R.mono (fun t ht => ⟨hn, ht⟩) (hmore hw)
      | true =>
        unfold writeRecord
        refine Prog.ensures_bind ((R.ensures_calendar key record).mono (fun w hw => hmore hw)
          fun _ _ h => h) (fun _ => ?_) fun e w hw => ?_
        · refine Prog.ensures_bind (R.soft_participation key record _ hkey) (fun _ => ?_)
            fun e w hw => (by cases hw.1)
          exact (R.ensures_upsert key record hkey hallowed).mono (fun w hw => hw.2) fun _ _ h => h
        · refine R.stopped_of_holds _ (R.mono (fun t ht => ⟨ht.1.imp_right ?_, ht.2⟩) hw)
          exact fun hthrows hs => hs.calendar hthrows

/-! ## The loop -/

/-- Tables after the first `k` records were saved, the next one at most touched. -/
structure Frame.SavedUpTo (frame : Frame x ownerEpoch userId)
    (providers : String → Option Provider) (rows : String → Option TournamentRow)
    (touched records : RecordMap) (k : Nat) (t : Tables) : Prop where
  savable : ∀ r ∈ records.take k, Savable x ownerEpoch userId providers rows r.2
  saved : SavedRows x ownerEpoch userId rows (records.take k) t.tournaments
  stamped : ∀ r ∈ records.take k, ∀ id, rowId x r.2 = some id →
    ∃ row, t.tournaments id = some row ∧ frame.stamps row.updatedAt
  providers : t.providers = providers
  rest : frame.rest (touched ++ records.take (k + 1)) t

/-- The loop has stopped at its `k`-th record. -/
def Frame.StoppedAt (frame : Frame x ownerEpoch userId) (faulty : Prop)
    (providers : String → Option Provider) (rows : String → Option TournamentRow)
    (touched records : RecordMap) (t : Tables) : Prop :=
  ∃ k r, records[k]? = some r ∧
    (faulty ∨ ¬ Savable x ownerEpoch userId providers rows r.2) ∧
    frame.SavedUpTo providers rows touched records k t

/-- What the loop comes to in a regime. -/
def LoopEnds (R : Regime x patched borrowed) (frame : Frame x ownerEpoch userId)
    (providers : String → Option Provider) (rows : String → Option TournamentRow)
    (touched records : RecordMap) : Except Thrown SaveResults → World Tables Effect → Prop
  | .ok (.ok _) => R.holds (frame.SavedUpTo providers rows touched records records.length)
  | .ok (.error _) => R.holds (frame.StoppedAt False providers rows touched records)
  | .error _ => R.stopped (frame.StoppedAt R.faulty providers rows touched records) fun t =>
      R.faulty ∧ ∃ k ≤ records.length, frame.SavedUpTo providers rows touched records k t

/-- Before the first record nothing is saved. -/
theorem Frame.At.savedUpTo {head : String × TournamentRecord} {rest : RecordMap} {t : Tables}
    (h : frame.At providers rows (touched ++ [head]) t) :
    frame.SavedUpTo providers rows touched (head :: rest) 0 t where
  savable r hr := by cases hr
  saved := by
    rw [h.tournaments]
    exact savedRows_nil _ _ _
  stamped r hr := by cases hr
  providers := h.providers
  rest := by simpa using h.rest

/-- Saving the first record moves the description of the others on. -/
theorem Frame.SavedUpTo.cons {rest : RecordMap} {k : Nat} {id : String} {updatedAt : Nat}
    {t : Tables} (hid : rowId x record = some id)
    (h : (frame.given (Savable x ownerEpoch userId providers rows record ∧
      frame.stamps updatedAt)).SavedUpTo providers
      (saveRow ownerEpoch userId rows record id updatedAt) (touched ++ [(key, record)]) rest k t) :
    frame.SavedUpTo providers rows touched ((key, record) :: rest) (k + 1) t where
  savable r hr := by
    have hsavable := h.rest.1.1
    rw [List.take_succ_cons] at hr
    rcases List.mem_cons.mp hr with rfl | hr
    · exact hsavable
    · exact (Savable.update_iff hid hsavable).mp (h.savable r hr)
  saved := savedRows_cons hid h.saved
  stamped r hr id' hid' := by
    rw [List.take_succ_cons] at hr
    rcases List.mem_cons.mp hr with rfl | hr
    · rw [hid] at hid'
      cases hid'
      cases hl : lastRecord x (rest.take k) id with
      | none =>
        have hrow := h.saved id
        rw [hl] at hrow
        exact ⟨⟨stampCreatedBy userId record, ownerEpoch, updatedAt⟩,
          hrow.trans (Function.update_self ..), h.rest.1.2⟩
      | some last =>
        obtain ⟨r', hr', hid'⟩ := exists_of_lastRecord hl
        exact h.stamped r' hr' id hid'
    · exact h.stamped r hr id' hid'
  providers := h.providers
  rest := by simpa using h.rest.2

theorem Frame.StoppedAt.cons {faulty : Prop} {rest : RecordMap} {id : String} {updatedAt : Nat}
    {t : Tables} (hid : rowId x record = some id)
    (h : (frame.given (Savable x ownerEpoch userId providers rows record ∧
      frame.stamps updatedAt)).StoppedAt faulty providers
      (saveRow ownerEpoch userId rows record id updatedAt) (touched ++ [(key, record)])
      rest t) :
    frame.StoppedAt faulty providers rows touched ((key, record) :: rest) t := by
  obtain ⟨k, r, hr, hwhy, hs⟩ := h
  have hsavable := hs.rest.1.1
  have hwhy' : faulty ∨ ¬ Savable x ownerEpoch userId providers rows r.2 :=
    hwhy.imp_right fun hn hsr => hn ((Savable.update_iff hid hsavable).mpr hsr)
  exact ⟨k + 1, r, by simpa using hr, hwhy', hs.cons key record hid⟩

/-- The same for what the loop over the others comes to. -/
theorem LoopEnds.cons {rest : RecordMap} {id : String} {updatedAt : Nat}
    (hid : rowId x record = some id) {out : Except Thrown SaveResults} {w : World Tables Effect}
    (h : LoopEnds R (frame.given (Savable x ownerEpoch userId providers rows record ∧
      frame.stamps updatedAt)) providers (saveRow ownerEpoch userId rows record id updatedAt)
      (touched ++ [(key, record)]) rest out w) :
    LoopEnds R frame providers rows touched ((key, record) :: rest) out w := by
  cases out with
  | error e =>
    refine R.stopped_mono (fun t ht => ht.cons key record hid) (fun t ht => Or.inr ?_) h
    obtain ⟨hfaulty, k, hk, hs⟩ := ht
    exact ⟨hfaulty, k + 1, by simpa using hk, hs.cons key record hid⟩
  | ok result =>
    cases result with
    | error failure => exact R.mono (fun t ht => ht.cons key record hid) h
    | ok saved => exact R.mono (fun t ht => ht.cons key record hid) h

theorem Frame.At.given {φ : Prop} {t : Tables} (hφ : φ) (h : frame.At providers rows touched t) :
    (frame.given φ).At providers rows touched t :=
  ⟨h.tournaments, h.providers, hφ, h.rest⟩

/-- The rule of the loop. -/
theorem Regime.ensures_saveLoop (records : RecordMap) (bytes : List (String × Nat))
    (updated : List (String × String)) :
    Ensures (handle (backend patched)) (R.holds (frame.At providers rows touched))
      (saveLoop x borrowed ownerEpoch userId records bytes updated)
      (LoopEnds R frame providers rows touched records) := by
  induction records generalizing frame rows touched bytes updated with
  | nil =>
    refine Prog.ensures_ret fun w hw => R.mono (fun t ht => ?_) hw
    constructor
    · exact fun r hr => by cases hr
    · rw [ht.tournaments]
      exact savedRows_nil _ _ _
    · exact fun r hr => by cases hr
    · exact ht.providers
    · simpa using ht.rest
  | cons head rest ih =>
    obtain ⟨key, record⟩ := head
    refine Prog.ensures_bind (R.ensures_saveTournamentRecord key record) (fun result => ?_)
      fun e w hw => ?_
    · cases result with
      | error failure =>
        refine Prog.ensures_ret fun w hw => R.mono (fun t ht => ?_) hw
        exact ⟨0, _, rfl, Or.inr ht.1, ht.2.savedUpTo⟩
      | ok saved =>
        intro w hw
        obtain ⟨id, updatedAt, hid, hat⟩ := hw
        exact (ih _ _ w (R.mono (fun t ht => ht.2.given ht.1) hat)).cons R key record hid
    · refine R.stopped_mono (fun t ht => ⟨0, _, rfl, ht.1, ht.2.savedUpTo⟩) (fun t ht => ?_) hw
      obtain ⟨hfaulty, id, updatedAt, hid, hsavable, hat⟩ := ht
      refine Or.inr ⟨hfaulty, 1, by simp, ?_⟩
      have hdone : (frame.given (Savable x ownerEpoch userId providers rows record ∧
          frame.stamps updatedAt)).SavedUpTo providers
          (saveRow ownerEpoch userId rows record id updatedAt) (touched ++ [(key, record)]) rest 0 t := by
        constructor
        · exact fun r hr => by cases hr
        · rw [hat.tournaments]
          exact savedRows_nil _ _ _
        · exact fun r hr => by cases hr
        · exact hat.providers
        · cases rest with
          | nil => exact ⟨hsavable, by simpa using hat.rest⟩
          | cons next rest =>
            have hmore : frame.rest (touched ++ [(key, record)] ++ [next]) t := frame.more hat.rest
            exact ⟨hsavable, by simpa using hmore⟩
      exact hdone.cons key record hid

end Record

end FactoryServer.StorageRegime
