import FactoryServer.StorageRegime

/-!
# What a save leaves alone

Saving a record rewrites its calendar row and its participation rows before
the record itself. The rows of these tables that belong to other tournaments
are kept by every statement of the save, and by the projection behind it.
-/

namespace FactoryServer.PooledSave

open JsonValue TournamentAccess StorageTables TournamentStorage ExecutionQueue StorageFrames
  StorageRegime

variable {x : External}

/-- The ids under which the calendar entry of a record is stored. -/
def CalendarKey (x : External) (userId : Option String) (record : TournamentRecord)
    (id : String) : Prop :=
  ∃ entry key, getCalendarEntry x (stampCreatedBy userId record) = .ok entry ∧
    entry.field? "tournamentId" = some key ∧ id = x.pg.text key

/-- The calendar and participation rows that belong to none of the records are
as they were, except the calendar rows in `except`. -/
structure OthersKept (x : External) (userId : Option String) (except : String → Prop)
    (before : Tables) (records : RecordMap) (t : Tables) : Prop where
  calendar : ∀ id, ¬ except id → (∀ r ∈ records, ¬ CalendarKey x userId r.2 id) →
    t.calendarTournaments id = before.calendarTournaments id
  participation : ∀ id, (∀ r ∈ records, rowId x r.2 ≠ some id) →
    t.participationIndex id = before.participationIndex id ∧
      t.participationState id = before.participationState id

variable {userId : Option String} {except : String → Prop} {before : Tables} {touched : RecordMap}

theorem OthersKept.mono {records records' : RecordMap} {t : Tables}
    (h : OthersKept x userId except before records t) (hsub : ∀ r ∈ records, r ∈ records') :
    OthersKept x userId except before records' t where
  calendar id he hr := h.calendar id he fun r hm => hr r (hsub r hm)
  participation id hr := h.participation id fun r hm => hr r (hsub r hm)

theorem othersKept_refl (t : Tables) : OthersKept x userId except t touched t :=
  ⟨fun _ _ _ => rfl, fun _ _ => ⟨rfl, rfl⟩⟩

/-- Statements that touch neither a calendar nor a participation row. -/
def OffCalendar : Statement → Prop
  | .upsertCalendar _ => False
  | .claimFingerprint _ _ => False
  | .deleteParticipation _ => False
  | .insertParticipation _ _ => False
  | _ => True

theorem exec_offCalendar {st : Statement} (h : OffCalendar st) (t : Tables) :
    (exec st t).1.calendarTournaments = t.calendarTournaments ∧
      (exec st t).1.participationIndex = t.participationIndex ∧
      (exec st t).1.participationState = t.participationState := by
  cases st with
  | upsertTournament id record ownerEpoch =>
    simp only [exec, upsertTournament]
    cases t.tournaments id with
    | none => exact ⟨rfl, rfl, rfl⟩
    | some row =>
      dsimp only
      split_ifs <;> exact ⟨rfl, rfl, rfl⟩
  | upsertCalendar row => exact h.elim
  | claimFingerprint id fingerprint => exact h.elim
  | deleteParticipation id => exact h.elim
  | insertParticipation id rows => exact h.elim
  | _ => exact ⟨rfl, rfl, rfl⟩

theorem OthersKept.offCalendar {st : Statement} (hst : OffCalendar st) {t : Tables}
    (h : OthersKept x userId except before touched t) :
    OthersKept x userId except before touched (exec st t).1 := by
  obtain ⟨hc, hi, hs⟩ := exec_offCalendar hst t
  constructor
  · intro id he hr
    rw [hc]
    exact h.calendar id he hr
  · intro id hr
    rw [hi, hs]
    exact h.participation id hr

/-- The statements that save a record keep what is not the record's. -/
theorem othersKept_saves {ownerEpoch : Nat} {record : String × TournamentRecord}
    {st : Statement} (h : Saves x ownerEpoch userId record.2 st) :
    KeepsProperty (OthersKept x userId except before (touched ++ [record])) st := by
  intro t ht
  have hmem : record ∈ touched ++ [record] := by simp
  cases h with
  | provider id => exact ht.offCalendar (by trivial)
  | upsert hid => exact ht.offCalendar (by trivial)
  | @calendar entry key' row he hk hr =>
    refine ⟨fun id hne hall => ?_, ht.participation⟩
    have hid : id ≠ row.tournamentId := fun h =>
      hall _ hmem ⟨entry, key', he, hk, h.trans hr⟩
    simp only [exec, Function.update_of_ne hid]
    exact ht.calendar id hne hall
  | @claim id' hid fingerprint =>
    simp only [exec]
    split_ifs
    · exact ht
    · refine ⟨ht.calendar, fun id hall => ⟨(ht.participation id hall).1, ?_⟩⟩
      have hne : id ≠ id' := fun h => hall _ hmem (h ▸ hid)
      simp only [Function.update_of_ne hne]
      exact (ht.participation id hall).2
  | @delete id' hid =>
    refine ⟨ht.calendar, fun id hall => ⟨?_, (ht.participation id hall).2⟩⟩
    have hne : id ≠ id' := fun h => hall _ hmem (h ▸ hid)
    simp only [exec, Function.update_of_ne hne]
    exact (ht.participation id hall).1
  | @insert id' hid inserted =>
    refine ⟨ht.calendar, fun id hall => ⟨?_, (ht.participation id hall).2⟩⟩
    have hne : id ≠ id' := fun h => hall _ hmem (h ▸ hid)
    simp only [exec, Function.update_of_ne hne]
    exact (ht.participation id hall).1

/-- So do the statements of the projection. -/
theorem othersKept_projects {st : Statement} (h : Projects st) :
    KeepsProperty (OthersKept x userId except before touched) st := fun _ ht =>
  ht.offCalendar (by cases h <;> trivial)

end FactoryServer.PooledSave
