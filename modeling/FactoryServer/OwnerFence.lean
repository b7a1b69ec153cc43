import FactoryServer.DurableSave

/-!
# The owner-epoch fence over whole runs

Saves with arbitrary epochs and removals, one after the other, on the pooled
connection. A row keeps the epoch of its last writer, and a save of a lower
epoch is answered as fenced. The fence lives in the row: once a removal has
deleted it, a deposed owner inserts it again.
-/

namespace FactoryServer.OwnerFence

open JsonValue AsyncProgram TournamentAccess CommandTransaction CommandSession StorageTables
  TournamentStorage
open DurableSave (plainExternal emptyTables plainRecord)

/-- A call on the tournament storage. -/
inductive Call where
  /-- `saveTournamentRecord({ tournamentRecord, ownerEpoch })`. -/
  | save (tournamentRecord : TournamentRecord) (ownerEpoch : Option Nat)
  /-- `removeTournamentRecords({ tournamentIds, tournamentId })`. -/
  | remove (tournamentIds tournamentId : Option Json)

/-- What a call answers. -/
inductive Answer where
  /-- The answer of a save. -/
  | saved (result : SaveResult)
  /-- The number of removed rows. -/
  | removed (rows : Nat)
  /-- The call threw. -/
  | thrown (error : Thrown)

/-- The epoch of a save, `ownerEpoch = 0` by default. -/
def epochOf (ownerEpoch : Option Nat) : Nat := ownerEpoch.getD 0

section Run

variable (x : External) (patched : CalendarRow → Json → Json)

/-- Run one call. -/
def perform (t : Tables) : Call → Answer × Tables
  | .save record ownerEpoch =>
    let out := (PostgresTournamentStorage.saveTournamentRecord x false record
      (epochOf ownerEpoch)).run (handle (backend patched)) (World.start t [])
    (match out.1 with | .ok result => .saved result | .error e => .thrown e, out.2.tables)
  | .remove tournamentIds tournamentId =>
    let out := (removeTournamentRecords x false tournamentIds tournamentId).run
      (handle (backend patched)) (World.start t [])
    (match out.1 with | .ok rows => .removed rows | .error e => .thrown e, out.2.tables)

/-- A call of a run, with the tables before it. -/
structure Entry where
  /-- The tables the call found. -/
  before : Tables
  /-- The call. -/
  call : Call

/-- The calls of a run, with the tables each of them finds. -/
def history : Tables → List Call → List Entry
  | _, [] => []
  | t, call :: rest => ⟨t, call⟩ :: history (perform x patched t call).2 rest

/-- The tables after a run. -/
def final : Tables → List Call → Tables
  | t, [] => t
  | t, call :: rest => final (perform x patched t call).2 rest

namespace Entry

variable (e : Entry) (id : String)

/-- What the call answers. -/
def answer : Answer := (perform x patched e.before e.call).1

/-- The tables after the call. -/
def after : Tables := (perform x patched e.before e.call).2

/-- The call saves a record of the tournament under an epoch. -/
def Saves (record : TournamentRecord) (epoch : Nat) : Prop :=
  ∃ ownerEpoch, e.call = .save record ownerEpoch ∧ epochOf ownerEpoch = epoch ∧
    rowId x record = some id

/-- The call answers success. -/
def Succeeds : Prop := ∃ bytes serverUpdatedAt,
  e.answer x patched = .saved (.ok (bytes, serverUpdatedAt))

/-- The call answers fenced. -/
def Fenced : Prop := ∃ key, e.answer x patched = .saved (.error (.fenced key))

end Entry

/-- A row, if there is one, does not have a newer owner. -/
def Clears (t : Tables) (id : String) (epoch : Nat) : Prop :=
  ∀ row, t.tournaments id = some row → row.ownerEpoch ≤ epoch

/-- What the fence promises for a tournament over a run. -/
structure FenceHolds (t : Tables) (calls : List Call) (id : String) : Prop where
  /-- After a save with an epoch has succeeded, none with a lower epoch does. -/
  deposed : (history x patched t calls).Pairwise fun a b => ∀ record epoch record' epoch',
    a.Saves x id record epoch → a.Succeeds x patched → b.Saves x id record' epoch' →
      epoch' < epoch → ¬ b.Succeeds x patched
  /-- The epoch of an existing row does not decrease. -/
  ascends : ∀ e ∈ history x patched t calls, ∀ row row', e.before.tournaments id = some row →
    (e.after x patched).tournaments id = some row' → row.ownerEpoch ≤ row'.ownerEpoch
  /-- A stored row is that of the last save that succeeded. -/
  stored : ∀ earlier a later, history x patched t calls = earlier ++ a :: later →
    ∀ record epoch, a.Saves x id record epoch → a.Succeeds x patched →
      (∀ b ∈ later, ∀ record' epoch', b.Saves x id record' epoch' → ¬ b.Succeeds x patched) →
        ∀ row, (final x patched t calls).tournaments id = some row →
          row.record = record ∧ row.ownerEpoch = epoch
  /-- A save that does not succeed answers fenced and leaves the row alone. -/
  rejected : ∀ e ∈ history x patched t calls, ∀ record epoch, e.Saves x id record epoch →
    ¬ e.Succeeds x patched → e.Fenced x patched ∧
      (e.after x patched).tournaments id = e.before.tournaments id

/-- No save finds the row gone that an earlier save of a higher epoch has written. -/
def NoneDeposedInserts (t : Tables) (calls : List Call) (id : String) : Prop :=
  (history x patched t calls).Pairwise fun a b => ∀ record epoch record' epoch',
    a.Saves x id record epoch → Clears a.before id epoch → b.Saves x id record' epoch' →
      epoch' < epoch → b.before.tournaments id ≠ none

variable {x patched} {t : Tables} {id : String} {e : Entry} {record : TournamentRecord}
  {epoch : Nat}

/-! ## One call -/

/-- A statement on the pool executes at once. -/
theorem run_queryClient {α : Type} (st : Statement) (k : st.Answer → Store α) :
    ((queryClient false st).bind k).run (handle (backend patched)) (World.start t []) =
      (k (exec st t).2).run (handle (backend patched)) (World.start (exec st t).1 []) := rfl

variable (x patched t) in
/-- The storage save is its upsert, and answers fenced where that returns no row. -/
theorem run_save (ownerEpoch : Option Nat) {key : Json} (hkey : recordKey record = some key) :
    (PostgresTournamentStorage.saveTournamentRecord x false record
      (epochOf ownerEpoch)).run (handle (backend patched)) (World.start t []) =
      (match (upsertTournament t (x.pg.text key) record (epochOf ownerEpoch)).2 with
      | none => .ret (.error (.fenced key))
      | some updatedAt => .ret (.ok (x.serializedLength record, x.toIso updatedAt)) :
          Store SaveResult).run (handle (backend patched))
        (World.start (upsertTournament t (x.pg.text key) record (epochOf ownerEpoch)).1 []) := by
  unfold PostgresTournamentStorage.saveTournamentRecord
  rw [hkey]
  refine (run_queryClient _ _).trans ?_
  simp only [exec]
  cases (upsertTournament t (x.pg.text key) record (epochOf ownerEpoch)).2 <;> rfl

variable (x patched t) in
theorem perform_save (ownerEpoch : Option Nat) {key : Json} (hkey : recordKey record = some key) :
    perform x patched t (.save record ownerEpoch) =
      (match (upsertTournament t (x.pg.text key) record (epochOf ownerEpoch)).2 with
      | some updatedAt => .saved (.ok (x.serializedLength record, x.toIso updatedAt))
      | none => .saved (.error (.fenced key)),
        (upsertTournament t (x.pg.text key) record (epochOf ownerEpoch)).1) := by
  simp only [perform]
  rw [run_save x patched t ownerEpoch hkey]
  cases (upsertTournament t (x.pg.text key) record (epochOf ownerEpoch)).2 <;> rfl

variable (patched) in
/-- A save that the row lets through is stored and succeeds. -/
theorem Entry.saves_clears (hs : e.Saves x id record epoch) (hc : Clears e.before id epoch) :
    e.Succeeds x patched ∧
      (e.after x patched).tournaments id = some ⟨record, epoch, e.before.now⟩ := by
  obtain ⟨ownerEpoch, hcall, rfl, hid⟩ := hs
  obtain ⟨key, hkey, rfl⟩ := Option.map_eq_some_iff.mp hid
  have hrun := perform_save x patched e.before ownerEpoch hkey
  rw [← hcall] at hrun
  have hup : upsertTournament e.before (x.pg.text key) record (epochOf ownerEpoch) =
      ({ e.before with
        tournaments := Function.update e.before.tournaments (x.pg.text key)
          (some ⟨record, epochOf ownerEpoch, e.before.now⟩)
        now := e.before.now + 1 }, some e.before.now) := by
    unfold upsertTournament
    cases hrow : e.before.tournaments (x.pg.text key) with
    | none => rfl
    | some row => exact if_pos (hc row hrow)
  rw [hup] at hrun
  refine ⟨⟨_, _, congrArg Prod.fst hrun⟩, ?_⟩
  rw [Entry.after, hrun]
  exact Function.update_self _ _ _

variable (patched) in
/-- A save that the row holds off answers fenced and changes nothing. -/
theorem Entry.saves_fenced (hs : e.Saves x id record epoch) (hc : ¬ Clears e.before id epoch) :
    e.Fenced x patched ∧ ¬ e.Succeeds x patched ∧ e.after x patched = e.before := by
  obtain ⟨ownerEpoch, hcall, rfl, hid⟩ := hs
  obtain ⟨key, hkey, rfl⟩ := Option.map_eq_some_iff.mp hid
  have hrun := perform_save x patched e.before ownerEpoch hkey
  rw [← hcall] at hrun
  have hup : upsertTournament e.before (x.pg.text key) record (epochOf ownerEpoch) =
      (e.before, none) := by
    unfold upsertTournament
    cases hrow : e.before.tournaments (x.pg.text key) with
    | none =>
      refine absurd (fun row h => ?_) hc
      rw [hrow] at h
      cases h
    | some row =>
      refine if_neg fun hle => hc fun row' h => ?_
      rw [hrow] at h
      rwa [← Option.some.inj h]
  rw [hup] at hrun
  have hanswer : e.answer x patched = .saved (.error (.fenced key)) := congrArg Prod.fst hrun
  refine ⟨⟨key, hanswer⟩, ?_, congrArg Prod.snd hrun⟩
  rintro ⟨bytes, serverUpdatedAt, h⟩
  rw [hanswer] at h
  cases h

theorem Entry.succeeds_iff (hs : e.Saves x id record epoch) :
    e.Succeeds x patched ↔ Clears e.before id epoch := by
  constructor
  · intro h
    by_contra hc
    exact (Entry.saves_fenced patched hs hc).2.1 h
  · exact fun hc => (Entry.saves_clears patched hs hc).1

/-- A call that saves nothing of the tournament keeps its row or removes it. -/
theorem Entry.other (h : ∀ record epoch, ¬ e.Saves x id record epoch) :
    (e.after x patched).tournaments id = e.before.tournaments id ∨
      (e.after x patched).tournaments id = none := by
  cases hcall : e.call with
  | save record ownerEpoch =>
    left
    cases hkey : recordKey record with
    | none =>
      simp [Entry.after, hcall, perform, PostgresTournamentStorage.saveTournamentRecord, hkey,
        World.start]
    | some key =>
      have hne : id ≠ x.pg.text key := by
        rintro rfl
        exact h record _ ⟨ownerEpoch, hcall, rfl, by simp [rowId, hkey]⟩
      have hkeep := exec_tournaments
        (.upsertTournament (x.pg.text key) record (epochOf ownerEpoch)) e.before fun he => hne he.symm
      have hafter : e.after x patched =
          (upsertTournament e.before (x.pg.text key) record (epochOf ownerEpoch)).1 := by
        rw [Entry.after, hcall, perform_save x patched e.before ownerEpoch hkey]
      rw [hafter]
      exact hkeep
  | remove tournamentIds tournamentId =>
    have hafter : e.after x patched = e.before ∨
        ∃ ids, e.after x patched = (deleteTournaments e.before ids).1 := by
      simp only [Entry.after, hcall, perform, removeTournamentRecords]
      cases x.pg.textArray _ with
      | none => exact Or.inl rfl
      | some ids => exact Or.inr ⟨ids, rfl⟩
    rcases hafter with hafter | ⟨ids, hafter⟩
    · exact Or.inl (by rw [hafter])
    · rw [hafter, deleteTournaments]
      dsimp only
      by_cases hm : id ∈ ids
      · exact Or.inr (if_pos hm)
      · exact Or.inl (if_neg hm)

variable (x patched) in
/-- Everything a call can do to the row of a tournament. -/
theorem Entry.after_cases (e : Entry) (id : String) :
    (∃ record epoch, e.Saves x id record epoch ∧ Clears e.before id epoch ∧
      (e.after x patched).tournaments id = some ⟨record, epoch, e.before.now⟩) ∨
    (∀ record epoch, e.Saves x id record epoch → ¬ Clears e.before id epoch) ∧
      ((e.after x patched).tournaments id = e.before.tournaments id ∨
        (e.after x patched).tournaments id = none) := by
  by_cases hs : ∃ record epoch, e.Saves x id record epoch
  · obtain ⟨record, epoch, hs⟩ := hs
    by_cases hc : Clears e.before id epoch
    · exact Or.inl ⟨record, epoch, hs, hc, (Entry.saves_clears patched hs hc).2⟩
    · refine Or.inr ⟨fun record' epoch' hs' => ?_, Or.inl ?_⟩
      · obtain ⟨o, hcall, rfl, -⟩ := hs
        obtain ⟨o', hcall', rfl, -⟩ := hs'
        rw [hcall] at hcall'
        cases hcall'
        exact hc
      · rw [(Entry.saves_fenced patched hs hc).2.2]
  · have hnone : ∀ record epoch, ¬ e.Saves x id record epoch := fun record epoch h =>
      hs ⟨record, epoch, h⟩
    exact Or.inr ⟨fun record epoch h => absurd h (hnone record epoch), e.other hnone⟩

/-! ## Whole runs -/

/-- The epoch of a row that exists before and after a call does not decrease. -/
theorem Entry.ascends {row row' : TournamentRow} (hb : e.before.tournaments id = some row)
    (ha : (e.after x patched).tournaments id = some row') : row.ownerEpoch ≤ row'.ownerEpoch := by
  rcases e.after_cases x patched id with ⟨record, epoch, -, hc, hafter⟩ | ⟨-, hkeep | hgone⟩
  · rw [hafter] at ha
    rw [← Option.some.inj ha]
    exact hc row hb
  · rw [hkeep, hb] at ha
    exact Nat.le_of_eq (congrArg TournamentRow.ownerEpoch (Option.some.inj ha))
  · rw [hgone] at ha
    cases ha

/-- The run after the call at the head of an entry's history goes on from its tables. -/
theorem history_append {calls : List Call} {earlier later : List Entry} {a : Entry}
    (h : history x patched t calls = earlier ++ a :: later) :
    ∃ rest, later = history x patched (a.after x patched) rest ∧
      final x patched t calls = final x patched (a.after x patched) rest := by
  induction earlier generalizing t calls with
  | nil =>
    cases calls with
    | nil => cases h
    | cons call rest =>
      obtain ⟨rfl, rfl⟩ := List.cons.inj h
      exact ⟨rest, rfl, rfl⟩
  | cons b earlier ih =>
    cases calls with
    | nil => cases h
    | cons call rest =>
      obtain ⟨rest', hlater, hfinal⟩ := ih (List.cons.inj h).2
      exact ⟨rest', hlater, hfinal⟩

/-- From tables whose row is not below an epoch, it stays so as long as no save
of a lower epoch finds the row gone. -/
theorem bounded_of_none_inserts {calls : List Call}
    (hrow : ∀ row, t.tournaments id = some row → epoch ≤ row.ownerEpoch)
    (hcond : ∀ b ∈ history x patched t calls, ∀ record' epoch', b.Saves x id record' epoch' →
      epoch' < epoch → b.before.tournaments id ≠ none) :
    ∀ b ∈ history x patched t calls, ∀ row, b.before.tournaments id = some row →
      epoch ≤ row.ownerEpoch := by
  induction calls generalizing t with
  | nil =>
    intro b hb
    cases hb
  | cons call rest ih =>
    intro b hb
    rcases List.mem_cons.mp hb with rfl | hb
    · exact hrow
    · refine ih ?_ (fun b hb => hcond b (List.mem_cons_of_mem _ hb)) b hb
      intro row hafter
      have hfirst := hcond ⟨t, call⟩ List.mem_cons_self
      rcases Entry.after_cases x patched ⟨t, call⟩ id with
        ⟨record', epoch', hs, hc, hnew⟩ | ⟨-, hkeep | hgone⟩
      · rw [Entry.after, hafter] at hnew
        rw [Option.some.inj hnew]
        by_contra hlt
        have hlow : epoch' < epoch := Nat.not_le.mp hlt
        obtain ⟨old, hold⟩ := Option.ne_none_iff_exists'.mp (hfirst record' epoch' hs hlow)
        have hkept : epoch ≤ epoch' := Nat.le_trans (hrow old hold) (hc old hold)
        omega
      · rw [Entry.after, hafter] at hkeep
        exact hrow row hkeep.symm
      · rw [Entry.after, hafter] at hgone
        cases hgone

/-- A row that no later save replaces is the one it was. -/
theorem final_row {calls : List Call} {row : TournamentRow}
    (hrow : ∀ row', t.tournaments id = some row' → row' = row)
    (hnone : ∀ b ∈ history x patched t calls, ∀ record' epoch', b.Saves x id record' epoch' →
      ¬ b.Succeeds x patched) :
    ∀ row', (final x patched t calls).tournaments id = some row' → row' = row := by
  induction calls generalizing t with
  | nil => exact hrow
  | cons call rest ih =>
    refine ih (fun row' hafter => ?_) fun b hb => hnone b (List.mem_cons_of_mem _ hb)
    rcases Entry.after_cases x patched ⟨t, call⟩ id with
      ⟨record', epoch', hs, hc, -⟩ | ⟨-, hkeep | hgone⟩
    · exact absurd ((Entry.succeeds_iff hs).mpr hc)
        (hnone ⟨t, call⟩ List.mem_cons_self record' epoch' hs)
    · rw [Entry.after, hafter] at hkeep
      exact hrow row' hkeep.symm
    · rw [Entry.after, hafter] at hgone
      cases hgone

/-- A save of a lower epoch than one that succeeded finds a row of a newer owner. -/
theorem deposed_of_noneInserts {calls : List Call} (h : NoneDeposedInserts x patched t calls id) :
    (history x patched t calls).Pairwise fun a b => ∀ record epoch record' epoch',
      a.Saves x id record epoch → a.Succeeds x patched → b.Saves x id record' epoch' →
        epoch' < epoch → ¬ b.Succeeds x patched := by
  induction calls generalizing t with
  | nil => exact List.Pairwise.nil
  | cons call rest ih =>
    obtain ⟨hhead, htail⟩ := List.pairwise_cons.mp h
    refine List.pairwise_cons.mpr ⟨fun b hb record epoch record' epoch' ha hsucc hbs hlt => ?_,
      ih htail⟩
    have hclears := (Entry.succeeds_iff ha).mp hsucc
    have hafter := (Entry.saves_clears patched ha hclears).2
    have hstart : ∀ row, (perform x patched t call).2.tournaments id = some row →
        epoch ≤ row.ownerEpoch := by
      intro row hrow
      rw [Entry.after, hrow] at hafter
      exact Nat.le_of_eq (congrArg TournamentRow.ownerEpoch (Option.some.inj hafter)).symm
    have hbound := bounded_of_none_inserts hstart
      (fun b hb record' epoch' hs hlt => hhead b hb record epoch record' epoch' ha hclears hs hlt)
      b hb
    obtain ⟨row, hrow⟩ := Option.ne_none_iff_exists'.mp
      (hhead b hb record epoch record' epoch' ha hclears hbs hlt)
    intro hb'
    have hle := (Entry.succeeds_iff hbs).mp hb' row hrow
    have hge := hbound row hrow
    omega

/-- The fence holds over a run exactly when no deposed owner inserts the row again. -/
theorem fenceHolds_iff (calls : List Call) :
    FenceHolds x patched t calls id ↔ NoneDeposedInserts x patched t calls id := by
  constructor
  · intro h
    refine h.deposed.imp fun {a b} hab record epoch record' epoch' ha hc hb hlt hgone => ?_
    refine hab record epoch record' epoch' ha ((Entry.succeeds_iff ha).mpr hc) hb hlt
      ((Entry.succeeds_iff hb).mpr fun row hrow => ?_)
    rw [hgone] at hrow
    cases hrow
  · intro hcond
    refine ⟨deposed_of_noneInserts hcond, fun e _ row row' hb ha => e.ascends hb ha, ?_, ?_⟩
    · intro earlier a later hsplit record epoch hs hsucc hlater row hrow
      obtain ⟨rest, rfl, hfinal⟩ := history_append hsplit
      rw [hfinal] at hrow
      have hafter := (Entry.saves_clears patched hs ((Entry.succeeds_iff hs).mp hsucc)).2
      have hstart : ∀ row', (a.after x patched).tournaments id = some row' →
          row' = ⟨record, epoch, a.before.now⟩ := by
        intro row' h'
        rw [hafter] at h'
        exact (Option.some.inj h').symm
      have hsame := final_row hstart hlater row hrow
      rw [hsame]
      exact ⟨rfl, rfl⟩
    · intro e _ record epoch hs hnot
      have hc : ¬ Clears e.before id epoch := fun hc => hnot ((Entry.succeeds_iff hs).mpr hc)
      exact ⟨(Entry.saves_fenced patched hs hc).1, by rw [(Entry.saves_fenced patched hs hc).2.2]⟩

end Run

/-- A new owner saves, the tournament is removed, and the deposed owner saves. -/
def deposedRun : List Call :=
  [.save (plainRecord "t1" (some "p1")) (some 2), .remove none (some (.str "t1")),
    .save (plainRecord "t1" (some "p1")) (some 1)]

/-- The deposed owner is not fenced. -/
theorem deposed_owner_inserts :
    ¬ FenceHolds plainExternal (fun row _ => row.entry) emptyTables deposedRun "t1" := by
  intro h
  have hrun : history plainExternal (fun row _ => row.entry) emptyTables deposedRun =
      [⟨emptyTables, .save (plainRecord "t1" (some "p1")) (some 2)⟩,
        ⟨(upsertTournament emptyTables "t1" (plainRecord "t1" (some "p1")) 2).1,
          .remove none (some (.str "t1"))⟩,
        ⟨(deleteTournaments
            (upsertTournament emptyTables "t1" (plainRecord "t1" (some "p1")) 2).1 ["t1"]).1,
          .save (plainRecord "t1" (some "p1")) (some 1)⟩] := rfl
  have hpair := h.deposed
  rw [hrun] at hpair
  have hlast := (List.pairwise_cons.mp hpair).1 _ (List.mem_cons_of_mem _ List.mem_cons_self)
  have hid : rowId plainExternal (plainRecord "t1" (some "p1")) = some "t1" := by decide
  have hfirst : Entry.Saves plainExternal
      ⟨emptyTables, .save (plainRecord "t1" (some "p1")) (some 2)⟩ "t1"
      (plainRecord "t1" (some "p1")) 2 := ⟨some 2, rfl, rfl, hid⟩
  have hthird : Entry.Saves plainExternal
      ⟨(deleteTournaments
          (upsertTournament emptyTables "t1" (plainRecord "t1" (some "p1")) 2).1 ["t1"]).1,
        .save (plainRecord "t1" (some "p1")) (some 1)⟩ "t1"
      (plainRecord "t1" (some "p1")) 1 := ⟨some 1, rfl, rfl, hid⟩
  refine hlast _ _ _ _ hfirst ((Entry.succeeds_iff hfirst).mpr fun row hrow => ?_) hthird
    (by decide) ((Entry.succeeds_iff hthird).mpr fun row hrow => ?_)
  · cases hrow
  · simp [deleteTournaments] at hrow

end FactoryServer.OwnerFence
