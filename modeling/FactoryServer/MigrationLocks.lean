import FactoryServer.MigrationOrder

/-!
# Migrations apply once

A file is committed once as long as the lock is not granted while another runner, or a
`COMMIT` in doubt, can still commit a file. The lock ensures that while the sessions that
hold it outlive the work of their runners. A session that ends earlier lets a second
runner read the recorded names too soon, and `ON CONFLICT DO NOTHING` lets its
transaction commit all the same.
-/

namespace FactoryServer.MigrationLocks

open GuardedRuns MigrationOrder MigrationRunner

variable {ι : Type} {dir : MigrationsDir} {table : MigrationTable} {s : State ι} {c : ι}

/-- What holds while the lock is granted to one runner at a time. -/
structure Exclusive (dir : MigrationsDir) (table : MigrationTable) (s : State ι) : Prop where
  /-- One runner at most can still commit. -/
  one : ∀ c d, Busy (s.runners c) → Busy (s.runners d) → c = d
  /-- No `COMMIT` is in doubt while a runner can still commit. -/
  settled : ∀ c, Busy (s.runners c) → s.inDoubt = []
  /-- One `COMMIT` at most is in doubt. -/
  single : ∀ doubt ∈ s.inDoubt, s.inDoubt = [doubt]
  /-- Its file is not recorded. -/
  fresh : ∀ doubt ∈ s.inDoubt, doubt.2.file ∉ s.names
  /-- A runner is to commit what is not recorded. -/
  todo : ∀ c, Busy (s.runners c) → ahead (s.runners c) = [] ∨
    ahead (s.runners c) = dir.files.filter fun file => file ∉ s.names
  /-- What is recorded was recorded before or is applied, each file once. -/
  names : s.names = table.names ++ s.applied.map Prod.snd

/-- A runner with a file ahead can still commit. -/
theorem busy_of_ahead {stage : Stage} {file : String} {rest : List String}
    (h : ahead stage = file :: rest) : Busy stage := by
  cases stage with
  | opening _ _ => trivial
  | applying _ _ _ => trivial
  | _ => cases h

theorem not_busy_of_idle {stage : Stage} (h : Idle stage) : ¬ Busy stage := by
  cases h <;> exact id

/-- A commit of a file that is not recorded records it. -/
theorem names_commit (c : ι) {tx : Tx} (hdone : tx.ran = true ∧ tx.recorded = true)
    (hfresh : tx.file ∉ s.names) (hnames : s.names = table.names ++ s.applied.map Prod.snd) :
    (s.commit c tx).names = s.names ++ [tx.file] ∧
      (s.commit c tx).names = table.names ++ (s.commit c tx).applied.map Prod.snd := by
  have happlied : (s.commit c tx).applied = s.applied ++ [(c, tx.file)] := if_pos hdone.1
  have hrows : (s.commit c tx).names = s.names ++ [tx.file] := by
    obtain ⟨hin, -⟩ | ⟨-, hrows⟩ := rows_commit s c hdone.2
    · exact absurd hin hfresh
    · unfold State.names
      rw [hrows, List.map_append, List.map_singleton]
  refine ⟨hrows, ?_⟩
  rw [hrows, happlied, hnames, List.map_append, List.append_assoc, List.map_singleton]

/-- The pending files after the first of them is recorded. -/
theorem filter_recorded {files names rest : List String} {file : String} (hnodup : files.Nodup)
    (h : file :: rest = files.filter fun other => other ∉ names) :
    rest = files.filter fun other => other ∉ names ++ [file] := by
  have hfresh : file ∉ rest := by
    have hkept := hnodup.filter fun other => decide (other ∉ names)
    rw [← h] at hkept
    exact (List.nodup_cons.mp hkept).1
  have hsplit : (files.filter fun other => other ∉ names ++ [file]) =
      (files.filter fun other => other ∉ names).filter fun other => other ≠ file := by
    rw [List.filter_filter]
    refine List.filter_congr fun other _ => ?_
    simp [and_comm]
  rw [hsplit, ← h, List.filter_cons, if_neg (by simp)]
  refine (List.filter_eq_self.mpr fun other hin => ?_).symm
  have hne : other ≠ file := fun heq => hfresh (heq ▸ hin)
  simpa using hne

variable [DecidableEq ι]

/-- Only the runner that changes can become busy. -/
theorem busy_update {stage : Stage} {d : ι} (h : Busy (Function.update s.runners c stage d)) :
    d = c ∧ Busy stage ∨ d ≠ c ∧ Busy (s.runners d) := by
  by_cases hd : d = c
  · rw [hd, Function.update_self] at h
    exact Or.inl ⟨hd, h⟩
  · rw [Function.update_of_ne hd] at h
    exact Or.inr ⟨hd, h⟩

/-- Nothing is busy once the only busy runner has become idle. -/
theorem idle_all (h : Exclusive dir table s) (hbusy : Busy (s.runners c)) {stage : Stage}
    (hstage : ¬ Busy stage) (d : ι) : ¬ Busy (Function.update s.runners c stage d) := by
  intro hd
  obtain ⟨-, hnow⟩ | ⟨hne, hold⟩ := busy_update hd
  · exact hstage hnow
  · exact hne (h.one d c hold hbusy)

omit [DecidableEq ι] in
/-- The files ahead of a runner are those that are not recorded. -/
theorem Exclusive.pending (h : Exclusive dir table s) {file : String} {rest : List String}
    (hahead : ahead (s.runners c) = file :: rest) :
    file :: rest = dir.files.filter fun other => other ∉ s.names := by
  obtain hnone | hall := h.todo c (busy_of_ahead hahead)
  · rw [hahead] at hnone
    cases hnone
  · exact hahead.symm.trans hall

omit [DecidableEq ι] in
theorem Exclusive.not_recorded (h : Exclusive dir table s) {file : String} {rest : List String}
    (hahead : ahead (s.runners c) = file :: rest) : file ∉ s.names := by
  have hin : file ∈ dir.files.filter fun other => other ∉ s.names :=
    h.pending hahead ▸ List.mem_cons_self
  simpa using (List.mem_filter.mp hin).2

/-- A runner goes on, while no other runner and no `COMMIT` in doubt can still commit. -/
theorem Exclusive.move (h : Exclusive dir table s) (lock : Option ι) {stage : Stage}
    (hbusy : Busy stage → (∀ d, d ≠ c → ¬ Busy (s.runners d)) ∧ s.inDoubt = [])
    (htodo : Busy stage → ahead stage = [] ∨
      ahead stage = dir.files.filter fun file => file ∉ s.names) :
    Exclusive dir table { s.moveTo c stage with lock := lock } := by
  refine ⟨fun d e hd he => ?_, fun d hd => ?_, h.single, h.fresh, fun d hd => ?_, h.names⟩
  · obtain ⟨rfl, hnow⟩ | ⟨hdc, hold⟩ := busy_update hd
    · obtain ⟨rfl, -⟩ | ⟨hec, hother⟩ := busy_update he
      · rfl
      · exact absurd hother ((hbusy hnow).1 e hec)
    · obtain ⟨rfl, hnow⟩ | ⟨hec, hother⟩ := busy_update he
      · exact absurd hold ((hbusy hnow).1 d hdc)
      · exact h.one d e hold hother
  · obtain ⟨-, hnow⟩ | ⟨-, hold⟩ := busy_update hd
    · exact (hbusy hnow).2
    · exact h.settled d hold
  · have hupdate : ({ s.moveTo c stage with lock := lock } : State ι).runners d =
        Function.update s.runners c stage d := rfl
    rw [hupdate]
    obtain ⟨rfl, hnow⟩ | ⟨hdc, hold⟩ := busy_update hd
    · rw [Function.update_self]
      exact htodo hnow
    · rw [Function.update_of_ne hdc]
      exact h.todo d hold

/-- A change of a runner keeps one runner at a time. -/
theorem exclusive_change {granted : Prop} {s' : State ι} (hkept : Kept dir table s)
    (h : Exclusive dir table s) (halone : granted → (∀ d, ¬ Busy (s.runners d)) ∧ s.inDoubt = [])
    (hchange : Change dir.files granted s c s') : Exclusive dir table s' := by
  have halready : Busy (s.runners c) → (∀ d, d ≠ c → ¬ Busy (s.runners d)) ∧ s.inDoubt = [] :=
    fun hc => ⟨fun d hd hbusy => hd (h.one d c hbusy hc), h.settled c hc⟩
  cases hchange with
  | nothing => exact h
  | move stage hahead hdone hunread hbusy =>
    refine h.move s.lock (fun hstage => halready (hbusy hstage)) fun hstage => ?_
    obtain hsame | hnone := hahead
    · exact hsame ▸ h.todo c (hbusy hstage)
    · exact Or.inl hnone
  | grant _ hgranted =>
    obtain ⟨hidle, hsettled⟩ := halone hgranted
    exact h.move (some c) (fun _ => ⟨fun d _ => hidle d, hsettled⟩) fun _ => Or.inl rfl
  | release failed _ => exact h.move _ (fun hstage => absurd hstage id) fun _ => Or.inl rfl
  | read hreading =>
    have hc : Busy (s.runners c) := by
      rw [hreading]
      trivial
    exact h.move s.lock (fun _ => halready hc) fun _ => ahead_pending dir.files s.names
  | fail file rest stage hahead hstage =>
    have hnone := idle_all h (busy_of_ahead hahead) (not_busy_of_idle hstage)
    exact ⟨fun d _ hd => absurd hd (hnone d), fun d hd => absurd hd (hnone d), h.single, h.fresh,
      fun d hd => absurd hd (hnone d), h.names⟩
  | doubt tx rest stage hstage' hstage =>
    have hahead : ahead (s.runners c) = tx.file :: rest := by rw [hstage']; rfl
    have hbusy := busy_of_ahead hahead
    have hnone := idle_all h hbusy (not_busy_of_idle hstage)
    have hdoubts : s.inDoubt ++ [(c, tx)] = [(c, tx)] := by rw [h.settled c hbusy]; rfl
    refine ⟨fun d _ hd => absurd hd (hnone d), fun d hd => absurd hd (hnone d), fun doubt hin => ?_,
      fun doubt hin => ?_, fun d hd => absurd hd (hnone d), h.names⟩
    · have hmem : doubt ∈ s.inDoubt ++ [(c, tx)] := hin
      rw [hdoubts] at hmem
      exact hdoubts.trans (List.mem_singleton.mp hmem ▸ rfl)
    · have hmem : doubt ∈ s.inDoubt ++ [(c, tx)] := hin
      rw [hdoubts] at hmem
      rw [List.mem_singleton.mp hmem]
      exact h.not_recorded hahead
  | commit tx rest hstage =>
    have hahead : ahead (s.runners c) = tx.file :: rest := by rw [hstage]; rfl
    obtain ⟨hothers, hsettled⟩ := halready (busy_of_ahead hahead)
    have hdone : tx.ran = true ∧ tx.recorded = true := by
      have hflags := (hkept.runners c).flags
      rwa [hstage] at hflags
    obtain ⟨hrecorded, hnames⟩ := names_commit c hdone (h.not_recorded hahead) h.names
    have honly : ∀ d, Busy (Function.update s.runners c (loop rest) d) → d = c := by
      intro d hd
      obtain ⟨rfl, -⟩ | ⟨hdc, hold⟩ := busy_update hd
      · rfl
      · exact absurd hold (hothers d hdc)
    have hnone : ∀ doubt, doubt ∉ s.inDoubt := fun doubt => by simp [hsettled]
    refine ⟨fun d e hd he => (honly d hd).trans (honly e he).symm, fun _ _ => hsettled,
      fun doubt hin => absurd hin (hnone doubt), fun doubt hin => absurd hin (hnone doubt),
      fun d hd => Or.inr ?_, hnames⟩
    have hrest : ahead (Function.update s.runners c (loop rest) d) = rest := by
      rw [honly d hd, Function.update_self, ahead_loop]
    have hall := filter_recorded (files_nodup dir) (h.pending hahead)
    exact hrest.trans (hall.trans (hrecorded ▸ rfl))

omit [DecidableEq ι] in
/-- What becomes of a `COMMIT` in doubt keeps one runner at a time. -/
theorem exclusive_settle {tx : Tx} (hkept : Kept dir table s) (h : Exclusive dir table s)
    {position : ℕ} (committed : Bool) (hdoubt : s.inDoubt[position]? = some (c, tx)) :
    let rest := { s with inDoubt := s.inDoubt.eraseIdx position }
    Exclusive dir table (if committed then rest.commit c tx else rest.fail c tx.file) := by
  intro rest
  have hmem := List.mem_of_getElem? hdoubt
  have hidle : ∀ d, ¬ Busy (s.runners d) := by
    intro d hd
    rw [h.settled d hd] at hmem
    cases hmem
  have herased : s.inDoubt.eraseIdx position = [] := by
    have hsingle := h.single (c, tx) hmem
    rw [hsingle] at hdoubt ⊢
    cases position with
    | zero => rfl
    | succ n => simp at hdoubt
  have hnone : ∀ doubt, doubt ∉ s.inDoubt.eraseIdx position := fun doubt => by simp [herased]
  have hdone := (hkept.db.doubts (c, tx) hmem).2
  cases committed with
  | false =>
    exact ⟨fun d _ hd => absurd hd (hidle d), fun d hd => absurd hd (hidle d),
      fun doubt hin => absurd hin (hnone doubt), fun doubt hin => absurd hin (hnone doubt),
      fun d hd => absurd hd (hidle d), h.names⟩
  | true =>
    have hnames : (rest.commit c tx).names =
        table.names ++ (rest.commit c tx).applied.map Prod.snd :=
      (names_commit (s := rest) c hdone (h.fresh (c, tx) hmem) h.names).2
    exact ⟨fun d _ hd => absurd hd (hidle d), fun d hd => absurd hd (hidle d),
      fun doubt hin => absurd hin (hnone doubt), fun doubt hin => absurd hin (hnone doubt),
      fun d hd => absurd hd (hidle d), hnames⟩

/-- A step that grants the lock to a runner alone keeps one runner at a time. -/
theorem exclusive_step (hkept : Kept dir table s) (h : Exclusive dir table s) {action : Step ι}
    (halone : Alone s action) : Exclusive dir table (step dir.files s action) := by
  cases action with
  | proceed c fate =>
    refine exclusive_change hkept h (fun hgranted => ?_) (proceed_change dir.files s c fate)
    obtain ⟨rfl, hlocking, hlock⟩ := hgranted
    exact halone hlocking hlock
  | crash c =>
    exact exclusive_change hkept h (fun hgranted => hgranted.elim) (crash_change dir.files s c)
  | sessionEnds => exact ⟨h.one, h.settled, h.single, h.fresh, h.todo, h.names⟩
  | settle position committed =>
    cases hdoubt : s.inDoubt[position]? with
    | none =>
      simp only [step, hdoubt]
      exact h
    | some doubt =>
      simp only [step, hdoubt]
      exact exclusive_settle hkept h committed hdoubt

omit [DecidableEq ι] in
theorem exclusive_initial (dir : MigrationsDir) (table : MigrationTable) :
    Exclusive dir table (initial ι table) :=
  ⟨fun _ _ hc => absurd hc id, fun _ hc => absurd hc id, fun _ hin => absurd hin List.not_mem_nil,
    fun _ hin => absurd hin List.not_mem_nil, fun _ hc => absurd hc id, by
      rw [names_initial]
      simp [initial]⟩

/-! ## What the lock ensures -/

/-- The session that holds the lock does not end, and gives it back, only when nothing can
commit any more. -/
def Lasting (s : State ι) : Step ι → Prop
  | .proceed c _ => ∀ failed, s.runners c = .unlocking failed → s.lock = some c → s.inDoubt = []
  | .sessionEnds => (∀ d, ¬ Busy (s.runners d)) ∧ s.inDoubt = []
  | _ => True

/-- A runner that can commit holds the lock, and a `COMMIT` in doubt keeps it held. -/
structure Held (s : State ι) : Prop where
  busy : ∀ c, Busy (s.runners c) → s.lock = some c
  doubt : s.inDoubt ≠ [] → s.lock ≠ none

omit [DecidableEq ι] in
/-- Where the lock is free, nobody can commit. -/
theorem Held.alone (h : Held s) (action : Step ι) : Alone s action := by
  cases action with
  | proceed c fate =>
    cases fate with
    | answered =>
      intro _ hfree
      refine ⟨fun d hd => ?_, ?_⟩
      · rw [h.busy d hd] at hfree
        cases hfree
      · by_contra hdoubt
        exact h.doubt hdoubt hfree
    | _ => trivial
  | _ => trivial

theorem held_change {files : List String} {granted : Prop} {s' : State ι} (h : Held s)
    (hgrant : granted → s.lock = none)
    (hrelease : ∀ failed, s.runners c = .unlocking failed → s.lock = some c → s.inDoubt = [])
    (hchange : Change files granted s c s') : Held s' := by
  have hfree : s.lock = none → ∀ d, ¬ Busy (s.runners d) := by
    intro hlock d hd
    rw [h.busy d hd] at hlock
    cases hlock
  have hidle : ∀ {stage : Stage}, ¬ Busy stage → ∀ d,
      Busy (Function.update s.runners c stage d) → s.lock = some d := by
    intro stage hstage d hd
    obtain ⟨-, hnow⟩ | ⟨-, hold⟩ := busy_update hd
    · exact absurd hnow hstage
    · exact h.busy d hold
  have hkeeps : ∀ {stage : Stage}, (Busy stage → Busy (s.runners c)) → ∀ d,
      Busy (Function.update s.runners c stage d) → s.lock = some d := by
    intro stage hstage d hd
    obtain ⟨rfl, hnow⟩ | ⟨-, hold⟩ := busy_update hd
    · exact h.busy d (hstage hnow)
    · exact h.busy d hold
  cases hchange with
  | nothing => exact h
  | move stage hahead hdone hunread hbusy => exact ⟨hkeeps hbusy, h.doubt⟩
  | grant hlocking hgranted =>
    refine ⟨fun d hd => ?_, fun _ hnone => nomatch hnone⟩
    obtain ⟨rfl, -⟩ | ⟨-, hold⟩ := busy_update hd
    · rfl
    · exact absurd hold (hfree (hgrant hgranted) d)
  | release failed hunlocking =>
    by_cases hlock : s.lock = some c
    · refine ⟨fun d hd => ?_, fun hdoubt => absurd (hrelease failed hunlocking hlock) hdoubt⟩
      obtain ⟨-, hnow⟩ | ⟨hdc, hold⟩ := busy_update hd
      · exact absurd hnow id
      · rw [h.busy d hold] at hlock
        exact absurd (Option.some.inj hlock) hdc
    · have hsame : (if s.lock = some c then none else s.lock) = s.lock := if_neg hlock
      refine ⟨fun d hd => hsame.trans ?_, fun hdoubt hnone => h.doubt hdoubt (hsame ▸ hnone)⟩
      exact @hidle (.ended failed) id d hd
  | read hreading =>
    have hbusy : Busy (s.runners c) := by
      rw [hreading]
      trivial
    exact ⟨hkeeps fun _ => hbusy, h.doubt⟩
  | fail file rest stage hahead hstage => exact ⟨hidle (not_busy_of_idle hstage), h.doubt⟩
  | doubt tx rest stage hstage' hstage =>
    have hbusy : Busy (s.runners c) := by
      rw [hstage']
      trivial
    refine ⟨hidle (not_busy_of_idle hstage), fun _ hnone => ?_⟩
    have hlock : s.lock = none := hnone
    exact hfree hlock c hbusy
  | commit tx rest hstage =>
    have hbusy : Busy (s.runners c) := by
      rw [hstage]
      trivial
    exact ⟨hkeeps fun _ => hbusy, h.doubt⟩

theorem held_step {files : List String} (h : Held s) {action : Step ι} (hlasting : Lasting s action) :
    Held (step files s action) := by
  cases action with
  | proceed c fate =>
    exact held_change h (fun hgranted => hgranted.2.2) hlasting (proceed_change files s c fate)
  | crash c =>
    by_cases hunlocking : ∃ failed, s.runners c = .unlocking failed
    · obtain ⟨failed, hc⟩ := hunlocking
      simp only [step, crash, hc]
      refine ⟨fun d hd => ?_, h.doubt⟩
      obtain ⟨-, hnow⟩ | ⟨-, hold⟩ := busy_update hd
      · exact absurd hnow id
      · exact h.busy d hold
    · exact held_change h (fun hgranted => hgranted.elim)
        (fun failed hc => absurd ⟨failed, hc⟩ hunlocking) (crash_change files s c)
  | sessionEnds =>
    exact ⟨fun d hd => absurd hd (hlasting.1 d), fun hdoubt => absurd hlasting.2 hdoubt⟩
  | settle position committed =>
    cases hdoubt : s.inDoubt[position]? with
    | none =>
      simp only [step, hdoubt]
      exact h
    | some doubt =>
      have hsome : s.lock ≠ none := by
        refine h.doubt fun hnone => ?_
        rw [hnone] at hdoubt
        cases hdoubt
      simp only [step, hdoubt]
      split_ifs
      · exact ⟨h.busy, fun _ => hsome⟩
      · exact ⟨h.busy, fun _ => hsome⟩

/-- The lock is granted to runners alone as long as the sessions that hold it last. -/
theorem alone_of_lasting {files : List String} (table : MigrationTable) {actions : List (Step ι)}
    (h : RunMeets (step files) Lasting (initial ι table) actions) :
    RunMeets (step files) Alone (initial ι table) actions := by
  have hstep : ∀ s action, Lasting s action → Held s → Held (step files s action) :=
    fun (s : State ι) action ha hs => held_step hs ha
  have halone : ∀ s action, Lasting s action → Held s → Alone s action :=
    fun (s : State ι) action _ hs => hs.alone action
  exact run_meets hstep halone h ⟨fun _ hc => absurd hc id, fun hdoubt => absurd rfl hdoubt⟩

/-! ## The promises -/

omit [DecidableEq ι] in
/-- A file that fails leaves neither its statements nor its row. -/
theorem traceless_of_kept (h : Kept dir table s) {file : String} (hfailed : (c, file) ∈ s.failed) :
    (c, file) ∉ s.applied ∧ ∀ row ∈ s.rows, row.name = file → row.runner ≠ some c := by
  have happlied : (c, file) ∉ s.applied := by
    intro hin
    have hparts := (List.nodup_append.mp h.db.distinct).1
    exact (List.nodup_append.mp hparts).2.2 _ hin _ hfailed rfl
  refine ⟨happlied, fun row hrow hname hrunner => ?_⟩
  obtain ⟨-, hnone⟩ | ⟨d, hd, hin⟩ := h.db.rows row hrow
  · rw [hrunner] at hnone
    cases hnone
  · obtain rfl : c = d := Option.some.inj (hrunner.symm.trans hd)
    exact happlied (hname ▸ hin)

/-- In every run, whatever happens to the lock, a name is recorded once, the files are
committed in filename order and a file that fails leaves no trace. -/
theorem ordered_and_traceless (dir : MigrationsDir) (table : MigrationTable)
    (actions : List (Step ι)) :
    let s := run (step dir.files) (initial ι table) actions
    s.names.Nodup ∧
      (∀ past c file later, s.applied = past ++ (c, file) :: later →
        ∀ other ∈ dir.files, Precedes other file →
          other ∈ table.names ∨ other ∈ past.map Prod.snd) ∧
      ∀ c file, (c, file) ∈ s.failed →
        (c, file) ∉ s.applied ∧ ∀ row ∈ s.rows, row.name = file → row.runner ≠ some c := by
  have hkept := kept_run dir table actions
  exact ⟨hkept.db.recorded, hkept.db.ordered, fun c file => traceless_of_kept hkept⟩

/-- As long as the lock is not granted while another runner, or a `COMMIT` in doubt, can
still commit, every file is committed once as well. -/
theorem migrations_apply_once (dir : MigrationsDir) (table : MigrationTable)
    (actions : List (Step ι))
    (halone : RunMeets (step dir.files) Alone (initial ι table) actions) :
    Promised dir table (run (step dir.files) (initial ι table) actions) := by
  have hkept := kept_run dir table actions
  have hstep : ∀ s action, Alone s action → Kept dir table s ∧ Exclusive dir table s →
      Kept dir table (step dir.files s action) ∧ Exclusive dir table (step dir.files s action) :=
    fun (s : State ι) action ha h => ⟨kept_step h.1 action, exclusive_step h.1 h.2 ha⟩
  have hexclusive := (run_keeps hstep halone
    ⟨kept_initial dir table, exclusive_initial dir table⟩).2
  have hrecorded := hkept.db.recorded
  have hparts := List.nodup_append.mp (hexclusive.names ▸ hrecorded)
  exact ⟨hrecorded, hparts.2.1, fun file hin hold => hparts.2.2 file hold file hin rfl,
    hkept.db.ordered, fun c file hfailed => traceless_of_kept hkept hfailed⟩

/-- A directory of one migration. -/
def oneMigration : MigrationsDir := ⟨["001-initial-schema.sql"], List.nodup_singleton _⟩

/-- A database without recorded migrations. -/
def unmigrated : MigrationTable := ⟨[], List.nodup_nil⟩

/-- The first statements of a runner are answered, one after the other. -/
def answers (c : Bool) (count : ℕ) : List (Step Bool) :=
  List.replicate count (.proceed c .answered)

/-- One runner is refused the text of the file, a second one applies it. -/
def retriedStart : List (Step Bool) :=
  answers false 5 ++ [.proceed false .refused] ++ answers false 2 ++ answers true 9

/-- The session that holds the lock ends before the first runner commits, and a second
one has read the recorded names by then. -/
def lostSession : List (Step Bool) :=
  answers false 7 ++ [.sessionEnds] ++ answers true 3 ++ answers false 1 ++ answers true 5

theorem files_oneMigration : oneMigration.files = ["001-initial-schema.sql"] := by
  have hsql : isSql "001-initial-schema.sql" = true := by decide
  have hlisting : oneMigration.listing.filter isSql = ["001-initial-schema.sql"] := by
    simp [oneMigration, hsql]
  rw [MigrationsDir.files, hlisting]
  simp [TextCodes.sortTexts]

/-- The second runner waits for the lock of the first one. -/
theorem alone_of_lasting_waiting :
    RunMeets (step oneMigration.files) Alone (initial Bool unmigrated)
      (answers false 7 ++ answers true 3) := by
  refine alone_of_lasting unmigrated ?_
  rw [files_oneMigration]
  repeat' first | exact trivial | refine And.intro (fun _ _ _ => rfl) ?_

instance (s : State Bool) : (action : Step Bool) → Decidable (Alone s action)
  | .proceed c .answered => inferInstanceAs (Decidable (s.runners c = .locking → s.lock = none →
      (∀ d, ¬ Busy (s.runners d)) ∧ s.inDoubt = []))
  | .proceed _ .refused => .isTrue trivial
  | .proceed _ .lost => .isTrue trivial
  | .crash _ => .isTrue trivial
  | .sessionEnds => .isTrue trivial
  | .settle _ _ => .isTrue trivial

/-- A start that fails is repeated. -/
theorem migrations_apply_once_retried :
    (run (step oneMigration.files) (initial Bool unmigrated) retriedStart).applied =
        [(true, "001-initial-schema.sql")] ∧
      Promised oneMigration unmigrated
        (run (step oneMigration.files) (initial Bool unmigrated) retriedStart) := by
  refine ⟨?_, migrations_apply_once oneMigration unmigrated retriedStart ?_⟩
  · rw [files_oneMigration]
    decide
  · rw [files_oneMigration]
    decide

/-- A migration is committed twice. -/
theorem lost_session_applies_twice :
    ¬ ∀ (dir : MigrationsDir) (table : MigrationTable) (actions : List (Step Bool)),
      Promised dir table (run (step dir.files) (initial Bool table) actions) := by
  intro h
  have honce := (h oneMigration unmigrated lostSession).once
  rw [files_oneMigration] at honce
  exact absurd honce (by decide)

end FactoryServer.MigrationLocks
