import FactoryServer.InsertionMaps
import FactoryServer.MigrationRunner

/-!
# Migrations apply in order and leave no trace when they fail

What a step does to a runner and to the database is one of a few changes. In every run,
whatever is lost and whoever stops, the files are committed in filename order and a file
that fails leaves no trace.
-/

namespace FactoryServer.MigrationOrder

open GuardedRuns InsertionMaps MigrationRunner TextCodes

variable {ι : Type} {dir : MigrationsDir} {table : MigrationTable} {s : State ι}

/-! ## The files -/

/-- Files stand in filename order. -/
theorem files_sorted (dir : MigrationsDir) :
    dir.files.Pairwise fun name other => ¬ Precedes other name := by
  refine List.pairwise_map.mpr ((sortTexts_pairwise _).imp fun {a b} hab => ?_)
  rintro ⟨hne, hba⟩
  rw [String.toList_ofList, String.toList_ofList] at hba
  exact hne (congrArg String.ofList (notAfter_antisymm hba hab))

/-- Each file stands in the list once. -/
theorem files_nodup (dir : MigrationsDir) : dir.files.Nodup := by
  have htexts : (sortTexts ((dir.listing.filter isSql).map String.toList)).Nodup := by
    refine (List.mergeSort_perm _ notAfter).nodup_iff.mpr ?_
    exact (dir.distinct.filter _).map fun _ _ h => String.toList_injective h
  exact htexts.map fun _ _ h => String.ofList_injective h

/-! ## The stages -/

/-- The files a runner is still to commit, the open one first. -/
def ahead : Stage → List String
  | .opening file rest => file :: rest
  | .applying _ tx rest => tx.file :: rest
  | _ => []

/-- What the transaction has done before a statement. -/
def Done : Stage → Prop
  | .applying .record tx _ => tx.ran = true
  | .applying .commit tx _ => tx.ran = true ∧ tx.recorded = true
  | _ => True

/-- The recorded names are not read yet. -/
def Unread : Stage → Prop
  | .starting => True
  | .locking => True
  | .reading => True
  | _ => False

/-- The runner commits nothing any more. -/
inductive Idle : Stage → Prop
  | rollingBack : Idle .rollingBack
  | unlocking (failed : Bool) : Idle (.unlocking failed)
  | ended (failed : Bool) : Idle (.ended failed)

/-! ## The order -/

/-- No file of a list is ahead of an earlier one that is neither recorded nor in the list
before it. -/
def InOrder (dir : MigrationsDir) (names files : List String) : Prop :=
  ∀ past file later, files = past ++ file :: later →
    ∀ other ∈ dir.files, Precedes other file → other ∈ names ∨ other ∈ past

theorem inOrder_nil (dir : MigrationsDir) (names : List String) : InOrder dir names [] :=
  fun past _ _ h => by simp at h

theorem InOrder.mono {names more files : List String} (h : InOrder dir names files)
    (hmore : ∀ name ∈ names, name ∈ more) : InOrder dir more files :=
  fun past file later heq other hother hprecedes =>
    (h past file later heq other hother hprecedes).imp_left (hmore other)

/-- When the first file is recorded, the others are in order. -/
theorem InOrder.tail {names more rest : List String} {file : String}
    (h : InOrder dir names (file :: rest)) (hmore : ∀ name ∈ names, name ∈ more)
    (hfile : file ∈ more) : InOrder dir more rest := by
  intro past next later heq other hother hprecedes
  obtain hin | hin := h (file :: past) next later (congrArg (file :: ·) heq) other hother hprecedes
  · exact Or.inl (hmore other hin)
  · obtain rfl | hpast := List.mem_cons.mp hin
    · exact Or.inl hfile
    · exact Or.inr hpast

theorem InOrder.first {names rest : List String} {file : String}
    (h : InOrder dir names (file :: rest)) : InOrder dir names [file] := by
  intro past next later heq
  cases past with
  | nil =>
    obtain ⟨rfl, -⟩ := List.cons.inj heq
    exact h [] file rest rfl
  | cons other past =>
    have hlength := congrArg List.length heq
    simp at hlength

theorem InOrder.head {names rest : List String} {file : String}
    (h : InOrder dir names (file :: rest)) : ∀ other ∈ dir.files, Precedes other file →
      other ∈ names := by
  intro other hother hprecedes
  obtain hin | hin := h [] file rest rfl other hother hprecedes
  · exact hin
  · cases hin

/-- The files that are not recorded are in order. -/
theorem inOrder_filter (dir : MigrationsDir) (names : List String) :
    InOrder dir names (dir.files.filter fun file => file ∉ names) := by
  intro past file later heq other hother hprecedes
  by_contra hnone
  obtain ⟨hname, hpast⟩ := not_or.mp hnone
  have hkept : other ∈ dir.files.filter fun file => file ∉ names :=
    List.mem_filter.mpr ⟨hother, by simpa using hname⟩
  have hsorted := (files_sorted dir).sublist
    (List.filter_sublist (p := fun file => decide (file ∉ names)))
  rw [heq] at hkept hsorted
  obtain hin | hin := List.mem_append.mp hkept
  · exact hpast hin
  · obtain rfl | hlater := List.mem_cons.mp hin
    · exact hprecedes.1 rfl
    · have hafter := (List.pairwise_cons.mp (List.pairwise_append.mp hsorted).2.1).1 other hlater
      exact hafter hprecedes

/-! ## Every run -/

/-- What each runner has applied, failed to apply or left in doubt. -/
def entries (s : State ι) : List (ι × String) :=
  s.applied ++ s.failed ++ s.inDoubt.map fun doubt => (doubt.1, doubt.2.file)

/-- What holds of a runner at its stage. -/
structure RunnerKept (dir : MigrationsDir) (names : List String) (done : List (ι × String))
    (c : ι) (stage : Stage) : Prop where
  /-- Its files are in order. -/
  order : InOrder dir names (ahead stage)
  /-- Each of them stands there once. -/
  once : (ahead stage).Nodup
  /-- Its transaction has done the statements before. -/
  flags : Done stage
  /-- It has not applied the files that are ahead. -/
  new : ∀ file ∈ ahead stage, (c, file) ∉ done
  /-- It has applied nothing before it has read the names. -/
  unread : Unread stage → ∀ file, (c, file) ∉ done

/-- What holds of the database in every run. -/
structure DbKept (dir : MigrationsDir) (table : MigrationTable) (s : State ι) : Prop where
  recorded : s.names.Nodup
  /-- A row was there before, or its runner has applied its file. -/
  rows : ∀ row ∈ s.rows, row.name ∈ table.names ∧ row.runner = none ∨
    ∃ c, row.runner = some c ∧ (c, row.name) ∈ s.applied
  ordered : ∀ past c file later, s.applied = past ++ (c, file) :: later →
    ∀ other ∈ dir.files, Precedes other file →
      other ∈ table.names ∨ other ∈ past.map Prod.snd
  distinct : (entries s).Nodup
  /-- A `COMMIT` in doubt is of a transaction that has done everything, in its order. -/
  doubts : ∀ doubt ∈ s.inDoubt, InOrder dir s.names [doubt.2.file] ∧
    doubt.2.ran = true ∧ doubt.2.recorded = true

/-- What holds in every run. -/
structure Kept (dir : MigrationsDir) (table : MigrationTable) (s : State ι) : Prop where
  db : DbKept dir table s
  runners : ∀ c, RunnerKept dir s.names (entries s) c (s.runners c)

theorem RunnerKept.mono {names more : List String} {done others : List (ι × String)} {c : ι}
    {stage : Stage} (h : RunnerKept dir names done c stage) (hmore : ∀ name ∈ names, name ∈ more)
    (hothers : ∀ file, (c, file) ∈ others → (c, file) ∈ done) :
    RunnerKept dir more others c stage :=
  ⟨h.order.mono hmore, h.once, h.flags, fun file hfile hin => h.new file hfile (hothers file hin),
    fun hunread file hin => h.unread hunread file (hothers file hin)⟩

/-- An idle runner has nothing to keep. -/
theorem RunnerKept.idle {names : List String} {done : List (ι × String)} {c : ι} {stage : Stage}
    (h : Idle stage) : RunnerKept dir names done c stage := by
  cases h
  all_goals exact ⟨inOrder_nil dir names, List.nodup_nil, trivial,
    fun _ hin => absurd hin List.not_mem_nil, fun hunread => absurd hunread id⟩

/-! ### The database -/

theorem entries_fail (s : State ι) (c : ι) (file : String) :
    (entries (s.fail c file)).Perm ((c, file) :: entries s) := by
  have h : entries (s.fail c file) = (s.applied ++ s.failed) ++
      (c, file) :: s.inDoubt.map fun doubt => (doubt.1, doubt.2.file) := by
    simp [entries, State.fail]
  exact h ▸ List.perm_middle

theorem entries_doubt (s : State ι) (c : ι) (tx : Tx) :
    (entries (s.doubt c tx)).Perm ((c, tx.file) :: entries s) := by
  have h : entries (s.doubt c tx) = entries s ++ [(c, tx.file)] := by
    simp [entries, State.doubt]
  exact h ▸ List.perm_append_singleton _ _

theorem entries_commit (s : State ι) (c : ι) {tx : Tx} (hran : tx.ran = true) :
    (entries (s.commit c tx)).Perm ((c, tx.file) :: entries s) := by
  have h : entries (s.commit c tx) = s.applied ++ (c, tx.file) :: (s.failed ++
      s.inDoubt.map fun doubt => (doubt.1, doubt.2.file)) := by
    simp [entries, State.commit, hran]
  have hs : entries s = s.applied ++ (s.failed ++
      s.inDoubt.map fun doubt => (doubt.1, doubt.2.file)) := List.append_assoc _ _ _
  rw [h, hs]
  exact List.perm_middle

/-- A commit inserts the row of its file unless it is recorded. -/
theorem rows_commit (s : State ι) (c : ι) {tx : Tx} (hrecorded : tx.recorded = true) :
    tx.file ∈ s.names ∧ (s.commit c tx).rows = s.rows ∨
      tx.file ∉ s.names ∧ (s.commit c tx).rows = s.rows ++ [⟨tx.file, some c⟩] := by
  by_cases hin : tx.file ∈ s.names
  · exact Or.inl ⟨hin, if_neg fun h => h.2 hin⟩
  · exact Or.inr ⟨hin, if_pos ⟨hrecorded, hin⟩⟩

/-- The names that are recorded after a commit. -/
theorem mem_names_commit (s : State ι) (c : ι) {tx : Tx} (hrecorded : tx.recorded = true)
    {name : String} : name ∈ (s.commit c tx).names ↔ name ∈ s.names ∨ name = tx.file := by
  unfold State.names
  obtain ⟨hin, hrows⟩ | ⟨-, hrows⟩ := rows_commit s c hrecorded
  · rw [hrows]
    refine ⟨Or.inl, fun h => ?_⟩
    obtain h | rfl := h
    · exact h
    · exact hin
  · rw [hrows, List.map_append, List.mem_append, List.map_singleton, List.mem_singleton]

variable {c : ι} {tx : Tx}

theorem DbKept.fail (h : DbKept dir table s) {file : String} (hnew : (c, file) ∉ entries s) :
    DbKept dir table (s.fail c file) :=
  ⟨h.recorded, h.rows, h.ordered,
    (entries_fail s c file).nodup_iff.mpr (List.nodup_cons.mpr ⟨hnew, h.distinct⟩), h.doubts⟩

theorem DbKept.doubt (h : DbKept dir table s) (hnew : (c, tx.file) ∉ entries s)
    (horder : InOrder dir s.names [tx.file]) (hdone : tx.ran = true ∧ tx.recorded = true) :
    DbKept dir table (s.doubt c tx) := by
  refine ⟨h.recorded, h.rows, h.ordered,
    (entries_doubt s c tx).nodup_iff.mpr (List.nodup_cons.mpr ⟨hnew, h.distinct⟩), ?_⟩
  intro doubt hdoubt
  obtain hold | hnow := List.mem_append.mp hdoubt
  · exact h.doubts doubt hold
  · rw [List.mem_singleton.mp hnow]
    exact ⟨horder, hdone⟩

/-- A recorded name was there before, or its file is applied. -/
theorem DbKept.recorded_or_applied (h : DbKept dir table s) {name : String} (hin : name ∈ s.names) :
    name ∈ table.names ∨ name ∈ s.applied.map Prod.snd := by
  obtain ⟨row, hrow, rfl⟩ := List.mem_map.mp hin
  obtain ⟨hold, -⟩ | ⟨c, -, happlied⟩ := h.rows row hrow
  · exact Or.inl hold
  · exact Or.inr (List.mem_map_of_mem happlied)

theorem DbKept.commit (h : DbKept dir table s) (hnew : (c, tx.file) ∉ entries s)
    (horder : InOrder dir s.names [tx.file]) (hdone : tx.ran = true ∧ tx.recorded = true) :
    DbKept dir table (s.commit c tx) := by
  have happlied : (s.commit c tx).applied = s.applied ++ [(c, tx.file)] := if_pos hdone.1
  refine ⟨?_, ?_, ?_, ?_, ?_⟩
  · unfold State.names
    obtain ⟨-, hrows⟩ | ⟨hfresh, hrows⟩ := rows_commit s c hdone.2
    · rw [hrows]
      exact h.recorded
    · rw [hrows, List.map_append]
      refine List.nodup_append.mpr ⟨h.recorded, List.nodup_singleton _, fun a ha b hb heq => ?_⟩
      rw [heq, List.mem_singleton.mp hb] at ha
      exact hfresh ha
  · intro row hrow
    have hold : ∀ row ∈ s.rows, row.name ∈ table.names ∧ row.runner = none ∨
        ∃ d, row.runner = some d ∧ (d, row.name) ∈ (s.commit c tx).applied := by
      intro row hrow
      refine (h.rows row hrow).imp_right fun ⟨d, hd, hin⟩ => ⟨d, hd, ?_⟩
      rw [happlied]
      exact List.mem_append_left _ hin
    obtain ⟨-, hrows⟩ | ⟨-, hrows⟩ := rows_commit s c hdone.2
    · exact hold row (hrows ▸ hrow)
    · rw [hrows] at hrow
      obtain hin | hin := List.mem_append.mp hrow
      · exact hold row hin
      · rw [List.mem_singleton.mp hin, happlied]
        exact Or.inr ⟨c, rfl, by simp⟩
  · intro past d file later heq other hother hprecedes
    rw [happlied] at heq
    obtain rfl | ⟨last, rest, hlater⟩ := List.eq_nil_or_concat' later
    · obtain ⟨hpast, hlast⟩ := List.append_inj' heq rfl
      cases hlast
      rw [← hpast]
      exact h.recorded_or_applied (horder.head other hother hprecedes)
    · rw [hlater, ← List.cons_append, ← List.append_assoc] at heq
      obtain ⟨hinit, -⟩ := List.append_inj' heq rfl
      exact h.ordered past d file last hinit other hother hprecedes
  · exact (entries_commit s c hdone.1).nodup_iff.mpr (List.nodup_cons.mpr ⟨hnew, h.distinct⟩)
  · intro doubt hdoubt
    obtain ⟨hin, hrest⟩ := h.doubts doubt hdoubt
    exact ⟨hin.mono fun name hname => (mem_names_commit s c hdone.2).mpr (Or.inl hname), hrest⟩

/-! ## What a step changes -/

variable [DecidableEq ι]

/-- What a runner does to the state, where the lock may be granted to it or not. -/
inductive Change (files : List String) (granted : Prop) (s : State ι) (c : ι) : State ι → Prop
  /-- Nothing. -/
  | nothing : Change files granted s c s
  /-- It goes on, with the files it had or with none. -/
  | move (stage : Stage) (hahead : ahead stage = ahead (s.runners c) ∨ ahead stage = [])
      (hdone : Done (s.runners c) → Done stage) (hunread : Unread stage → Unread (s.runners c))
      (hbusy : Busy stage → Busy (s.runners c)) : Change files granted s c (s.moveTo c stage)
  /-- The lock is granted to it. -/
  | grant (h : s.runners c = .locking) (hgranted : granted) :
      Change files granted s c { s.moveTo c .reading with lock := some c }
  /-- It gives the lock back. -/
  | release (failed : Bool) (h : s.runners c = .unlocking failed) :
      Change files granted s c
        { s.moveTo c (.ended failed) with lock := if s.lock = some c then none else s.lock }
  /-- It reads the recorded names. -/
  | read (h : s.runners c = .reading) : Change files granted s c (s.moveTo c (pending files s.names))
  /-- The file it is at fails. -/
  | fail (file : String) (rest : List String) (stage : Stage)
      (h : ahead (s.runners c) = file :: rest) (hstage : Idle stage) :
      Change files granted s c ((s.fail c file).moveTo c stage)
  /-- Its `COMMIT` is in doubt. -/
  | doubt (tx : Tx) (rest : List String) (stage : Stage)
      (h : s.runners c = .applying .commit tx rest) (hstage : Idle stage) :
      Change files granted s c ((s.doubt c tx).moveTo c stage)
  /-- It commits. -/
  | commit (tx : Tx) (rest : List String) (h : s.runners c = .applying .commit tx rest) :
      Change files granted s c ((s.commit c tx).moveTo c (loop rest))

/-- A runner that goes on with no files and commits nothing any more. -/
theorem Change.idle {files : List String} {granted : Prop} {c : ι} {stage : Stage}
    (hstage : Idle stage) : Change files granted s c (s.moveTo c stage) := by
  refine Change.move stage (Or.inr ?_) (fun _ => ?_) (fun h => ?_) (fun h => ?_)
  all_goals cases hstage
  all_goals first | rfl | trivial

/-- The stop of a process is one of the changes. -/
theorem crash_change (files : List String) (s : State ι) (c : ι) :
    Change files False s c (crash s c) := by
  have hended : Idle (.ended true) := Idle.ended true
  unfold crash
  cases hc : s.runners c with
  | applying statement tx rest =>
    have hahead : ahead (s.runners c) = tx.file :: rest := by rw [hc]; rfl
    cases statement with
    | commit => exact Change.doubt tx rest _ hc hended
    | _ => exact Change.fail tx.file rest _ hahead hended
  | _ => exact Change.idle hended

/-- The end of a statement is one of the changes. -/
theorem proceed_change (files : List String) (s : State ι) (c : ι) (fate : Fate) :
    Change files (fate = .answered ∧ s.runners c = .locking ∧ s.lock = none) s c
      (proceed files s c fate) := by
  have hrolling : Idle .rollingBack := Idle.rollingBack
  have hunlocking : ∀ failed, Idle (.unlocking failed) := Idle.unlocking
  unfold proceed
  cases hc : s.runners c with
  | starting =>
    cases fate with
    | answered =>
      refine Change.move .locking (Or.inr rfl) (fun _ => trivial) (fun _ => ?_)
        fun h => absurd h id
      rw [hc]
      trivial
    | _ => exact Change.idle (Idle.ended true)
  | locking =>
    cases fate with
    | answered =>
      dsimp only
      split_ifs with hlock
      · exact Change.grant hc ⟨rfl, rfl, hlock⟩
      · exact Change.nothing
    | _ => exact Change.idle (hunlocking true)
  | reading =>
    cases fate with
    | answered => exact Change.read hc
    | _ => exact Change.idle (hunlocking true)
  | opening file rest =>
    have hahead : ahead (s.runners c) = file :: rest := by rw [hc]; rfl
    cases fate with
    | answered =>
      refine Change.move (.applying .begin ⟨file, false, false⟩ rest) (Or.inl hahead.symm)
        (fun _ => trivial) (fun h => absurd h id) fun _ => ?_
      rw [hc]
      trivial
    | _ => exact Change.fail file rest _ hahead (hunlocking true)
  | applying statement tx rest =>
    have hahead : ahead (s.runners c) = tx.file :: rest := by rw [hc]; rfl
    have hbusy : Busy (s.runners c) := by rw [hc]; trivial
    cases fate with
    | answered =>
      cases statement with
      | begin =>
        exact Change.move (.applying .run tx rest) (Or.inl hahead.symm)
          (fun _ => trivial) (fun h => absurd h id) fun _ => hbusy
      | run =>
        exact Change.move (.applying .record { tx with ran := true } rest)
          (Or.inl hahead.symm) (fun _ => rfl) (fun h => absurd h id) fun _ => hbusy
      | record =>
        refine Change.move (.applying .commit { tx with recorded := true } rest)
          (Or.inl hahead.symm) (fun hdone => ?_) (fun h => absurd h id) fun _ => hbusy
        rw [hc] at hdone
        exact ⟨hdone, rfl⟩
      | commit => exact Change.commit tx rest hc
    | refused => cases statement <;> exact Change.fail tx.file rest _ hahead hrolling
    | lost =>
      cases statement with
      | commit => exact Change.doubt tx rest _ hc hrolling
      | _ => exact Change.fail tx.file rest _ hahead hrolling
  | rollingBack => exact Change.idle (hunlocking true)
  | unlocking failed =>
    cases fate with
    | answered => exact Change.release failed hc
    | _ => exact Change.idle (Idle.ended true)
  | ended failed => exact Change.nothing

/-! ### One step -/

/-- The files a runner finds pending. -/
theorem ahead_loop (files : List String) : ahead (loop files) = files := by
  cases files <;> rfl

theorem ahead_pending (files names : List String) :
    ahead (pending files names) = [] ∨
      ahead (pending files names) = files.filter fun file => file ∉ names := by
  unfold pending
  split_ifs
  · exact Or.inl rfl
  · exact Or.inr (ahead_loop _)

theorem done_loop (files : List String) : Done (loop files) := by
  cases files <;> trivial

theorem not_unread_loop (files : List String) : ¬ Unread (loop files) := by
  cases files <;> exact id

omit [DecidableEq ι] in
theorem runnerKept_pending {done : List (ι × String)} (names : List String)
    (hnew : ∀ file, (c, file) ∉ done) :
    RunnerKept dir names done c (pending dir.files names) := by
  obtain hnone | hsome := ahead_pending dir.files names
  · refine ⟨hnone ▸ inOrder_nil dir names, hnone ▸ List.nodup_nil, ?_, fun file _ => hnew file,
      fun _ => hnew⟩
    unfold pending
    split_ifs
    · trivial
    · exact done_loop _
  · refine ⟨hsome ▸ inOrder_filter dir names, hsome ▸ (files_nodup dir).filter _, ?_,
      fun file _ => hnew file, fun _ => hnew⟩
    unfold pending
    split_ifs
    · trivial
    · exact done_loop _

/-- The other runners keep what they had. -/
theorem Kept.update (h : Kept dir table s) {s' : State ι} {stage : Stage}
    (hrunners : s'.runners = Function.update s.runners c stage)
    (hdb : DbKept dir table s') (hnames : ∀ name ∈ s.names, name ∈ s'.names)
    (hothers : ∀ d file, d ≠ c → (d, file) ∈ entries s' → (d, file) ∈ entries s)
    (hstage : RunnerKept dir s'.names (entries s') c stage) : Kept dir table s' := by
  refine ⟨hdb, fun d => ?_⟩
  rw [hrunners]
  by_cases hd : d = c
  · rw [hd, Function.update_self]
    exact hstage
  · rw [Function.update_of_ne hd]
    exact (h.runners d).mono hnames fun file => hothers d file hd

omit [DecidableEq ι] in
/-- An entry of another runner was there before. -/
theorem mem_of_perm_cons {before after : List (ι × String)} {file : String}
    (h : after.Perm ((c, file) :: before)) {d : ι} {other : String} (hd : d ≠ c)
    (hin : (d, other) ∈ after) : (d, other) ∈ before := by
  obtain heq | hold := List.mem_cons.mp (h.mem_iff.mp hin)
  · exact absurd (congrArg Prod.fst heq) hd
  · exact hold

/-- A change of a runner keeps what holds in every run. -/
theorem kept_change {granted : Prop} {s' : State ι} (h : Kept dir table s)
    (hchange : Change dir.files granted s c s') : Kept dir table s' := by
  have hc := h.runners c
  cases hchange with
  | nothing => exact h
  | move stage hahead hdone hunread hbusy =>
    refine h.update rfl ⟨h.db.recorded, h.db.rows, h.db.ordered, h.db.distinct,
      h.db.doubts⟩ (fun _ hname => hname) (fun _ _ _ hin => hin) ?_
    refine ⟨?_, ?_, hdone hc.flags, fun file hfile => ?_, fun hun => hc.unread (hunread hun)⟩
    · obtain heq | heq := hahead
      · exact heq ▸ hc.order
      · exact heq ▸ inOrder_nil dir _
    · obtain heq | heq := hahead
      · exact heq ▸ hc.once
      · exact heq ▸ List.nodup_nil
    · obtain heq | heq := hahead
      · exact hc.new file (heq ▸ hfile)
      · rw [heq] at hfile
        cases hfile
  | grant hlocking =>
    have hnew : ∀ file, (c, file) ∉ entries s := by
      refine hc.unread ?_
      rw [hlocking]
      trivial
    exact h.update rfl ⟨h.db.recorded, h.db.rows, h.db.ordered, h.db.distinct,
      h.db.doubts⟩ (fun _ hname => hname) (fun _ _ _ hin => hin)
      ⟨inOrder_nil dir _, List.nodup_nil, trivial, fun file _ => hnew file, fun _ => hnew⟩
  | release failed _ =>
    exact h.update rfl ⟨h.db.recorded, h.db.rows, h.db.ordered, h.db.distinct,
      h.db.doubts⟩ (fun _ hname => hname) (fun _ _ _ hin => hin)
      (RunnerKept.idle (Idle.ended failed))
  | read hreading =>
    have hnew : ∀ file, (c, file) ∉ entries s := by
      refine hc.unread ?_
      rw [hreading]
      trivial
    exact h.update rfl ⟨h.db.recorded, h.db.rows, h.db.ordered, h.db.distinct,
      h.db.doubts⟩ (fun _ hname => hname) (fun _ _ _ hin => hin)
      (runnerKept_pending s.names hnew)
  | fail file rest stage hahead hstage =>
    have hnew := hc.new file (hahead ▸ List.mem_cons_self)
    have hdb := h.db.fail hnew
    exact h.update rfl ⟨hdb.recorded, hdb.rows, hdb.ordered, hdb.distinct,
      hdb.doubts⟩ (fun _ hname => hname)
      (fun d other hd hin => mem_of_perm_cons (entries_fail s c file) hd hin)
      (RunnerKept.idle hstage)
  | doubt tx rest stage hstage' hstage =>
    rw [hstage'] at hc
    have hnew := hc.new tx.file List.mem_cons_self
    have hdb := h.db.doubt hnew hc.order.first hc.flags
    exact h.update rfl ⟨hdb.recorded, hdb.rows, hdb.ordered, hdb.distinct,
      hdb.doubts⟩ (fun _ hname => hname)
      (fun d other hd hin => mem_of_perm_cons (entries_doubt s c tx) hd hin)
      (RunnerKept.idle hstage)
  | commit tx rest hstage =>
    rw [hstage] at hc
    have hnew := hc.new tx.file List.mem_cons_self
    have hdb := h.db.commit hnew hc.order.first hc.flags
    have hnames := fun name => @mem_names_commit ι s c tx hc.flags.2 name
    have hperm := entries_commit s c hc.flags.1
    obtain ⟨hfresh, hrest⟩ := List.nodup_cons.mp (show (tx.file :: rest).Nodup from hc.once)
    refine h.update rfl ⟨hdb.recorded, hdb.rows, hdb.ordered, hdb.distinct,
      hdb.doubts⟩ (fun name hin => (hnames name).mpr (Or.inl hin))
      (fun d other hd hin => mem_of_perm_cons hperm hd hin) ?_
    refine ⟨?_, (ahead_loop rest).symm ▸ hrest, done_loop rest, fun file hfile hin => ?_,
      fun hunread => absurd hunread (not_unread_loop rest)⟩
    · rw [ahead_loop]
      exact hc.order.tail (fun name hin => (hnames name).mpr (Or.inl hin))
        ((hnames tx.file).mpr (Or.inr rfl))
    · rw [ahead_loop] at hfile
      obtain heq | hold := List.mem_cons.mp (hperm.mem_iff.mp hin)
      · have hsame : file = tx.file := congrArg Prod.snd heq
        exact hfresh (hsame ▸ hfile)
      · exact hc.new file (List.mem_cons_of_mem _ hfile) hold

omit [DecidableEq ι] in
/-- A `COMMIT` in doubt stands among the entries. -/
theorem entries_eraseIdx {position : ℕ} (hdoubt : s.inDoubt[position]? = some (c, tx)) :
    (entries s).Perm
      ((c, tx.file) :: entries { s with inDoubt := s.inDoubt.eraseIdx position }) := by
  obtain ⟨hsplit, herase⟩ := split_at hdoubt
  have hperm : s.inDoubt.Perm ((c, tx) :: s.inDoubt.eraseIdx position) := by
    conv_lhs => rw [hsplit]
    rw [herase]
    exact List.perm_middle
  exact ((hperm.map fun doubt => (doubt.1, doubt.2.file)).append_left _).trans List.perm_middle

omit [DecidableEq ι] in
/-- What becomes of a `COMMIT` in doubt keeps what holds in every run. -/
theorem kept_settle (h : Kept dir table s) {position : ℕ} (committed : Bool)
    (hdoubt : s.inDoubt[position]? = some (c, tx)) :
    let rest := { s with inDoubt := s.inDoubt.eraseIdx position }
    Kept dir table (if committed then rest.commit c tx else rest.fail c tx.file) := by
  intro rest
  have hperm := entries_eraseIdx hdoubt
  obtain ⟨hnew, hdistinct⟩ := List.nodup_cons.mp (hperm.nodup_iff.mp h.db.distinct)
  have hrest : DbKept dir table rest := ⟨h.db.recorded, h.db.rows, h.db.ordered, hdistinct,
    fun doubt hin => h.db.doubts doubt (List.mem_of_mem_eraseIdx hin)⟩
  obtain ⟨horder, hdone⟩ := h.db.doubts (c, tx) (List.mem_of_getElem? hdoubt)
  cases committed with
  | false =>
    refine ⟨hrest.fail hnew, fun d => (h.runners d).mono (fun _ hname => hname) fun file hin => ?_⟩
    exact hperm.mem_iff.mpr ((entries_fail rest c tx.file).mem_iff.mp hin)
  | true =>
    refine ⟨hrest.commit hnew horder hdone, fun d => (h.runners d).mono (fun name hname => ?_)
      fun file hin => ?_⟩
    · exact (mem_names_commit rest c hdone.2).mpr (Or.inl hname)
    · exact hperm.mem_iff.mpr ((entries_commit rest c hdone.1).mem_iff.mp hin)

/-- One step keeps what holds in every run. -/
theorem kept_step (h : Kept dir table s) (action : Step ι) :
    Kept dir table (step dir.files s action) := by
  cases action with
  | proceed c fate => exact kept_change h (proceed_change dir.files s c fate)
  | crash c => exact kept_change h (crash_change dir.files s c)
  | sessionEnds =>
    exact ⟨⟨h.db.recorded, h.db.rows, h.db.ordered, h.db.distinct, h.db.doubts⟩, h.runners⟩
  | settle position committed =>
    cases hdoubt : s.inDoubt[position]? with
    | none =>
      simp only [step, hdoubt]
      exact h
    | some doubt =>
      simp only [step, hdoubt]
      exact kept_settle h committed hdoubt

omit [DecidableEq ι] in
theorem names_initial (table : MigrationTable) : (initial ι table).names = table.names := by
  simp [initial, State.names, Function.comp_def]

omit [DecidableEq ι] in
theorem kept_initial (dir : MigrationsDir) (table : MigrationTable) :
    Kept dir table (initial ι table) := by
  refine ⟨⟨?_, ?_, ?_, List.nodup_nil, fun _ hdoubt => absurd hdoubt List.not_mem_nil⟩, fun c => ?_⟩
  · rw [names_initial]
    exact table.keyed
  · intro row hrow
    obtain ⟨name, hname, rfl⟩ := List.mem_map.mp hrow
    exact Or.inl ⟨hname, rfl⟩
  · intro past c file later heq
    simp [initial] at heq
  · exact ⟨inOrder_nil dir _, List.nodup_nil, trivial, fun _ hin => absurd hin List.not_mem_nil,
      fun _ _ hin => absurd hin List.not_mem_nil⟩

/-- What holds in every run. -/
theorem kept_run (dir : MigrationsDir) (table : MigrationTable) (actions : List (Step ι)) :
    Kept dir table (run (step dir.files) (initial ι table) actions) := by
  have hstep : ∀ s action, Kept dir table s → Kept dir table (step dir.files s action) :=
    fun (s : State ι) action h => kept_step h action
  exact run_always hstep actions (kept_initial dir table)

end FactoryServer.MigrationOrder
