import FactoryServer.ConditionalSaves
import Mathlib.Data.List.Induction

/-!
# Rows under a held lock

A mutation reads its records, hands them to the engine and upserts what comes back, over many
awaits. From the step that takes its locks to the one that gives them back nobody else's upsert
of these rows is committed: what a call overwrites is what it has read, or its own.
-/

namespace FactoryServer.HeldRows

open DurableSave GuardedRuns StorageTables ConcurrentWrites LockDiscipline ConditionalSaves

variable {ι : Type} [DecidableEq ι] {h : Host} {start : Tables} {s : State ι} {c : ι} {work : Work}

/-- The call holds the locks of this work when the next action comes. -/
def Holds (c : ι) (work : Work) (s : State ι) (_ : WriteAction ι) : Prop :=
  lockedWork? (s.calls c) = some work

/-- The committed upserts of a call. -/
def upsertsOf (c : ι) (log : List (Write ι)) : List (Write ι) := log.filter fun w => w.call = c

/-- What a step commits of the rows that a call has locked is the call's own. -/
theorem step_held {a : WriteAction ι} (hd : Disciplined h s a) (hi : Inv h start s)
    (hheld : Holds c work s a) :
    ∃ ws, (step h s a).log = s.log ++ ws ∧
      (step h s a).tables.tournaments = putRows s.tables.tournaments ws ∧
      ∀ w ∈ ws, .tournament w.id ∈ work.lockKeys c → w.call = c := by
  cases hcall : a.call? with
  | none =>
    cases a with
    | outside tables roles =>
      have hrows := (hd.outside tables roles rfl).1
      exact ⟨[], (List.append_nil _).symm, hrows, fun w hw => absurd hw List.not_mem_nil⟩
    | _ => cases hcall
  | some d =>
    have hm := moves_step hd hcall hi.now (hi.calls d) hi.receipts
    obtain ⟨ws, hlog, hrows, hmine⟩ := hm.log
    refine ⟨ws, hlog, hrows, fun w hw hkey => ?_⟩
    obtain ⟨hwriter, hlock⟩ := hmine w hw
    have hheldKey : s.holder (.tournament w.id) = some c := (hi.calls c).locks work hheld _ hkey
    rw [hwriter]
    exact Option.some.inj (hlock.symm.trans hheldKey)

omit [DecidableEq ι] in
/-- The last upsert decides on its row. -/
theorem putRows_concat (rows : String → Option TournamentRow) (ws : List (Write ι)) (w : Write ι) :
    putRows rows (ws ++ [w]) = Function.update (putRows rows ws) w.id (some w.row) := by
  simp only [putRows, List.foldl_append, List.foldl_cons, List.foldl_nil]

/-- A row that only one call upserts is what its upserts make of it. -/
theorem putRows_own {rows : String → Option TournamentRow} {ws : List (Write ι)} {id : String}
    (hown : ∀ w ∈ ws, w.id = id → w.call = c) :
    putRows rows ws id = putRows rows (upsertsOf c ws) id := by
  induction ws using List.reverseRecOn with
  | nil => rfl
  | append_singleton ws w ih =>
    have hbefore := ih fun v hv => hown v (List.mem_append_left _ hv)
    by_cases hcall : w.call = c
    · have hsplit : upsertsOf c (ws ++ [w]) = upsertsOf c ws ++ [w] := by
        simp [upsertsOf, hcall]
      rw [hsplit, putRows_concat, putRows_concat]
      by_cases hid : id = w.id
      · rw [hid, Function.update_self, Function.update_self]
      · rw [Function.update_of_ne hid, Function.update_of_ne hid, hbefore]
    · have hsplit : upsertsOf c (ws ++ [w]) = upsertsOf c ws := by
        simp [upsertsOf, hcall]
      have hid : id ≠ w.id := fun heq =>
        hcall (hown w (List.mem_append_right _ List.mem_cons_self) heq.symm)
      rw [hsplit, putRows_concat, Function.update_of_ne hid, hbefore]

/-- What is committed while a call holds its locks. -/
theorem run_held {actions : List (WriteAction ι)}
    (hmeets : RunMeets (step h) (Disciplined h) s actions) (hi : Inv h start s)
    (hheld : RunMeets (step h) (Holds c work) s actions) :
    ∃ ws, (run (step h) s actions).log = s.log ++ ws ∧
      (run (step h) s actions).tables.tournaments = putRows s.tables.tournaments ws ∧
      ∀ w ∈ ws, .tournament w.id ∈ work.lockKeys c → w.call = c := by
  induction actions generalizing s with
  | nil => exact ⟨[], (List.append_nil _).symm, rfl, fun w hw => absurd hw List.not_mem_nil⟩
  | cons a rest ih =>
    obtain ⟨first, hlog, hrows, hmine⟩ := step_held hmeets.1 hi hheld.1
    obtain ⟨later, hlogs, hrowss, hmines⟩ := ih hmeets.2 (inv_step s a hmeets.1 hi) hheld.2
    refine ⟨first ++ later, ?_, ?_, fun w hw hkey => ?_⟩
    · rw [run, List.foldl_cons, ← run, hlogs, hlog, List.append_assoc]
    · rw [run, List.foldl_cons, ← run, hrowss, hrows, putRows, putRows, putRows, List.foldl_append]
    · exact (List.mem_append.mp hw).elim (fun hin => hmine w hin hkey) fun hin => hmines w hin hkey

/-- Among writers that take locks: from any step at which a call holds its locks to the one that
gives them back, a row under its locks is what the call found, changed by nothing but the upserts
that the call itself has committed since. -/
theorem held_rows_kept (tables : Tables) (roles : String → List (String × String))
    (past rest : List (WriteAction ι)) {id : String}
    (hmeets : RunMeets (step h) (Disciplined h) (State.start tables roles) (past ++ rest))
    (hheld : RunMeets (step h) (Holds c work) (run (step h) (State.start tables roles) past) rest)
    (hid : .tournament id ∈ work.lockKeys c) :
    let found := run (step h) (State.start tables roles) past
    let left := run (step h) (State.start tables roles) (past ++ rest)
    ∃ own, upsertsOf c left.log = upsertsOf c found.log ++ own ∧
      left.tables.tournaments id = putRows found.tables.tournaments own id := by
  intro found left
  have hpast : RunMeets (step h) (Disciplined h) (State.start tables roles) past :=
    runMeets_initial hmeets (List.prefix_append past rest)
  have hfound : Inv h tables found := run_keeps inv_step hpast (inv_start tables roles)
  have hleft : left = run (step h) found rest := List.foldl_append
  obtain ⟨ws, hlog, hrows, hmine⟩ := run_held (runMeets_rest hmeets) hfound hheld
  refine ⟨upsertsOf c ws, ?_, ?_⟩
  · rw [hleft, hlog, upsertsOf, List.filter_append]
    rfl
  · rw [hleft, hrows]
    exact putRows_own fun w hw heq => hmine w hw (heq ▸ hid)

/-! ## A creation under its lock -/

/-- The creation takes its lock with the fifth answer, and gives it back with the ninth. -/
theorem held_rows_kept_creation :
    let past : List (WriteAction Unit) := .save () creation :: List.replicate 5 (.advance ())
    let rest : List (WriteAction Unit) := List.replicate 4 (.advance ())
    let found := run (step plainHost) (State.start emptyTables fun _ => []) past
    let left := run (step plainHost) (State.start emptyTables fun _ => []) (past ++ rest)
    ∃ own, upsertsOf () left.log = upsertsOf () found.log ++ own ∧
      left.tables.tournaments "t" = putRows found.tables.tournaments own "t" := by
  intro past rest
  have hadvance : ∀ s : State Unit, (∀ request reply ws todo,
      s.calls () ≠ .writing (.queue request) reply ws todo) →
      Disciplined plainHost s (.advance ()) := fun s hs => disciplined_alone (Or.inr rfl) hs
  refine held_rows_kept emptyTables (fun _ => []) past rest ?_
    ⟨rfl, rfl, rfl, rfl, trivial⟩ (List.mem_singleton.mpr rfl)
  refine ⟨disciplined_alone (Or.inl rfl) ?_, hadvance _ ?_, hadvance _ ?_, hadvance _ ?_,
    hadvance _ ?_, hadvance _ ?_, hadvance _ ?_, hadvance _ ?_, hadvance _ ?_, hadvance _ ?_,
    trivial⟩
  all_goals exact fun _ _ _ _ hstage => by cases hstage

end FactoryServer.HeldRows
