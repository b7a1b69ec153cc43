import Mathlib.Data.List.Basic

/-!
# Runs whose steps meet a condition

A system takes actions one after the other. A condition relates an action to the
state it finds, and an invariant that every action meeting the condition keeps
holds in every state of a run whose actions all meet it.
-/

namespace FactoryServer.GuardedRuns

variable {State Action : Type} (step : State → Action → State)

/-- The state after a run. -/
def run (s : State) (actions : List Action) : State := actions.foldl step s

/-- Every action of a run meets `P` in the state it finds. -/
def RunMeets (P : State → Action → Prop) : State → List Action → Prop
  | _, [] => True
  | s, a :: rest => P s a ∧ RunMeets P (step s a) rest

/-- Some earlier action of a run met `P` in the state it found. -/
def Happened (P : State → Action → Prop) : State → List Action → Prop
  | _, [] => False
  | s, a :: rest => P s a ∨ Happened P (step s a) rest

/-- A decidable condition is decided over a run. -/
instance decidableRunMeets {P : State → Action → Prop} [∀ s a, Decidable (P s a)] :
    (s : State) → (actions : List Action) → Decidable (RunMeets step P s actions)
  | _, [] => .isTrue trivial
  | s, a :: rest =>
    have : Decidable (RunMeets step P (step s a) rest) := decidableRunMeets (step s a) rest
    instDecidableAnd

variable {step} {P Q : State → Action → Prop} {Inv : State → Prop}

/-- What one action preserves, a run preserves. -/
theorem run_keeps (hstep : ∀ s a, P s a → Inv s → Inv (step s a)) {s : State}
    {actions : List Action} (hmeets : RunMeets step P s actions) (hinv : Inv s) :
    Inv (run step s actions) := by
  induction actions generalizing s with
  | nil => exact hinv
  | cons a rest ih => exact ih hmeets.2 (hstep s a hmeets.1 hinv)

/-- What follows from the condition and the invariant holds of every action. -/
theorem run_meets (hstep : ∀ s a, P s a → Inv s → Inv (step s a))
    (himp : ∀ s a, P s a → Inv s → Q s a) {s : State} {actions : List Action}
    (hmeets : RunMeets step P s actions) (hinv : Inv s) : RunMeets step Q s actions := by
  induction actions generalizing s with
  | nil => trivial
  | cons a rest ih =>
    exact ⟨himp s a hmeets.1 hinv, ih hmeets.2 (hstep s a hmeets.1 hinv)⟩

/-- The last action of a run meets what every action meets. -/
theorem runMeets_last {s : State} {actions : List Action} {a : Action}
    (hmeets : RunMeets step P s (actions ++ [a])) : P (run step s actions) a := by
  induction actions generalizing s with
  | nil => exact hmeets.1
  | cons b rest ih => exact ih hmeets.2

/-- The actions of a run that meet a condition, one by one: each is the last of a
beginning of the run. -/
theorem runMeets_iff {s : State} {actions : List Action} :
    RunMeets step P s actions ↔ ∀ past a, past ++ [a] <+: actions → P (run step s past) a := by
  induction actions generalizing s with
  | nil => simp [RunMeets]
  | cons b rest ih =>
    constructor
    · rintro ⟨hfirst, hrest⟩ past a hpast
      cases past with
      | nil =>
        obtain ⟨rfl, -⟩ := List.cons_prefix_cons.mp hpast
        exact hfirst
      | cons c past =>
        obtain ⟨rfl, hlater⟩ := List.cons_prefix_cons.mp hpast
        exact ih.mp hrest past a hlater
    · intro h
      refine ⟨h [] b (List.cons_prefix_cons.mpr ⟨rfl, List.nil_prefix⟩), ih.mpr fun past a hp => ?_⟩
      exact h (b :: past) a (List.cons_prefix_cons.mpr ⟨rfl, hp⟩)

/-- A beginning of a run that meets a condition meets it. -/
theorem runMeets_initial {s : State} {actions past : List Action}
    (hmeets : RunMeets step P s actions) (hpast : past <+: actions) : RunMeets step P s past :=
  runMeets_iff.mpr fun earlier a hearlier =>
    runMeets_iff.mp hmeets earlier a (hearlier.trans hpast)

/-- The rest of a run that meets a condition meets it where the beginning has led. -/
theorem runMeets_rest {s : State} {past rest : List Action}
    (hmeets : RunMeets step P s (past ++ rest)) : RunMeets step P (run step s past) rest := by
  induction past generalizing s with
  | nil => exact hmeets
  | cons a past ih => exact ih hmeets.2

/-- What every action preserves, every run preserves. -/
theorem run_always (hstep : ∀ s a, Inv s → Inv (step s a)) {s : State} (actions : List Action)
    (hinv : Inv s) : Inv (run step s actions) := by
  induction actions generalizing s with
  | nil => exact hinv
  | cons a rest ih => exact ih (hstep s a hinv)

/-- Where an action that finds the invariant keeps it exactly under a condition, it holds
after every beginning of a run exactly when every action meets the condition. -/
theorem runMeets_iff_always (hstep : ∀ s a, Inv s → (Inv (step s a) ↔ P s a)) {s : State}
    {actions : List Action} (hinv : Inv s) :
    (∀ past, past <+: actions → Inv (run step s past)) ↔ RunMeets step P s actions := by
  constructor
  · intro halways
    refine runMeets_iff.mpr fun past a hpast => ?_
    have hbefore := halways past ((List.prefix_append past [a]).trans hpast)
    have hafter := halways (past ++ [a]) hpast
    rw [run, List.foldl_append] at hafter
    exact (hstep _ a hbefore).mp hafter
  · intro hmeets past hpast
    exact run_keeps (fun s a hp hi => (hstep s a hi).mpr hp) (runMeets_initial hmeets hpast) hinv

/-- A run takes its last action in the state the others leave. -/
theorem run_concat (s : State) (actions : List Action) (a : Action) :
    run step s (actions ++ [a]) = step (run step s actions) a := by
  simp [run, List.foldl_append]

/-- What has happened after one more action: it happened before, or it happens now. -/
theorem happened_concat {s : State} {actions : List Action} {a : Action} :
    Happened step P s (actions ++ [a]) ↔ Happened step P s actions ∨ P (run step s actions) a := by
  induction actions generalizing s with
  | nil => simp [Happened, run]
  | cons b rest ih => simp only [List.cons_append, Happened, ih, or_assoc, run, List.foldl_cons]

end FactoryServer.GuardedRuns
