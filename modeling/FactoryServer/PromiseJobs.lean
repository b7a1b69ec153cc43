import Mathlib.Data.Nat.Notation
import Mathlib.Logic.Function.Basic
import Mathlib.Tactic.SplitIfs

/-!
# Promises and their jobs

A promise that is pending keeps its reactions in the order in which they were
registered; when it settles they become jobs, and a reaction to a settled promise is
a job at once. Jobs run first in, first out.
-/

namespace FactoryServer.PromiseJobs

/-- The promises of a process, by number, and the jobs that wait to run. -/
structure Promises (R : Type) where
  /-- The number of the next promise. -/
  next : ℕ
  /-- Which promises have settled. -/
  settled : ℕ → Bool
  /-- The reactions of the promises that are pending. -/
  reactions : ℕ → List R
  /-- The jobs. -/
  jobs : List R

variable {R : Type}

/-- No promise yet. -/
def Promises.start : Promises R := ⟨0, fun _ => false, fun _ => [], []⟩

/-- A new promise has the number `next`. -/
def Promises.create (ps : Promises R) : Promises R := { ps with next := ps.next + 1 }

/-- `promise.then(reaction)`. -/
def Promises.react (ps : Promises R) (p : ℕ) (reaction : R) : Promises R :=
  if ps.settled p then { ps with jobs := ps.jobs ++ [reaction] }
  else { ps with reactions := Function.update ps.reactions p (ps.reactions p ++ [reaction]) }

/-- The promise is resolved, or rejected. -/
def Promises.settle (ps : Promises R) (p : ℕ) : Promises R where
  next := ps.next
  settled := Function.update ps.settled p true
  reactions := Function.update ps.reactions p []
  jobs := ps.jobs ++ ps.reactions p

/-- The first job is taken. -/
def Promises.take (ps : Promises R) : Promises R := { ps with jobs := ps.jobs.tail }

/-! ## What the operations change -/

@[simp] theorem create_next (ps : Promises R) : ps.create.next = ps.next + 1 := rfl

@[simp] theorem create_settled (ps : Promises R) : ps.create.settled = ps.settled := rfl

@[simp] theorem create_reactions (ps : Promises R) : ps.create.reactions = ps.reactions := rfl

@[simp] theorem create_jobs (ps : Promises R) : ps.create.jobs = ps.jobs := rfl

@[simp] theorem take_next (ps : Promises R) : ps.take.next = ps.next := rfl

@[simp] theorem take_reactions (ps : Promises R) : ps.take.reactions = ps.reactions := rfl

@[simp] theorem take_jobs (ps : Promises R) : ps.take.jobs = ps.jobs.tail := rfl

theorem settle_reactions_of_ne (ps : Promises R) {p q : ℕ} (hne : q ≠ p) :
    (ps.settle p).reactions q = ps.reactions q :=
  Function.update_of_ne hne _ _

theorem settle_settled_of_ne (ps : Promises R) {p q : ℕ} (hne : q ≠ p) :
    (ps.settle p).settled q = ps.settled q :=
  Function.update_of_ne hne _ _

/-- A reaction to a pending promise waits with the others. -/
theorem react_of_pending (ps : Promises R) {p : ℕ} (reaction : R) (hp : ps.settled p = false) :
    ps.react p reaction =
      { ps with reactions := Function.update ps.reactions p (ps.reactions p ++ [reaction]) } := by
  rw [Promises.react, if_neg (by simp [hp])]

@[simp] theorem react_settled (ps : Promises R) (p : ℕ) (reaction : R) :
    (ps.react p reaction).settled = ps.settled := by
  unfold Promises.react
  split_ifs <;> rfl

end FactoryServer.PromiseJobs
