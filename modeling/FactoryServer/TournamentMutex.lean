import FactoryServer.AsyncProgram
import Mathlib.Data.List.Sort

/-!
# The tournament mutex

`withTournamentLock` takes the locks of its ids in sorted order, runs its
callback and releases them. A lock is an entry of a map: a flag and a queue of
resolvers. A waiter leaves the queue when a release hands it the lock or when
its timer fires. Every synchronous call is a step of its own here, so the
model has every interleaving of the event loop and more. Entry objects and
promises are numbered as they are made, and a resolver is named by its promise.
-/

namespace FactoryServer.TournamentMutex

open AsyncProgram

/-- `LOCK_TIMEOUT_ERROR`. -/
def lockTimeoutError : String := "Tournament lock acquisition timed out"

/-- `interface LockEntry`. -/
structure LockEntry where
  /-- Resolvers, first come first. -/
  queue : List ℕ
  /-- The lock is held. -/
  active : Bool

/-- The state of a promise. -/
inductive Status where
  /-- Neither resolved nor rejected. -/
  | pending
  /-- The lock is granted. -/
  | resolved
  /-- The wait timed out. -/
  | rejected
  deriving DecidableEq

/-- The promise of one `acquire`, with what its closure captures. -/
structure Waiter (ι Id : Type) where
  /-- The call that awaits it. -/
  call : ι
  /-- The id it asks for. -/
  id : Id
  /-- The captured `entry`. -/
  entry : ℕ
  /-- The timer is set and not cleared. -/
  armed : Bool
  /-- State of the promise. -/
  status : Status

/-- The module's state, with the histories the results are about. -/
structure Mutex (ι Id : Type) where
  /-- `const locks = new Map<string, LockEntry>()`. -/
  locks : Id → Option ℕ
  /-- The entry objects. -/
  entries : ℕ → LockEntry
  /-- The next entry object. -/
  nextRef : ℕ
  /-- The promises. -/
  waiters : ℕ → Option (Waiter ι Id)
  /-- The next promise. -/
  nextTicket : ℕ
  /-- History: the promises that were resolved, in order. -/
  grants : List ℕ
  /-- History: the ids whose `acquire` has returned to the call, in order. -/
  acquired : ι → List Id
  /-- History: the ids that the call has released, in order. -/
  released : ι → List Id

namespace Mutex

variable {ι Id : Type}

/-- No lock, no call. -/
def initial : Mutex ι Id where
  locks _ := none
  entries _ := ⟨[], false⟩
  nextRef := 0
  waiters _ := none
  nextTicket := 0
  grants := []
  acquired _ := []
  released _ := []

/-- Assign an entry object. -/
def setEntry (s : Mutex ι Id) (ref : ℕ) (entry : LockEntry) : Mutex ι Id :=
  { s with entries := Function.update s.entries ref entry }

/-- Assign a promise. -/
def setWaiter (s : Mutex ι Id) (t : ℕ) (w : Waiter ι Id) : Mutex ι Id :=
  { s with waiters := Function.update s.waiters t (some w) }

/-- A new promise. -/
def newWaiter (s : Mutex ι Id) (w : Waiter ι Id) : Mutex ι Id :=
  { s.setWaiter s.nextTicket w with nextTicket := s.nextTicket + 1 }

/-- `clearTimeout(timer); resolve()`: only a pending promise is resolved. -/
def resolver (s : Mutex ι Id) (t : ℕ) : Mutex ι Id :=
  match s.waiters t with
  | none => s
  | some w =>
    if w.status = .pending then
      { s.setWaiter t { w with armed := false, status := .resolved } with grants := s.grants ++ [t] }
    else s.setWaiter t { w with armed := false }

/-- The timer of a waiter fires: it leaves the captured queue and is rejected. -/
def timeout (s : Mutex ι Id) (t : ℕ) (w : Waiter ι Id) : Mutex ι Id :=
  let entry := s.entries w.entry
  (s.setEntry w.entry { entry with queue := entry.queue.erase t }).setWaiter t
    { w with armed := false, status := if w.status = .pending then .rejected else w.status }

variable [DecidableEq Id]

/-- Assign or delete a key of the map. -/
def setLock (s : Mutex ι Id) (id : Id) (ref : Option ℕ) : Mutex ι Id :=
  { s with locks := Function.update s.locks id ref }

/-- `let entry = locks.get(id)`, created when absent. -/
def entryOf (s : Mutex ι Id) (id : Id) : ℕ × Mutex ι Id :=
  match s.locks id with
  | some ref => (ref, s)
  | none =>
    (s.nextRef, { (s.setEntry s.nextRef ⟨[], false⟩).setLock id (some s.nextRef) with
      nextRef := s.nextRef + 1 })

/-- The synchronous part of `acquire`: a promise that is already resolved when
the lock is free, else one whose resolver is queued and whose timer is set. -/
def enter (s : Mutex ι Id) (i : ι) (id : Id) : ℕ × Mutex ι Id :=
  let (ref, s) := s.entryOf id
  let entry := s.entries ref
  if entry.active = false then
    (s.nextTicket, { (s.setEntry ref { entry with active := true }).newWaiter
      ⟨i, id, ref, false, .resolved⟩ with grants := s.grants ++ [s.nextTicket] })
  else
    (s.nextTicket, (s.setEntry ref { entry with queue := entry.queue ++ [s.nextTicket] }).newWaiter
      ⟨i, id, ref, true, .pending⟩)

/-- `release`: the first waiter is handed the lock, and `active` stays set.
Without a waiter the entry is deleted. -/
def release (s : Mutex ι Id) (id : Id) : Mutex ι Id :=
  match s.locks id with
  | none => s
  | some ref =>
    match (s.entries ref).queue with
    | next :: queue => (s.setEntry ref { s.entries ref with queue := queue }).resolver next
    | [] => s.setLock id none

/-- `isTournamentLocked`: `!!locks.get(id)?.active`. -/
def isTournamentLocked (s : Mutex ι Id) (id : Id) : Bool :=
  match s.locks id with
  | none => false
  | some ref => (s.entries ref).active

end Mutex

/-- What a call does between two points at which others may run. -/
inductive MutexOp (Id : Type) where
  /-- The synchronous part of `acquire`. -/
  | enter (id : Id)
  /-- Await the promise. -/
  | wait (t : ℕ)
  /-- `await fn()`. -/
  | callback
  /-- `release(id)`. -/
  | release (id : Id)

/-- What an operation answers; `T` is the result of the callback. -/
def MutexOp.Ans {Id : Type} (T : Type) : MutexOp Id → Type
  | .enter _ => ℕ
  | .wait _ => Unit
  | .callback => T
  | .release _ => Unit

section Program

variable {Id : Type} (T : Type)

/-- A program of the module. -/
abbrev Call (Id T α : Type) : Type := Prog (MutexOp Id) (MutexOp.Ans T) String α

/-- `await acquire(id)`. -/
def acquire (id : Id) : Call Id T Unit :=
  (Prog.perform (MutexOp.enter id)).bind fun t => Prog.perform (MutexOp.wait t)

/-- `for (const id of ids) release(id)`. -/
def releaseAll (ids : List Id) : Call Id T Unit :=
  Prog.forEach ids fun id => Prog.perform (MutexOp.release id)

/-- The loop over the sorted ids and its `catch`: a failed `acquire` releases
`acquiredIds` and is thrown again. -/
def acquireAll (acquiredIds : List Id) : List Id → Call Id T Unit
  | [] => .ret ()
  | id :: rest => (acquire T id).attempt fun
    | .ok _ => acquireAll (acquiredIds ++ [id]) rest
    | .error err => (releaseAll T acquiredIds).bind fun _ => .fail err

variable [LinearOrder Id]

/-- `[...tournamentIds].sort()`. -/
def sortedIds (tournamentIds : List Id) : List Id := tournamentIds.mergeSort (· ≤ ·)

/-- `withTournamentLock(tournamentIds, fn)`. -/
def withTournamentLock (tournamentIds : List Id) : Call Id T T :=
  (acquireAll T [] (sortedIds tournamentIds)).bind fun _ =>
    Prog.tryFinally (Prog.perform MutexOp.callback) (releaseAll T (sortedIds tournamentIds))

end Program

section Interleaving

variable {ι Id : Type} [DecidableEq ι] [DecidableEq Id] (T : Type)

/-- The answers of the operations of call `i`. A callback may resolve with
anything or reject with anything. -/
def Answers (s : Mutex ι Id) (i : ι) : (op : MutexOp Id) → Except String (op.Ans T) →
    Mutex ι Id → Prop
  | .enter id, r, s' => r = .ok (s.enter i id).1 ∧ s' = (s.enter i id).2
  | .wait t, r, s' => ∃ w, s.waiters t = some w ∧
      (w.status = .resolved ∧ r = .ok () ∧
          s' = { s with acquired := Function.update s.acquired i (s.acquired i ++ [w.id]) } ∨
        w.status = .rejected ∧ r = .error lockTimeoutError ∧ s' = s)
  | .callback, _, s' => s' = s
  | .release id, r, s' => r = .ok () ∧
      s' = { s.release id with released := Function.update s.released i (s.released i ++ [id]) }

/-- A timer fires. -/
def TimerFires (s s' : Mutex ι Id) : Prop :=
  ∃ t w, s.waiters t = some w ∧ w.armed = true ∧ s' = s.timeout t w

/-- The calls share the mutex, and timers are their environment. -/
def mutexSystem : System ι (MutexOp Id) (MutexOp.Ans T) String (Mutex ι Id) where
  answers := Answers T
  env := TimerFires

/-- A state of the process. -/
abbrev State (ι Id T : Type) : Type := Config ι (MutexOp Id) (MutexOp.Ans T) String T (Mutex ι Id)

end Interleaving

/-- Every call of `withTournamentLock` is still to be made. -/
def start {ι Id : Type} [LinearOrder Id] (T : Type) (ids : ι → List Id) : State ι Id T where
  shared := Mutex.initial
  threads i := withTournamentLock T (ids i)

end FactoryServer.TournamentMutex
