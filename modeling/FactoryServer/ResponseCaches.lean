import Mathlib.Data.List.Basic
import Mathlib.Logic.Function.Basic
import Mathlib.Tactic.SplitIfs

/-!
# Read-through caches

A cache in front of functions of a changing world. A read that misses computes
its value and stores it some time later; a warmer computes values for keys on
its own; other writers may put anything under a key nobody stored; entries may
be dropped at any moment. A cache is transparent when every hit is a value that
the reader's own function had at some moment since the entry was stored.
-/

namespace FactoryServer.ResponseCaches

/-- The readers of a cache: their keys and the functions they compute. -/
structure Readers (World Key Value Request : Type) where
  /-- The key of a request; some requests are not cached. -/
  key : Request → Option Key
  /-- What the request computes. -/
  payload : Request → World → Value
  /-- Only some values are stored. -/
  cacheable : Value → Bool
  /-- What the warmer computes for a key, if anything. -/
  rebuild : Key → World → Option Value

/-- A stored value, with the worlds it has been stored in. -/
structure Entry (World Value : Type) where
  /-- The value. -/
  value : Value
  /-- The worlds since it was stored, newest first. -/
  moments : List World

/-- A cache with the world behind it. -/
structure State (World Key Value : Type) where
  /-- The world now. -/
  world : World
  /-- The stored entries. -/
  entries : Key → Option (Entry World Value)
  /-- Values computed and not yet stored. -/
  fills : List (Key × Value)

/-- What may happen to a cache. -/
inductive Step (World Key Value Request : Type) where
  /-- A request arrives. -/
  | read (request : Request)
  /-- The warmer computes a value for a key. -/
  | warm (key : Key)
  /-- One of the computed values is stored. -/
  | store (index : Nat)
  /-- Another writer puts a value under a key without an entry. -/
  | put (key : Key) (value : Value)
  /-- An entry is evicted or expires. -/
  | drop (key : Key)
  /-- The world changes. -/
  | change (world : World)

variable {World Key Value Request : Type} [DecidableEq Key]

/-- An empty cache. -/
def State.start (world : World) : State World Key Value := ⟨world, fun _ => none, []⟩

/-- Store a value now. -/
def State.set (s : State World Key Value) (key : Key) (value : Value) : State World Key Value :=
  { s with entries := Function.update s.entries key (some ⟨value, [s.world]⟩) }

variable (readers : Readers World Key Value Request)

/-- The value a request computes for its key, when it misses and may be stored. -/
def missed (s : State World Key Value) (request : Request) : Option (Key × Value) :=
  (readers.key request).bind fun key =>
    if (s.entries key).isSome then none
    else if readers.cacheable (readers.payload request s.world) then
      some (key, readers.payload request s.world)
    else none

/-- One step. -/
def step (s : State World Key Value) : Step World Key Value Request → State World Key Value
  | .read request => { s with fills := (missed readers s request).toList ++ s.fills }
  | .warm key =>
    { s with fills := ((readers.rebuild key s.world).toList.map (key, ·)) ++ s.fills }
  | .store index =>
    match s.fills[index]? with
    | none => s
    | some fill => { s.set fill.1 fill.2 with fills := s.fills.eraseIdx index }
  | .put key value => if (s.entries key).isSome then s else s.set key value
  | .drop key => { s with entries := Function.update s.entries key none }
  | .change world =>
    { s with
      world := world
      entries := fun key => (s.entries key).map fun e => ⟨e.value, world :: e.moments⟩ }

/-- A request that hits is answered with a value its own function had at some
moment since the entry was stored. -/
def Transparent (s : State World Key Value) (request : Request) : Prop :=
  ∀ key, readers.key request = some key → ∀ e, s.entries key = some e →
    ∃ world ∈ e.moments, e.value = readers.payload request world

section Admitted

variable (Admits : Request → Prop)

/-- Admitted requests that share a key compute the same function. -/
def Faithful : Prop :=
  ∀ request other key, Admits request → Admits other → readers.key request = some key →
    readers.key other = some key → readers.payload request = readers.payload other

/-- The condition on a step in the state it finds. -/
def StepMeets (s : State World Key Value) : Step World Key Value Request → Prop
  | .read request => Admits request
  | .warm key => ∀ value, readers.rebuild key s.world = some value →
      ∀ request, Admits request → readers.key request = some key →
        value = readers.payload request s.world
  | .store _ => True
  | .put key _ => s.entries key = none → ∀ request, Admits request → readers.key request ≠ some key
  | .drop _ => True
  | .change world => ∀ fill ∈ s.fills, ∀ request, Admits request →
      readers.key request = some fill.1 →
        readers.payload request world = readers.payload request s.world

/-- Stored and computed values are those of every admitted request with their key. -/
structure Consistent (s : State World Key Value) : Prop where
  /-- A stored value was one at some moment since it was stored. -/
  entries : ∀ request, Admits request → Transparent readers s request
  /-- A computed value is one now. -/
  fills : ∀ fill ∈ s.fills, ∀ request, Admits request → readers.key request = some fill.1 →
    fill.2 = readers.payload request s.world

variable {readers Admits}

omit [DecidableEq Key] in
theorem consistent_start (world : World) :
    Consistent readers Admits (State.start world : State World Key Value) where
  entries := fun _ _ _ _ _ he => by cases he
  fills := fun _ hf => by cases hf

/-- Storing a value that is every admitted request's value now keeps the cache consistent. -/
theorem transparent_set {s : State World Key Value} {key : Key} {value : Value}
    (hv : ∀ request, Admits request → readers.key request = some key →
      value = readers.payload request s.world)
    (hs : ∀ request, Admits request → Transparent readers s request) :
    ∀ request, Admits request → Transparent readers (s.set key value) request := by
  intro request ha k hk e he
  by_cases hkey : k = key
  · subst hkey
    simp only [State.set, Function.update_self, Option.some.injEq] at he
    subst he
    exact ⟨s.world, List.mem_singleton_self _, hv request ha hk⟩
  · simp only [State.set, Function.update_of_ne hkey] at he
    exact hs request ha k hk e he

/-- Every step that meets its condition keeps the cache consistent. -/
theorem step_keeps (hfaithful : Faithful readers Admits) {s : State World Key Value}
    {st : Step World Key Value Request} (hm : StepMeets readers Admits s st)
    (hc : Consistent readers Admits s) : Consistent readers Admits (step readers s st) := by
  cases st with
  | read request =>
    constructor
    · exact hc.entries
    · intro fill hf other ha hk
      rcases List.mem_append.mp hf with hf | hf
      · have hmissed : missed readers s request = some fill := by simpa using hf
        unfold missed at hmissed
        obtain ⟨key, hkey, hfill⟩ := Option.bind_eq_some_iff.mp hmissed
        split_ifs at hfill
        have hpair := Option.some.inj hfill
        rw [← hpair] at hk ⊢
        exact congrFun (hfaithful request other key hm ha hkey hk) s.world
      · exact hc.fills fill hf other ha hk
  | warm key =>
    constructor
    · exact hc.entries
    · intro fill hf other ha hk
      rcases List.mem_append.mp hf with hf | hf
      · obtain ⟨value, hvalue, rfl⟩ := List.mem_map.mp hf
        exact hm value (by simpa using hvalue) other ha hk
      · exact hc.fills fill hf other ha hk
  | store index =>
    simp only [step]
    cases hfill : s.fills[index]? with
    | none => exact hc
    | some fill =>
      constructor
      · exact transparent_set (hc.fills fill (List.mem_of_getElem? hfill)) hc.entries
      · intro other hother
        exact hc.fills other (List.mem_of_mem_eraseIdx hother)
  | put key value =>
    simp only [step]
    split_ifs with hsome
    · exact hc
    · constructor
      · refine transparent_set (fun request ha hk => ?_) hc.entries
        have hnone : s.entries key = none := by simpa using hsome
        exact absurd hk (hm hnone request ha)
      · exact hc.fills
  | drop key =>
    constructor
    · intro request ha k hk e he
      by_cases hkey : k = key
      · subst hkey
        simp [step] at he
      · simp only [step, Function.update_of_ne hkey] at he
        exact hc.entries request ha k hk e he
    · exact hc.fills
  | change world =>
    constructor
    · intro request ha k hk e he
      simp only [step] at he
      obtain ⟨old, hold, rfl⟩ := Option.map_eq_some_iff.mp he
      obtain ⟨moment, hmoment, hvalue⟩ := hc.entries request ha k hk old hold
      exact ⟨moment, List.mem_cons_of_mem _ hmoment, hvalue⟩
    · intro fill hf request ha hk
      rw [hc.fills fill hf request ha hk]
      exact (hm fill hf request ha hk).symm

end Admitted

/-- The state after a sequence of steps. -/
def run (s : State World Key Value) (steps : List (Step World Key Value Request)) :
    State World Key Value :=
  steps.foldl (step readers) s

/-- Every step of a run meets `P` in the state it finds. -/
def RunMeets (P : State World Key Value → Step World Key Value Request → Prop) :
    State World Key Value → List (Step World Key Value Request) → Prop
  | _, [] => True
  | s, st :: rest => P s st ∧ RunMeets P (step readers s st) rest

variable {readers} {Admits : Request → Prop}

/-- Every step of such a run finds a consistent cache. -/
theorem run_consistent (hfaithful : Faithful readers Admits) {s : State World Key Value}
    {steps : List (Step World Key Value Request)}
    (hm : RunMeets readers (StepMeets readers Admits) s steps)
    (hc : Consistent readers Admits s) :
    RunMeets readers (fun s st => StepMeets readers Admits s st ∧ Consistent readers Admits s)
      s steps := by
  induction steps generalizing s with
  | nil => trivial
  | cons st rest ih => exact ⟨⟨hm.1, hc⟩, ih hm.2 (step_keeps hfaithful hm.1 hc)⟩

/-- What follows from one property of every step follows along the run. -/
theorem RunMeets.imp {P Q : State World Key Value → Step World Key Value Request → Prop}
    (hpq : ∀ s st, P s st → Q s st) {s : State World Key Value}
    {steps : List (Step World Key Value Request)} (h : RunMeets readers P s steps) :
    RunMeets readers Q s steps := by
  induction steps generalizing s with
  | nil => trivial
  | cons st rest ih => exact ⟨hpq _ _ h.1, ih h.2⟩

end FactoryServer.ResponseCaches
