import FactoryServer.CurrentReads

/-!
# Reads in flight during a mutation

A read asks the cache, computes its payload from the storage and stores it later;
a warmer does the same for keys of its own. One mutation saves its records, then
deletes the keys of its handlers, rebuilds some of them and has the controller
sweep what was issued. This module states in which interleavings no payload from
before the save is left once the mutation has returned.
-/

namespace FactoryServer.StaleFills

open JsonValue TournamentAccess CommandTransaction StorageTables TournamentStorage ExecutionQueue
  CachedReads CacheEvictions NarrowedSweeps TrackedCache GuardedRuns

/-- The mutation: its route, and the rows of `tournaments` once it has saved. -/
structure Mutation where
  /-- The route. -/
  route : WriteRoute
  /-- The rows after the save. -/
  rows : String → Option TournamentRow

/-- How far the mutation has come. -/
inductive Stage where
  /-- It has not saved. -/
  | before
  /-- Its records are stored. -/
  | saved
  /-- The keys of its handlers are deleted. -/
  | flushed
  /-- The sweep is done and the request has returned. -/
  | returned
  deriving DecidableEq

/-- A payload on its way into the cache. -/
structure Flight where
  /-- What computes it. -/
  computation : Computation
  /-- The mutation's own warmer computes it. -/
  own : Bool
  /-- The payload and the version it was computed from, once loaded. -/
  loaded : Option (Json × ℕ)

/-- The records, the cache, what is in flight, and the mutation. -/
structure State where
  /-- The tables. -/
  tables : Tables
  /-- Zero before the save, one after it. -/
  version : ℕ
  /-- The cache. -/
  cache : Cache
  /-- What is in flight. -/
  flights : List Flight
  /-- The keys the mutation's own warmer has seeded. -/
  warmed : List String
  /-- The mutation. -/
  stage : Stage

/-- What happens next. -/
inductive Action where
  /-- A read finds no entry under its key. -/
  | get (request : CachedRead)
  /-- The warmer of an earlier mutation takes up a key. -/
  | warm (key : String)
  /-- The mutation's own warmer takes up a key. -/
  | rewarm (key : String)
  /-- A flight computes its payload from the storage. -/
  | load (index : ℕ)
  /-- A flight stores its payload and tracks the key. -/
  | finish (index : ℕ)
  /-- An entry expires. -/
  | expire (key : String)
  /-- The mutation saves. -/
  | save
  /-- The deferred deletions. -/
  | flush
  /-- The sweep of the controller. -/
  | sweep

/-- An empty cache before the mutation. -/
def State.start (tables : Tables) : State := ⟨tables, 0, Cache.empty, [], [], .before⟩

/-- One more flight. -/
def State.launch (s : State) (c : Computation) (own : Bool) : State :=
  { s with flights := s.flights ++ [⟨c, own, none⟩] }

variable (q : FactoryQueries) (m : Mutation)

/-- A flight computes its payload; one that may not be stored ends. -/
def load (s : State) (index : ℕ) : State :=
  match s.flights[index]? with
  | none => s
  | some f =>
    if f.loaded.isSome then s else
    match f.computation.value q s.tables with
    | none => { s with flights := s.flights.eraseIdx index }
    | some value =>
      { s with flights := s.flights.set index { f with loaded := some (value, s.version) } }

/-- A flight stores its payload. -/
def finish (s : State) (index : ℕ) : State :=
  match s.flights[index]? with
  | none => s
  | some f =>
    match f.loaded, f.computation.key with
    | some (value, version), some key =>
      { s with
        cache := s.cache.put key ⟨f.computation, value, version⟩
        flights := s.flights.eraseIdx index
        warmed := if f.own then key :: s.warmed else s.warmed }
    | _, _ => s

/-- The report of the mutation, with the keys its warmer has seeded. -/
def reportOf (s : State) : Report := report m.route.notices fun key => decide (key ∈ s.warmed)

/-- One step; a step whose turn has not come changes nothing. -/
def step (s : State) : Action → State
  | .get request =>
    match cacheKey request with
    | none => s
    | some key => if (s.cache.entries key).isSome then s else s.launch (.read request) false
  | .warm key => s.launch (.warm key) false
  | .rewarm key =>
    if s.stage = .flushed ∧ m.route.warmCache = true ∧ key ∈ evictedEventKeys m.route.notices then
      s.launch (.warm key) true
    else s
  | .load index => load q s index
  | .finish index => finish s index
  | .expire key => { s with cache := s.cache.remove [key] }
  | .save =>
    if s.stage = .before then
      { s with tables := withTournaments s.tables m.rows, version := 1, stage := .saved }
    else s
  | .flush =>
    if s.stage = .saved then
      { s with cache := s.cache.remove (cacheKeysToDelete m.route.notices), stage := .flushed }
    else s
  | .sweep =>
    if s.stage = .flushed ∧ ∀ f ∈ s.flights, f.own = false then
      { s with cache := s.cache.sweep m.route.sweptIds (reportOf m s), stage := .returned }
    else s

/-! ## The property and its condition -/

/-- The mutation changes what a computation stores. -/
def Outdates (tables : Tables) (c : Computation) : Prop :=
  c.value q tables ≠ c.value q (withTournaments tables m.rows)

/-- No entry has a payload from before the save that the save has changed. -/
def HoldsNoneStale (tables : Tables) (s : State) : Prop :=
  ∀ key e, s.cache.entries key = some e → e.version = 0 → ¬Outdates q m tables e.computation

/-- No flight has loaded a payload that the save has changed. -/
def CarriesNoneStale (tables : Tables) (s : State) : Prop :=
  ∀ f ∈ s.flights, ∀ value, f.loaded = some (value, 0) → ¬Outdates q m tables f.computation

/-- What the sweep has to find: nothing stale in flight, every stale entry tracked under a
tournament it visits and not on top of a rebuilt one, and notices that account for the
change and attribute it. -/
structure SweepFinds (entities : Entities) (tables : Tables) (s : State) : Prop where
  /-- Every read that loaded the old record has stored it. -/
  landed : CarriesNoneStale q m tables s
  /-- Every stale entry is tracked where the sweep looks. -/
  tracked : ∀ key e, s.cache.entries key = some e → e.version = 0 →
    Outdates q m tables e.computation → key ∉ s.warmed ∧
      ∃ tid, Sweeps m.route.sweptIds tid ∧ key ∈ s.cache.tracked tid ∧
        Explains entities m.route.notices tid key
  /-- Every change is attributed. -/
  attributed : ChangesAttributed entities m.route.sweptIds m.route.notices

/-- The condition on an action: it is one on the state the sweep finds. -/
def Allowed (entities : Entities) (tables : Tables) (s : State) : Action → Prop
  | .sweep => s.stage = .flushed → SweepFinds q m entities tables s
  | _ => True

/-! ## Proof -/

/-- What holds in every state of such a run. -/
structure Inv (tables : Tables) (s : State) : Prop where
  /-- Keys are tracked under their own tournament. -/
  tracked : ∀ tid, ∀ key ∈ s.cache.tracked tid,
    (segments key)[1]? = some tid ∧ tid ∉ rejectedTidLiterals
  /-- After the save the version is new. -/
  version : s.stage ≠ .before → s.version = 1
  /-- Once the mutation has returned nothing stale is left. -/
  entries : s.stage = .returned → HoldsNoneStale q m tables s
  /-- Nor is it in flight. -/
  flights : s.stage = .returned → CarriesNoneStale q m tables s

variable {q m}

theorem inv_start (tables : Tables) : Inv q m tables (State.start tables) where
  tracked _ _ h := absurd h List.not_mem_nil
  version h := absurd rfl h
  entries h := by cases h
  flights h := by cases h

/-- One more flight, with nothing loaded, keeps the invariant. -/
theorem inv_launch {tables : Tables} {s : State} (h : Inv q m tables s) (c : Computation)
    (own : Bool) : Inv q m tables (s.launch c own) where
  tracked := h.tracked
  version := h.version
  entries := h.entries
  flights hstage f hf value hloaded := by
    rcases List.mem_append.mp hf with hf | hf
    · exact h.flights hstage f hf value hloaded
    · rw [List.mem_singleton.mp hf] at hloaded
      cases hloaded

/-- What a flight loads after the save is not from before it. -/
theorem inv_load {tables : Tables} {s : State} (h : Inv q m tables s) (index : ℕ) :
    Inv q m tables (load q s index) := by
  unfold load
  split
  · exact h
  · rename_i f hf
    split_ifs with hloaded
    · exact h
    · split
      · refine ⟨h.tracked, h.version, h.entries, fun hstage other hother => ?_⟩
        exact h.flights hstage other (List.mem_of_mem_eraseIdx hother)
      · rename_i value hvalue
        refine ⟨h.tracked, h.version, h.entries, fun hstage other hother v hv => ?_⟩
        rcases List.mem_or_eq_of_mem_set hother with hother | rfl
        · exact h.flights hstage other hother v hv
        · have hversion : s.version = 1 := h.version (by rw [hstage]; decide)
          have hzero : s.version = 0 := congrArg Prod.snd (Option.some.inj hv)
          omega

/-- What a flight stores was in flight. -/
theorem inv_finish {tables : Tables} {s : State} (h : Inv q m tables s) (index : ℕ) :
    Inv q m tables (finish s index) := by
  unfold finish
  split
  · exact h
  · rename_i f hf
    split
    · rename_i value version key hloaded hkey
      refine ⟨track_spec h.tracked, h.version, fun hstage k e he hzero => ?_,
        fun hstage other hother => ?_⟩
      · by_cases hk : k = key
        · subst hk
          simp only [Cache.put, Function.update_self, Option.some.injEq] at he
          subst he
          have hold : version = 0 := hzero
          subst hold
          exact h.flights hstage f (List.mem_of_getElem? hf) value hloaded
        · simp only [Cache.put, Function.update_of_ne hk] at he
          exact h.entries hstage k e he hzero
      · exact h.flights hstage other (List.mem_of_mem_eraseIdx hother)
    · exact h

/-- The sweep leaves nothing stale, when it finds what it has to find. -/
theorem inv_sweep {entities : Entities} {tables : Tables} {s : State} (h : Inv q m tables s)
    (hstage : s.stage = .flushed) (hfinds : SweepFinds q m entities tables s) :
    Inv q m tables { s with
      cache := s.cache.sweep m.route.sweptIds (reportOf m s), stage := .returned } where
  tracked tid key hkey := h.tracked tid key ((mem_table _ _ _ _ _).mp hkey).1
  version _ := h.version (by rw [hstage]; decide)
  entries _ key e he hzero hstale := by
    obtain ⟨hentry, hretains⟩ := sweep_entries he
    obtain ⟨hcold, tid, hsweeps, hkey, hexplains⟩ := hfinds.tracked key e hentry hzero hstale
    have hsegment := h.tracked tid key hkey
    have htrack : Trackable tid :=
      ⟨plain_of_mem_segments (List.mem_of_getElem? hsegment.1), hsegment.2⟩
    have hwarmed := warmed_of_explained hfinds.attributed hsweeps htrack hexplains
      (hretains tid hsweeps hkey)
    have hseeded := (Bool.and_eq_true _ _ ▸ (List.mem_filter.mp hwarmed).2).2
    exact hcold (of_decide_eq_true hseeded)
  flights _ := hfinds.landed

/-- Every action that meets its condition keeps the invariant. -/
theorem inv_step {entities : Entities} {tables : Tables} (s : State) (a : Action)
    (ha : Allowed q m entities tables s a) (h : Inv q m tables s) :
    Inv q m tables (step q m s a) := by
  cases a with
  | get request =>
    simp only [step]
    split
    · exact h
    · split_ifs
      · exact h
      · exact inv_launch h _ _
  | warm key => exact inv_launch h _ _
  | rewarm key =>
    simp only [step]
    split_ifs
    · exact inv_launch h _ _
    · exact h
  | load index => exact inv_load h index
  | finish index => exact inv_finish h index
  | expire key =>
    exact ⟨h.tracked, h.version,
      fun hstage k e he => h.entries hstage k e (remove_entries.mp he).2, h.flights⟩
  | save =>
    simp only [step]
    split_ifs
    · exact ⟨h.tracked, fun _ => rfl, fun heq => (by cases heq), fun heq => (by cases heq)⟩
    · exact h
  | flush =>
    simp only [step]
    split_ifs with hstage
    · exact ⟨h.tracked, fun _ => h.version (by rw [hstage]; decide),
        fun heq => (by cases heq), fun heq => (by cases heq)⟩
    · exact h
  | sweep =>
    simp only [step]
    split_ifs with hturn
    · exact inv_sweep h hturn.1 (ha hturn.1)
    · exact h

/-- In every interleaving whose sweep finds what it has to find, the cache holds no payload
from before the save that the save has changed, once the mutation has returned. -/
theorem no_stale_fill (q : FactoryQueries) (m : Mutation) (entities : Entities) (tables : Tables)
    (actions : List Action)
    (h : RunMeets (step q m) (Allowed q m entities tables) (State.start tables) actions)
    (hreturned : (run (step q m) (State.start tables) actions).stage = .returned) :
    HoldsNoneStale q m tables (run (step q m) (State.start tables) actions) :=
  (run_keeps inv_step h (inv_start tables)).entries hreturned

/-! ## Runs -/

open CurrentReads (namingQueries renamed renameListed shownName)

/-- The rename of `t`, with its tournament listed. -/
def rename : Mutation := ⟨renameListed, renamed⟩

/-- A read before the mutation, and one after it. -/
theorem no_stale_fill_sample : HoldsNoneStale namingQueries rename oneTournament
    (run (step namingQueries rename) (State.start oneTournament)
      [.get (.assistantContext "t"), .load 0, .finish 0, .save, .flush, .sweep,
        .get (.assistantContext "t"), .load 0, .finish 0]) := by
  refine no_stale_fill namingQueries rename (fun _ _ => []) oneTournament _ ?_ (by decide)
  refine ⟨trivial, trivial, trivial, trivial, trivial, fun _ => ?_, trivial, trivial, trivial,
    trivial⟩
  refine ⟨fun f hf => absurd hf List.not_mem_nil, fun key e he _ _ => ?_, .inl (by decide)⟩
  have hkey : key = "gac|t" := by
    by_contra hne
    have hnone : (Cache.empty.put "gac|t" ⟨.read (.assistantContext "t"),
        .obj [("name", .str "")], 0⟩).entries key = none := Function.update_of_ne hne _ _
    have hsome := (remove_entries.mp he).2
    have hnever := hnone.symm.trans hsome
    cases hnever
  subst hkey
  have htier : tierOf "gac|t" = none := by decide
  have hroster : startsWith "gac|t" "gtp|" = false := by decide
  refine ⟨List.not_mem_nil, "t", ⟨List.mem_singleton_self _, by decide⟩, by decide,
    fun tier h => ?_, fun h => ?_⟩
  · rw [htier] at h
    cases h
  · rw [hroster] at h
    cases h

/-- A mutation that unpublishes event `e` of `t`, renames `t` and warms the cache. -/
def unpublish : Mutation :=
  ⟨.executionQueue (.obj [("tournamentIds", strings ["t"]), ("warmCache", .bool true)])
    [(.unpublishEvent, [.obj [("tournamentId", .str "t"), ("eventId", .str "e")]])], renamed⟩

/-- A read of event `e` of `t`. -/
def readEvent : CachedRead :=
  .eventData (.obj [("tournamentId", .str "t"), ("eventId", .str "e")])

/-- A reader that loads before the save and stores after the sweep, and one that stores
on top of the payload the mutation has just rebuilt. -/
def staleOrders : List (Mutation × List Action × String) :=
  [(rename, [.get (.assistantContext "t"), .load 0, .save, .flush, .sweep, .finish 0], "gac|t"),
    (unpublish, [.get readEvent, .load 0, .save, .flush, .rewarm "ged|t|e", .load 1, .finish 1,
      .finish 0, .sweep], "ged|t|e")]

/-- In these orders a payload from before the save stays. -/
theorem stale_fill_remains : ¬∃ r ∈ staleOrders,
    HoldsNoneStale namingQueries r.1 oneTournament
      (run (step namingQueries r.1) (State.start oneTournament) r.2.1) := by
  rintro ⟨r, hr, hnone⟩
  have hstale : ∀ e, (run (step namingQueries r.1) (State.start oneTournament) r.2.1).cache.entries
      r.2.2 = some e → e.version = 0 →
        ¬shownName (e.computation.value namingQueries oneTournament) ≠
          shownName (e.computation.value namingQueries
            (withTournaments oneTournament r.1.rows)) :=
    fun e hentry hold hname => hnone r.2.2 e hentry hold fun hsame => hname (congrArg shownName hsame)
  revert hstale
  simp only [staleOrders, List.mem_cons, List.not_mem_nil, or_false] at hr
  rcases hr with rfl | rfl
  · exact fun h => h ⟨.read (.assistantContext "t"), .obj [("name", .str "")], 0⟩ rfl rfl
      (by decide)
  · exact fun h => h ⟨.read readEvent, .obj [("name", .str "")], 0⟩ rfl rfl (by decide)

end FactoryServer.StaleFills
