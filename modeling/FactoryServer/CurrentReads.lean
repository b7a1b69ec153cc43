import FactoryServer.GuardedRuns
import FactoryServer.TrackedCache

/-!
# Cached reads after a write

Cached reads and successful writes, one after the other. A write evicts what its
notices name and sweeps the tournaments its route hands to the controller; a
wholesale save or removal evicts nothing. This module states in which runs no
entry outlives a write that changed it.
-/

namespace FactoryServer.CurrentReads

open JsonValue TournamentAccess CommandTransaction StorageTables TournamentStorage ExecutionQueue
  CachedReads CacheEvictions NarrowedSweeps TrackedCache GuardedRuns

/-- The records, the cache in front of them, and how many writes there were. -/
structure State where
  /-- The tables. -/
  tables : Tables
  /-- The writes so far. -/
  version : ℕ
  /-- The cache. -/
  cache : Cache

/-- What happens. -/
inductive Action where
  /-- A read through `cacheFx`. -/
  | read (request : CachedRead)
  /-- An entry expires. -/
  | expire (key : String)
  /-- A successful write, with the rows of `tournaments` after it. -/
  | write (route : WriteRoute) (rows : String → Option TournamentRow)

/-- No entries, no keys. -/
def State.start (tables : Tables) : State := ⟨tables, 0, Cache.empty⟩

variable (q : FactoryQueries)

/-- `cacheFx`. -/
def cacheFx (s : State) (request : CachedRead) : State :=
  match cacheKey request with
  | none => s
  | some key =>
    if (s.cache.entries key).isSome then s else
    match (Computation.read request).value q s.tables with
    | none => s
    | some value => { s with cache := s.cache.put key ⟨.read request, value, s.version⟩ }

/-- The warmer rebuilds one key. -/
def rebuild (tables : Tables) (version : ℕ) (c : Cache) (key : String) : Cache :=
  match (Computation.warm key).value q tables with
  | none => c
  | some value => c.put key ⟨.warm key, value, version⟩

/-- The keys whose rebuild succeeds after a write. -/
def rebuilt (route : WriteRoute) (tables : Tables) (key : String) : Bool :=
  route.warmCache && ((Computation.warm key).value q tables).isSome

/-- The cache that the sweep of a write finds: the keys of the handlers are deleted,
and the warmer has seeded some of them. -/
def flushed (s : State) (route : WriteRoute) (rows : String → Option TournamentRow) : Cache :=
  (warmedEventKeys route.notices (rebuilt q route (withTournaments s.tables rows))).foldl
    (rebuild q (withTournaments s.tables rows) (s.version + 1))
    (s.cache.remove (cacheKeysToDelete route.notices))

/-- A successful write. -/
def write (s : State) (route : WriteRoute) (rows : String → Option TournamentRow) : State where
  tables := withTournaments s.tables rows
  version := s.version + 1
  cache := (flushed q s route rows).sweep route.sweptIds
    (report route.notices (rebuilt q route (withTournaments s.tables rows)))

/-- One action. -/
def step (s : State) : Action → State
  | .read request => cacheFx q s request
  | .expire key => { s with cache := s.cache.remove [key] }
  | .write route rows => write q s route rows

/-! ## The property and its condition -/

/-- After a write, an entry from before it, under a key that was still tracked when the
keys were swept, has a payload the write did not change. -/
def LeavesNoneBehind (s : State) (route : WriteRoute) (rows : String → Option TournamentRow) :
    Prop :=
  ∀ tid, ∀ key ∈ (flushed q s route rows).tracked tid, ∀ e,
    (write q s route rows).cache.entries key = some e → e.version ≤ s.version →
      e.computation.value q s.tables = e.computation.value q (write q s route rows).tables

/-- The notices of a write account for every payload it changes under a tracked key of
a tournament it sweeps. -/
def NoticesExplain (entities : Tables → Entities) (s : State) (route : WriteRoute)
    (rows : String → Option TournamentRow) : Prop :=
  ∀ tid, Sweeps route.sweptIds tid → ∀ key ∈ (flushed q s route rows).tracked tid, ∀ e,
    s.cache.entries key = some e →
      e.computation.value q s.tables ≠ e.computation.value q (withTournaments s.tables rows) →
        Explains (entities s.tables) route.notices tid key

/-- The route sweeps every tournament whose row the write changes, unless the handlers
delete all that is cached of it. -/
def SweepsWritten (s : State) (route : WriteRoute) (rows : String → Option TournamentRow) :
    Prop :=
  ∀ tid, s.tables.tournaments tid ≠ rows tid → Sweeps route.sweptIds tid ∨
    ∀ key ∈ (flushed q s route rows).tracked tid, (s.cache.entries key).isSome = true →
      key ∈ cacheKeysToDelete route.notices

/-- The condition on an action: a read names its tournament by a string without bars; a
write sweeps what it changes, and its notices attribute what they account for. -/
def Allowed (entities : Tables → Entities) (s : State) : Action → Prop
  | .read request => ∃ tid, (Computation.read request).ReadsFrom tid
  | .expire _ => True
  | .write route rows => NoticesExplain q entities s route rows ∧ SweepsWritten q s route rows ∧
      ChangesAttributed (entities s.tables) route.sweptIds route.notices

/-! ## Proof -/

/-- What the warmer stores reads the tournament of its key. -/
theorem warm_readsFrom {q : FactoryQueries} {key : String} {tables : Tables} {value : Json}
    (h : (Computation.warm key).value q tables = some value) :
    ∃ tid, (Computation.warm key).ReadsFrom tid := by
  obtain ⟨tid, eid, rest, hsegments, -, -⟩ := segments_of_warm h
  have hmem : tid ∈ segments key := by
    rw [hsegments]
    exact List.mem_cons_of_mem _ List.mem_cons_self
  refine ⟨tid, ?_, plain_of_mem_segments hmem⟩
  simp [Computation.reads, hsegments]

theorem wellformed_rebuild {q : FactoryQueries} {tables : Tables} {version : ℕ} {c : Cache}
    (h : c.Wellformed) (key : String) : (rebuild q tables version c key).Wellformed := by
  unfold rebuild
  cases hvalue : (Computation.warm key).value q tables with
  | none => exact h
  | some value => exact h.put rfl (warm_readsFrom hvalue)

theorem wellformed_rebuilds {q : FactoryQueries} {tables : Tables} {version : ℕ}
    (keys : List String) {c : Cache} (h : c.Wellformed) :
    (keys.foldl (rebuild q tables version) c).Wellformed := by
  induction keys generalizing c with
  | nil => exact h
  | cons key rest ih => exact ih (wellformed_rebuild h key)

/-- An entry the warmer has not stored was there before, under a key it could not rebuild. -/
theorem rebuilds_entries {q : FactoryQueries} {tables : Tables} {version : ℕ} (keys : List String)
    {c : Cache} {key : String} {e : Entry}
    (he : (keys.foldl (rebuild q tables version) c).entries key = some e)
    (hversion : e.version ≠ version) : c.entries key = some e ∧
      (key ∈ keys → (Computation.warm key).value q tables = none) := by
  induction keys generalizing c with
  | nil => exact ⟨he, fun h => absurd h List.not_mem_nil⟩
  | cons k rest ih =>
    obtain ⟨hstored, hrest⟩ := ih he
    cases hvalue : (Computation.warm k).value q tables with
    | none =>
      simp only [rebuild, hvalue] at hstored
      refine ⟨hstored, fun hmem => ?_⟩
      rcases List.mem_cons.mp hmem with rfl | hmem
      · exact hvalue
      · exact hrest hmem
    | some value =>
      simp only [rebuild, hvalue, Cache.put] at hstored
      by_cases hk : key = k
      · subst hk
        rw [Function.update_self] at hstored
        cases hstored
        exact absurd rfl hversion
      · rw [Function.update_of_ne hk] at hstored
        refine ⟨hstored, fun hmem => ?_⟩
        rcases List.mem_cons.mp hmem with h | hmem
        · exact absurd h hk
        · exact hrest hmem

/-- The keys of the handlers are gone, and every rebuilt key has a new entry. -/
theorem flushed_entries {q : FactoryQueries} {s : State} {route : WriteRoute}
    {rows : String → Option TournamentRow} {key : String} {e : Entry}
    (he : (flushed q s route rows).entries key = some e) (hversion : e.version ≤ s.version) :
    s.cache.entries key = some e ∧ key ∉ cacheKeysToDelete route.notices ∧
      key ∉ warmedEventKeys route.notices (rebuilt q route (withTournaments s.tables rows)) := by
  have hold : e.version ≠ s.version + 1 := by omega
  obtain ⟨hstored, hrebuilt⟩ := rebuilds_entries _ he hold
  obtain ⟨hkept, hentry⟩ := remove_entries.mp hstored
  refine ⟨hentry, hkept, fun hwarmed => ?_⟩
  have hsome := (List.mem_filter.mp hwarmed).2
  simp only [rebuilt, hrebuilt hwarmed, Option.isSome_none, Bool.and_false, Bool.false_eq_true]
    at hsome

theorem wellformed_flushed {q : FactoryQueries} {s : State} (h : s.cache.Wellformed)
    (route : WriteRoute) (rows : String → Option TournamentRow) :
    (flushed q s route rows).Wellformed :=
  wellformed_rebuilds _ (h.remove _)

/-- A read that names its tournament keeps the cache well formed. -/
theorem cacheFx_wellformed {q : FactoryQueries} {s : State} {request : CachedRead}
    (hreads : ∃ tid, (Computation.read request).ReadsFrom tid) (h : s.cache.Wellformed) :
    (cacheFx q s request).cache.Wellformed := by
  unfold cacheFx
  split
  · exact h
  · rename_i key hkey
    split_ifs
    · exact h
    · split
      · exact h
      · exact h.put hkey hreads

/-- A read changes no table. -/
@[simp] theorem cacheFx_tables (q : FactoryQueries) (s : State) (request : CachedRead) :
    (cacheFx q s request).tables = s.tables := by
  unfold cacheFx
  split
  · rfl
  · split_ifs
    · rfl
    · split <;> rfl

/-- A read leaves the entries under other keys alone. -/
theorem cacheFx_entries (q : FactoryQueries) (s : State) {request : CachedRead} {key : String}
    (h : cacheKey request ≠ some key) :
    (cacheFx q s request).cache.entries key = s.cache.entries key := by
  unfold cacheFx
  split
  · rfl
  · rename_i other hother
    have hne : key ≠ other := fun heq => h (heq ▸ hother)
    split_ifs
    · rfl
    · split
      · rfl
      · exact Function.update_of_ne hne _ _

/-- Every action that meets its condition keeps the cache well formed. -/
theorem step_wellformed {q : FactoryQueries} {entities : Tables → Entities} (s : State)
    (a : Action) (ha : Allowed q entities s a) (h : s.cache.Wellformed) :
    (step q s a).cache.Wellformed := by
  cases a with
  | read request => exact cacheFx_wellformed ha h
  | expire key => exact h.remove [key]
  | write route rows => exact (wellformed_flushed h route rows).sweep _ _

/-- A write that meets the condition leaves no entry behind that it changed. -/
theorem write_leavesNoneBehind {q : FactoryQueries} {entities : Tables → Entities} {s : State}
    {route : WriteRoute} {rows : String → Option TournamentRow}
    (ha : Allowed q entities s (.write route rows)) (h : s.cache.Wellformed) :
    LeavesNoneBehind q s route rows := by
  obtain ⟨hexplain, hsweeps, hattributed⟩ := ha
  intro tid key hkey e he hversion
  by_contra hchanged
  obtain ⟨hfound, hretains⟩ := sweep_entries he
  obtain ⟨hentry, hkept, hcold⟩ := flushed_entries hfound hversion
  obtain ⟨hreads, htrack⟩ := (wellformed_flushed h route rows).readsFrom hfound hkey
  -- The payload depends on one row, which the write has then changed.
  have hrow : s.tables.tournaments tid ≠ rows tid := by
    intro hsame
    exact hchanged (value_congr q hreads hsame rfl)
  rcases hsweeps tid hrow with hswept | hdeleted
  · have hexplains := hexplain tid hswept key hkey e hentry hchanged
    exact hcold (warmed_of_explained hattributed hswept htrack hexplains
      (hretains tid hswept hkey))
  · exact hkept (hdeleted key hkey (by rw [hentry]; rfl))

/-- In every run from an empty cache whose actions meet the condition, no write leaves an
entry behind whose payload it changed. -/
theorem cached_reads_current (q : FactoryQueries) (entities : Tables → Entities) (tables : Tables)
    (actions : List Action)
    (h : RunMeets (step q) (Allowed q entities) (State.start tables) actions) :
    RunMeets (step q) (fun s a => ∀ route rows, a = .write route rows →
      LeavesNoneBehind q s route rows) (State.start tables) actions := by
  refine run_meets step_wellformed ?_ h wellformed_empty
  rintro s a ha hwell route rows rfl
  exact write_leavesNoneBehind ha hwell

/-! ## The routes -/

/-- A queue whose body lists its tournaments sweeps each of them. -/
theorem queue_sweeps_listed {body : Json} {ids : List String} (notices : Notices)
    (hbody : body.field? "tournamentIds" = some (strings ids)) {tid : String} (hmem : tid ∈ ids)
    (htid : tid ≠ "") : Sweeps (WriteRoute.executionQueue body notices).sweptIds tid := by
  refine ⟨?_, htid⟩
  rw [WriteRoute.sweptIds, hbody]
  exact List.mem_map_of_mem hmem

/-! ## Runs -/

/-- A payload that shows the name of a record. -/
def naming (record : TournamentRecord) : Json :=
  .obj [("name", .str (record.tournamentName.getD ""))]

/-- Queries that show the name of a record. -/
def namingQueries : FactoryQueries :=
  { plainQueries with
    assistantContext := naming
    tournamentInfo := fun record _ _ _ _ => naming record
    eventData := fun record _ _ _ _ => naming record
    info_default := fun _ _ _ _ _ => rfl
    event_hydrates := fun _ _ _ _ => rfl
    event_full := fun _ _ _ _ => rfl
    event_stubs := fun _ _ _ _ _ => rfl }

/-- `t` under a new name. -/
def renamed : String → Option TournamentRow := fun id =>
  if id = "t" then
    some ⟨{ DurableSave.plainRecord "t" (some "p") with tournamentName := some "renamed" }, 0, 1⟩
  else none

/-- The notice of a rename. -/
def renameNotices : Notices :=
  [(.modifyTournamentDetail, [.obj [("tournamentId", .str "t")]])]

/-- A rename that lists its tournament. -/
def renameListed : WriteRoute :=
  .executionQueue (.obj [("tournamentIds", strings ["t"])]) renameNotices

/-- A reader, a rename that lists its tournament, and a reader again. -/
theorem cached_reads_current_sample :
    RunMeets (step namingQueries) (fun s a => ∀ route rows, a = .write route rows →
      LeavesNoneBehind namingQueries s route rows) (State.start oneTournament)
      [.read (.assistantContext "t"), .write renameListed renamed,
        .read (.assistantContext "t")] := by
  refine cached_reads_current namingQueries (fun _ _ _ => []) oneTournament _ ?_
  have hread : ∃ tid, (Computation.read (.assistantContext "t")).ReadsFrom tid :=
    ⟨"t", rfl, by simp [Plain]⟩
  refine ⟨hread, ⟨?_, ?_, .inl (by decide)⟩, hread, trivial⟩
  · intro tid _ key _ e he _
    have hkey : key = "gac|t" := by
      by_contra hne
      have hother : cacheKey (.assistantContext "t") ≠ some key := fun h =>
        hne (Option.some.inj h).symm
      rw [show (step namingQueries (State.start oneTournament)
        (.read (.assistantContext "t"))).cache.entries key = _ from
          cacheFx_entries namingQueries _ hother] at he
      cases he
    subst hkey
    have htier : tierOf "gac|t" = none := by decide
    have hroster : startsWith "gac|t" "gtp|" = false := by decide
    refine ⟨fun tier h => ?_, fun h => ?_⟩
    · rw [htier] at h
      cases h
    · rw [hroster] at h
      cases h
  · intro tid hrow
    have htid : tid = "t" := by
      by_contra hne
      exact hrow (by simp [step, State.start, oneTournament, renamed, hne])
    subst htid
    exact .inl (queue_sweeps_listed _ rfl (List.mem_singleton_self _) (by decide))

/-- A flagged read before a rename that names its tournament in `tournamentId`, and reads
before a wholesale save and a removal. -/
def staleRuns : List (CachedRead × String × WriteRoute × (String → Option TournamentRow)) :=
  [(.tournamentInfo false (.obj [("tournamentId", .str "t")]), "gti|t|ps",
      .executionQueue (.obj [("tournamentId", .str "t")]) renameNotices, renamed),
    (.assistantContext "t", "gac|t", .save, renamed),
    (.assistantContext "t", "gac|t", .remove, fun _ => none)]

/-- What a stored payload shows as the name. -/
def shownName (value : Option Json) : Option String :=
  (value.bind (Json.field? "name")).bind Json.str?

/-- Each of these writes leaves the entry behind that it changed. -/
theorem stale_reads_remain : ¬∃ r ∈ staleRuns,
    RunMeets (step namingQueries) (fun s a => ∀ route rows, a = .write route rows →
      LeavesNoneBehind namingQueries s route rows) (State.start oneTournament)
      [.read r.1, .write r.2.2.1 r.2.2.2] := by
  rintro ⟨r, hr, -, hwrite, -⟩
  have hsame := fun h₁ h₂ => congrArg shownName
    (hwrite r.2.2.1 r.2.2.2 rfl "t" r.2.1 h₁ ⟨.read r.1, .obj [("name", .str "")], 0⟩ h₂
      (Nat.zero_le _))
  revert hsame
  simp only [staleRuns, List.mem_cons, List.not_mem_nil, or_false] at hr
  rcases hr with rfl | rfl | rfl
  · exact fun h => absurd (h (by decide) rfl) (by decide)
  · exact fun h => absurd (h (by decide) rfl) (by decide)
  · exact fun h => absurd (h (by decide) rfl) (by decide)

end FactoryServer.CurrentReads
