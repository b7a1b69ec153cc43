import FactoryServer.NarrowedSweeps

/-!
# The cache of the read routes and the keys issued for it

An entry remembers what computed it and how many writes had happened by then.
A mutation deletes the keys its handlers named, rebuilds some of them, and sweeps
the keys issued for its tournaments.
-/

namespace FactoryServer.TrackedCache

open JsonValue TournamentAccess CommandTransaction StorageTables TournamentStorage ExecutionQueue
  CachedReads CacheEvictions NarrowedSweeps

/-! ## Computations -/

/-- What computes a payload: a read, or the warmer for one key. -/
inductive Computation where
  /-- A request to a cached route. -/
  | read (request : CachedRead)
  /-- `warmEventDataCache`, for one evicted key. -/
  | warm (key : String)

/-- The key a computation stores under. -/
def Computation.key : Computation → Option String
  | .read request => cacheKey request
  | .warm key => some key

/-- The id a computation looks up. -/
def Computation.reads : Computation → Option Json
  | .read request => looksUp request
  | .warm key => (segments key)[1]?.map .str

/-- The computation looks up this tournament, by a string without bars. -/
def Computation.ReadsFrom (c : Computation) (tid : String) : Prop :=
  c.reads = some (.str tid) ∧ Plain tid

/-- What a computation would store. -/
def Computation.value (q : FactoryQueries) : Computation → Tables → Option Json
  | .read request, t =>
    if isCacheable (payload q request t) then some (payload q request t) else none
  | .warm key, t => warmEventData q key t

/-- The tables with other rows in `tournaments`. -/
def withTournaments (t : Tables) (rows : String → Option TournamentRow) : Tables :=
  { t with tournaments := rows }

/-- A label and a plain id are the first segments of a key. -/
theorem segments_front {name tid : String} (hname : Plain name) (htid : Plain tid)
    (rest : String) : (segments (name ++ "|" ++ tid ++ "|" ++ rest))[1]? = some tid := by
  have hassoc : name ++ "|" ++ tid ++ "|" ++ rest = name ++ "|" ++ (tid ++ "|" ++ rest) := by
    simp only [String.append_assoc]
  rw [hassoc, segments_cons hname, segments_cons htid]
  rfl

/-- So are they where the id ends the key. -/
theorem segments_end {name tid : String} (hname : Plain name) (htid : Plain tid) :
    (segments (name ++ "|" ++ tid))[1]? = some tid := by
  rw [segments_cons hname, segments_plain htid]
  rfl

/-- A computation stores under the tournament it reads. -/
theorem segments_of_key {c : Computation} {key tid : String} (hkey : c.key = some key)
    (hreads : c.ReadsFrom tid) : (segments key)[1]? = some tid := by
  obtain ⟨hid, htid⟩ := hreads
  cases c with
  | warm k =>
    cases hkey
    simpa [Computation.reads] using hid
  | read request =>
    have hname := plain_label request
    have hfront : ∀ name : String, name = label request →
        ∀ rest, key = name ++ "|" ++ tid ++ "|" ++ rest → (segments key)[1]? = some tid := by
      rintro name rfl rest rfl
      exact segments_front hname htid rest
    have hend : ∀ name : String, name = label request →
        key = name ++ "|" ++ tid → (segments key)[1]? = some tid := by
      rintro name rfl rfl
      exact segments_end hname htid
    have hnested : ∀ body : Json, ∀ id, ((body.field? "params").getD .null).field? "tournamentId" =
        some (.str id) → template (chain (body.field? "params") "tournamentId") = id := by
      intro body id hparams
      cases hp : body.field? "params" with
      | none => rw [hp] at hparams; cases hparams
      | some params =>
        rw [hp, Option.getD_some] at hparams
        simp only [chain, Option.bind_some, hparams]
        rfl
    cases request with
    | assistantContext t =>
      cases hid
      exact hend "gac" rfl (Option.some.inj hkey).symm
    | publicInfo t =>
      cases hid
      exact hend "gti" rfl (Option.some.inj hkey).symm
    | tournamentInfo identified body =>
      have hinfo : (infoParams identified body).field? "tournamentId" = some (.str tid) := hid
      have hk := (Option.some.inj hkey).symm
      rw [hinfo] at hk
      exact hfront "gti" rfl _ hk
    | eventData body =>
      have hbody : body.field? "tournamentId" = some (.str tid) := hid
      have hk := (Option.some.inj hkey).symm
      rw [hbody] at hk
      exact hfront "ged" rfl _ (hk.trans (by simp only [String.append_assoc]; rfl))
    | drawData body =>
      have hbody : body.field? "tournamentId" = some (.str tid) := hid
      have hk := (Option.some.inj hkey).symm
      rw [hbody] at hk
      exact hfront "gdd" rfl _ (hk.trans (by simp only [String.append_assoc]; rfl))
    | structureData body =>
      have hbody : body.field? "tournamentId" = some (.str tid) := hid
      have hk := (Option.some.inj hkey).symm
      rw [hbody] at hk
      exact hfront "gsd" rfl _ hk
    | scheduledMatchUps body =>
      have hk := (eq_of_paramsKey hkey).2
      rw [hnested body tid hid] at hk
      exact hend "gtm" rfl hk
    | participants body =>
      have hk := (eq_of_paramsKey hkey).2
      rw [hnested body tid hid] at hk
      exact hend "gtp" rfl hk
    | matchUps body =>
      have hbody : body.field? "tournamentId" = some (.str tid) := hid
      have hk := (Option.some.inj hkey).symm
      rw [hbody] at hk
      exact hend "gmr" rfl hk

/-- The warmer's policy does not depend on the tables. -/
theorem policy_without_provider (q : FactoryQueries) (t t' : Tables) (record : TournamentRecord) :
    resolvePublicParticipantPolicy q t false record =
      resolvePublicParticipantPolicy q t' false record := rfl

/-- A computation depends on the row it reads, as long as no provider changes. -/
theorem value_congr (q : FactoryQueries) {c : Computation} {t t' : Tables} {tid : String}
    (hreads : c.ReadsFrom tid) (hrow : t.tournaments tid = t'.tournaments tid)
    (hproviders : t.providers = t'.providers) : c.value q t = c.value q t' := by
  have htext : q.pg.text ((some (Json.str tid)).getD .null) = tid := q.pg.text_str tid
  cases c with
  | read request =>
    have hid : looksUp request = some (.str tid) := hreads.1
    have hsame : SameRows q t t' (looksUp request) := by
      rw [hid]
      exact ⟨by rw [htext, hrow], fun _ _ providerId _ => congrFun hproviders providerId⟩
    simp only [Computation.value, payload_same_rows hsame]
  | warm key =>
    have hsegment := segments_of_key (c := .warm key) rfl hreads
    simp only [Computation.value, warmEventData]
    split
    · rename_i name tournamentId eventId rest hsegments
      rw [hsegments] at hsegment
      have htournament : tournamentId = tid := Option.some.inj hsegment
      have hdata : getEventData q t false (some (.str tournamentId)) (some (.str eventId)) none
            none =
          getEventData q t' false (some (.str tournamentId)) (some (.str eventId)) none none := by
        rw [htournament]
        refine withRecord_congr (by rw [htext, hrow]) fun row _ => ?_
        rw [policy_without_provider q t t']
      simp only [hdata]
    · rfl

/-! ## The cache -/

/-- An entry of the cache. -/
structure Entry where
  /-- What computed it. -/
  computation : Computation
  /-- The payload. -/
  value : Json
  /-- How many writes had happened when it was computed. -/
  version : ℕ

/-- The cache manager and the side table of the controller. -/
structure Cache where
  /-- The entries, by key. -/
  entries : String → Option Entry
  /-- `cacheKeysByTournament`. -/
  tracked : KeyTable

/-- An empty cache. -/
def Cache.empty : Cache := ⟨fun _ => none, fun _ => []⟩

/-- Set a key and track it. -/
def Cache.put (c : Cache) (key : String) (e : Entry) : Cache :=
  ⟨Function.update c.entries key (some e), trackTournamentKey c.tracked key⟩

/-- Delete some keys. -/
def Cache.remove (c : Cache) (keys : List String) : Cache :=
  { c with entries := fun key => if key ∈ keys then none else c.entries key }

/-- The sweep of the controller. -/
def Cache.sweep (c : Cache) (tournamentIds : List Json) (r : Report) : Cache where
  entries := (c.remove (invalidateTournamentCache tournamentIds r c.tracked).deleted).entries
  tracked := (invalidateTournamentCache tournamentIds r c.tracked).table

/-- Every entry is under the key of its computation, which reads one tournament. -/
structure Cache.Wellformed (c : Cache) : Prop where
  /-- Entries are where their computation stores. -/
  entries : ∀ key e, c.entries key = some e →
    e.computation.key = some key ∧ ∃ tid, e.computation.ReadsFrom tid
  /-- Keys are tracked under their own tournament. -/
  tracked : ∀ tid, ∀ key ∈ c.tracked tid,
    (segments key)[1]? = some tid ∧ tid ∉ rejectedTidLiterals

theorem wellformed_empty : Cache.empty.Wellformed where
  entries _ _ h := by cases h
  tracked _ _ h := absurd h List.not_mem_nil

/-- A tracked entry reads the tournament its key is tracked under. -/
theorem Cache.Wellformed.readsFrom {c : Cache} (h : c.Wellformed) {tid key : String} {e : Entry}
    (he : c.entries key = some e) (hkey : key ∈ c.tracked tid) :
    e.computation.ReadsFrom tid ∧ Trackable tid := by
  obtain ⟨hstored, other, hreads⟩ := h.entries key e he
  obtain ⟨hsegment, hrejected⟩ := h.tracked tid key hkey
  have hother := segments_of_key hstored hreads
  rw [hsegment] at hother
  cases Option.some.inj hother
  exact ⟨hreads, hreads.2, hrejected⟩

/-- Storing what a computation stores keeps the cache well formed. -/
theorem Cache.Wellformed.put {c : Cache} (h : c.Wellformed) {key : String} {e : Entry}
    (hkey : e.computation.key = some key) (hreads : ∃ tid, e.computation.ReadsFrom tid) :
    (c.put key e).Wellformed where
  entries k found hfound := by
    by_cases hk : k = key
    · subst hk
      rw [show (c.put k e).entries k = some e from Function.update_self ..] at hfound
      cases hfound
      exact ⟨hkey, hreads⟩
    · rw [show (c.put key e).entries k = c.entries k from Function.update_of_ne hk ..] at hfound
      exact h.entries k found hfound
  tracked := track_spec h.tracked

/-- Deleting keys leaves the entries of the others. -/
theorem remove_entries {c : Cache} {keys : List String} {key : String} {e : Entry} :
    (c.remove keys).entries key = some e ↔ key ∉ keys ∧ c.entries key = some e := by
  simp only [Cache.remove]
  by_cases h : key ∈ keys <;> simp [h]

theorem Cache.Wellformed.remove {c : Cache} (h : c.Wellformed) (keys : List String) :
    (c.remove keys).Wellformed where
  entries key e he := h.entries key e (remove_entries.mp he).2
  tracked := h.tracked

/-- A sweep leaves the entries that are not tracked under its tournaments, and those it
retains. -/
theorem sweep_entries {c : Cache} {tournamentIds : List Json} {r : Report} {key : String}
    {e : Entry} (h : (c.sweep tournamentIds r).entries key = some e) :
    c.entries key = some e ∧
      ∀ tid, Sweeps tournamentIds tid → key ∈ c.tracked tid → r.retains key = true := by
  obtain ⟨hkept, he⟩ := remove_entries.mp h
  refine ⟨he, fun tid hsweeps hkey => ?_⟩
  by_contra hnot
  exact hkept ((mem_deleted _ _ _ _).mpr ⟨tid, hsweeps, hkey, Bool.not_eq_true _ ▸ hnot⟩)

theorem Cache.Wellformed.sweep {c : Cache} (h : c.Wellformed) (tournamentIds : List Json)
    (r : Report) : (c.sweep tournamentIds r).Wellformed where
  entries key e he := h.entries key e (sweep_entries he).1
  tracked tid key hkey := h.tracked tid key ((mem_table _ _ _ _ _).mp hkey).1

/-! ## What the notices account for -/

/-- The notices account for a changed payload: some entity its key names was changed
by a notice, and a roster does not change under topics that leave it alone. -/
def Explains (entities : Entities) (notices : Notices) (tid key : String) : Prop :=
  (∀ tier, tierOf key = some tier → ∃ id, ∃ v ∈ tier.variants, key = tier.key tid id v ∧
    NoticesChange entities notices tier tid id) ∧
  (startsWith key "gtp|" = true → ∃ topic ∈ noticeTopics notices, topic ∉ rosterSafeTopics)

/-- A key that a sweep retains was rebuilt, when the notices account for its change and
every change is attributed. -/
theorem warmed_of_explained {entities : Entities} {tournamentIds : List Json} {notices : Notices}
    {rebuilt : String → Bool} {tid key : String}
    (hattributed : ChangesAttributed entities tournamentIds notices)
    (hsweeps : Sweeps tournamentIds tid) (htrack : Trackable tid)
    (hexplains : Explains entities notices tid key)
    (hretains : (report notices rebuilt).retains key = true) :
    key ∈ warmedEventKeys notices rebuilt := by
  cases htier : tierOf key with
  | some tier =>
    obtain ⟨id, v, hv, rfl, hchange⟩ := hexplains.1 tier htier
    exact warmed_of_retains hattributed hsweeps htrack hv hchange hretains
  | none =>
    simp only [Report.retains, Report.narrows, Report.perEntity, htier, Option.any_none,
      Bool.and_false, Bool.false_and, Bool.or_false, Bool.or_eq_true, Bool.and_eq_true,
      decide_eq_true_eq] at hretains
    rcases hretains with hwarmed | ⟨hunchanged, hroster⟩
    · exact hwarmed
    · obtain ⟨topic, htopic, hunsafe⟩ := hexplains.2 hroster
      simp only [Report.rosterUnchanged, Bool.and_eq_true, List.all_eq_true,
        decide_eq_true_eq] at hunchanged
      exact absurd (hunchanged.2 topic htopic) hunsafe

/-! ## The writes -/

/-- A successful write of the controller. -/
inductive WriteRoute where
  /-- `POST /factory`, with the notices it fired. -/
  | executionQueue (body : Json) (notices : Notices)
  /-- `POST /factory/score`, with the notices it fired. -/
  | score (body : Json) (notices : Notices)
  /-- `POST /factory/save`. -/
  | save
  /-- `POST /factory/remove`. -/
  | remove

/-- The ids the controller sweeps: `eqd.tournamentIds ?? []` for the queue, the id of
the body or of its parameters for a score; the wholesale routes sweep nothing. -/
def WriteRoute.sweptIds : WriteRoute → List Json
  | .executionQueue body _ =>
    ((coalesce (body.field? "tournamentIds") (some (.arr []))).bind Json.iterate?).getD []
  | .score body _ =>
    (orElse (body.field? "tournamentId")
      (chain (body.field? "params") "tournamentId")).toList.filter fun id => truthy (some id)
  | .save => []
  | .remove => []

/-- The notices of a write. -/
def WriteRoute.notices : WriteRoute → Notices
  | .executionQueue _ notices => notices
  | .score _ notices => notices
  | .save => []
  | .remove => []

/-- `payload?.warmCache`: a score does not pass it on. -/
def WriteRoute.warmCache : WriteRoute → Bool
  | .executionQueue body _ => truthy (body.field? "warmCache")
  | .score _ _ => false
  | .save => false
  | .remove => false

end FactoryServer.TrackedCache
