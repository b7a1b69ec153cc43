import FactoryServer.CachedReads

/-!
# Evicting cached reads after a mutation

The handlers of the factory's notices evict the keys of the entities they can
name, mark the tiers whose change they cannot attribute, and clear the fixed
keys of the tournament. The controller then sweeps the keys it has issued for
the tournaments of the request, and spares the keys of other entities once some
handler has evicted a key by name.
-/

namespace FactoryServer.CacheEvictions

open JsonValue CachedReads

/-! ## The handlers -/

/-- The topics with a handler, in the order of `subscriptionHandlers`. -/
inductive Topic where
  | modifyMatchUp | modifyPositionAssignments | publishEvent | unpublishEvent
  | unpublishOrderOfPlay | publishOrderOfPlay | publishParticipants | unpublishParticipants
  | publishTournamentInfo | unpublishTournamentInfo | unpublishTournament | audit
  | modifyTournamentDetail | addMatchUps | addDrawDefinition | modifyDrawDefinition
  | addParticipants | modifyParticipants | addEvent | modifyEvent | deleteEvent
  | publishEventSeeding | unpublishEventSeeding | modifyEventEntries | modifyDrawEntries
  | modifySeedAssignments | modifySchedulingProfile | addVenue | modifyVenue | deleteVenue
  | deletedDrawIds | deletedMatchUpIds | deleteParticipants
  deriving DecidableEq

/-- `ROSTER_SAFE_TOPICS`. -/
def rosterSafeTopics : List Topic :=
  [.modifyMatchUp, .addMatchUps, .deletedMatchUpIds, .modifyPositionAssignments,
    .modifySchedulingProfile, .addVenue, .modifyVenue, .deleteVenue, .publishOrderOfPlay,
    .unpublishOrderOfPlay, .modifyTournamentDetail, .audit]

/-- The tiers with a key for each entity: events, draws and structures. -/
inductive Tier where
  | ged | gdd | gsd
  deriving DecidableEq

/-- What the keys of a tier start with. -/
def Tier.front : Tier → String
  | .ged => "ged|"
  | .gdd => "gdd|"
  | .gsd => "gsd|"

/-- `PER_ENTITY_PREFIXES`, by tier. -/
def perEntityTiers : List Tier := [.ged, .gdd, .gsd]

/-- The suffixes of the documents of one entity. -/
def Tier.variants : Tier → List String
  | .ged => ["", "|s", "|n"]
  | .gdd => ["", "|s", "|n"]
  | .gsd => [""]

/-- The key of one document of an entity. -/
def Tier.key (tier : Tier) (tournamentId entityId variant : String) : String :=
  tier.front ++ tournamentId ++ "|" ++ entityId ++ variant

/-- What a handler does to the caches. -/
inductive CacheEffect where
  /-- `evictKey(key)`: delete the key and record the targeted eviction. -/
  | evict (key : String)
  /-- `unnarrowablePrefixes.add(…)`: the tier changed where no id tells. -/
  | mark (tier : Tier)
  /-- `cacheManager.del(key)`. -/
  | del (key : String)

/-- The three evictions of an entity: nothing without a tournament, a mark without
an entity, else every document of the entity. -/
def evictData (tier : Tier) (tournamentId entityId : Option Json) : List CacheEffect :=
  if !truthy tournamentId then []
  else if !truthy entityId then [.mark tier]
  else tier.variants.map fun v => .evict (tier.key (template tournamentId) (template entityId) v)

/-- `evictEventData`. -/
def evictEventData : Option Json → Option Json → List CacheEffect := evictData .ged

/-- `evictDrawData`. -/
def evictDrawData : Option Json → Option Json → List CacheEffect := evictData .gdd

/-- `evictStructureData`. -/
def evictStructureData : Option Json → Option Json → List CacheEffect := evictData .gsd

/-- `sweepPublishTiers`. -/
def sweepPublishTiers : List CacheEffect := [.mark .gdd, .mark .gsd]

/-- `clearCache`: the fixed keys of a tournament. -/
def clearCache : Option Json → List CacheEffect
  | some (.str tournamentId) =>
    if tournamentId = "" then [] else
    [.del ("gti|" ++ tournamentId), .del ("gtm|" ++ tournamentId), .del ("gac|" ++ tournamentId),
      .del ("gtp|" ++ tournamentId), .del ("gmr|" ++ tournamentId)]
  | _ => []

/-- `item?.eventData?.eventInfo?.eventId`. -/
def publishedEventId (item : Json) : Option Json :=
  chain (chain (item.field? "eventData") "eventInfo") "eventId"

/-- `item?.drawDefinition?.drawId`. -/
def nestedDrawId (item : Json) : Option Json := chain (item.field? "drawDefinition") "drawId"

/-- What the handler of a topic does to the caches, for the notices it is given. -/
def handler (topic : Topic) (params : List Json) : List CacheEffect :=
  match topic with
  | .modifyMatchUp => params.flatMap fun item =>
    clearCache (item.field? "tournamentId") ++
      evictStructureData (item.field? "tournamentId") (item.field? "structureId") ++
      evictDrawData (item.field? "tournamentId") (item.field? "drawId")
  | .modifyPositionAssignments => params.flatMap fun item =>
    evictEventData (item.field? "tournamentId") (item.field? "eventId") ++
      evictStructureData (item.field? "tournamentId") (item.field? "structureId") ++
      evictDrawData (item.field? "tournamentId") (item.field? "drawId") ++
      clearCache (item.field? "tournamentId")
  | .publishEvent => sweepPublishTiers ++ params.flatMap fun item =>
    (if truthy (item.field? "tournamentId") && truthy (publishedEventId item) then
        evictEventData (item.field? "tournamentId") (publishedEventId item)
      else []) ++
      clearCache (item.field? "tournamentId")
  | .unpublishEvent => sweepPublishTiers ++ params.flatMap fun item =>
    evictEventData (item.field? "tournamentId") (item.field? "eventId") ++
      clearCache (item.field? "tournamentId")
  | .unpublishOrderOfPlay => params.flatMap fun item =>
    (if truthy (item.field? "tournamentId") then
        [.del ("gtm|" ++ template (item.field? "tournamentId"))]
      else []) ++
      clearCache (item.field? "tournamentId")
  | .publishOrderOfPlay | .publishParticipants | .unpublishParticipants | .publishTournamentInfo
  | .unpublishTournamentInfo | .unpublishTournament =>
    params.flatMap fun item => clearCache (item.field? "tournamentId")
  | .addDrawDefinition => params.flatMap fun item =>
    evictDrawData (item.field? "tournamentId") (coalesce (nestedDrawId item) (item.field? "drawId"))
  | .modifyDrawDefinition => params.flatMap fun item =>
    evictEventData (item.field? "tournamentId") (item.field? "eventId") ++
      evictDrawData (item.field? "tournamentId") (nestedDrawId item)
  | _ => []

/-- The notices one mutation fires, by topic. -/
abbrev Notices : Type := List (Topic × List Json)

/-- Everything the handlers of a mutation do to the caches. -/
def effects (notices : Notices) : List CacheEffect :=
  notices.flatMap fun notice => handler notice.1 notice.2

/-- The key of a targeted eviction. -/
def CacheEffect.evictedKey : CacheEffect → Option String
  | .evict key => some key
  | _ => none

/-- The tier of a mark. -/
def CacheEffect.markedTier : CacheEffect → Option Tier
  | .mark tier => some tier
  | _ => none

/-- The key an effect deletes. -/
def CacheEffect.deletedKey : CacheEffect → Option String
  | .evict key => some key
  | .del key => some key
  | .mark _ => none

/-- `evictedEventKeys`. -/
def evictedEventKeys (notices : Notices) : List String :=
  (effects notices).filterMap CacheEffect.evictedKey

/-- `unnarrowablePrefixes`, by tier. -/
def unnarrowableTiers (notices : Notices) : List Tier :=
  (effects notices).filterMap CacheEffect.markedTier

/-- `noticeTopics`. -/
def noticeTopics (notices : Notices) : List Topic := notices.map Prod.fst

/-- `cacheKeysToDelete`, deleted once the save has committed. -/
def cacheKeysToDelete (notices : Notices) : List String :=
  (effects notices).filterMap CacheEffect.deletedKey

/-- The keys `warmEventDataCache` takes up: full event payloads, evicted by name. -/
def warmable (key : String) : Bool :=
  match segments key with
  | label :: tournamentId :: eventId :: rest =>
    label == "ged" && tournamentId != "" && eventId != "" && (rest.head?.getD "") == ""
  | _ => false

/-- `warmedEventKeys`: the keys whose rebuild succeeded. -/
def warmedEventKeys (notices : Notices) (rebuilt : String → Bool) : List String :=
  (evictedEventKeys notices).filter fun key => warmable key && rebuilt key

/-! ## The keys the controller has issued -/

/-- `cacheKeysByTournament`: the keys of a tournament, oldest first. -/
abbrev KeyTable : Type := String → List String

/-- `KEYS_PER_TOURNAMENT_CAP`. -/
def keysPerTournamentCap : Nat := 200

/-- `REJECTED_TID_LITERALS`. -/
def rejectedTidLiterals : List String := ["undefined", "null", "NaN", "false", ""]

/-- `trackTournamentKey`. -/
def trackTournamentKey (table : KeyTable) (key : String) : KeyTable :=
  let tid := (segments key)[1]?.getD ""
  if tid ∈ rejectedTidLiterals then table else
  let keys := if key ∈ table tid then table tid else table tid ++ [key]
  Function.update table tid (keys.drop (keys.length - keysPerTournamentCap))

/-- The table after some keys were issued. -/
def issued (keys : List String) : KeyTable := keys.foldl trackTournamentKey fun _ => []

/-- The parts of a list between separators have no separator. -/
theorem not_mem_of_splitOn {l : List Char} {c : Char} :
    ∀ part ∈ l.splitOn c, c ∉ part := by
  induction hn : l.length using Nat.strongRecOn generalizing l with
  | _ n ih =>
    by_cases hc : c ∈ l
    · obtain ⟨front, back, rfl, hfront⟩ := List.eq_append_cons_of_mem hc
      rw [List.splitOn_append_cons_self_of_not_mem hfront]
      intro part hpart
      rcases List.mem_cons.mp hpart with rfl | hpart
      · exact hfront
      · have hlt : back.length < n := by
          rw [← hn, List.length_append, List.length_cons]
          omega
        exact ih back.length hlt rfl part hpart
    · rw [List.splitOn_eq_singleton hc]
      intro part hpart
      rw [List.mem_singleton.mp hpart]
      exact hc

/-- The segments of a key have no bars. -/
theorem plain_of_mem_segments {key segment : String} (h : segment ∈ segments key) :
    Plain segment := by
  obtain ⟨part, hpart, rfl⟩ := List.mem_map.mp h
  have hbar := not_mem_of_splitOn part hpart
  rwa [Plain, String.toList_ofList]

/-- The keys of this tournament are tracked under its own id. -/
def Trackable (tid : String) : Prop := Plain tid ∧ tid ∉ rejectedTidLiterals

/-- Tracking a key leaves nothing in a table but keys of the tournament they are under. -/
theorem track_spec {table : KeyTable} {key : String}
    (h : ∀ tid, ∀ k ∈ table tid, (segments k)[1]? = some tid ∧ tid ∉ rejectedTidLiterals) :
    ∀ tid, ∀ k ∈ trackTournamentKey table key tid,
      (segments k)[1]? = some tid ∧ tid ∉ rejectedTidLiterals := by
  intro tid k hk
  unfold trackTournamentKey at hk
  dsimp only at hk
  split_ifs at hk with hrejected hold
  · exact h tid k hk
  all_goals
    by_cases htid : tid = (segments key)[1]?.getD ""
    · rw [← htid] at hk hrejected
      rw [Function.update_self] at hk
      have hmem := List.mem_of_mem_drop hk
      first
      | exact h tid k hmem
      | rcases List.mem_append.mp hmem with hmem | hmem
        · exact h tid k hmem
        · rw [List.mem_singleton.mp hmem]
          cases hsegment : (segments key)[1]? with
          | none =>
            rw [hsegment, Option.getD_none] at htid
            exact absurd (by rw [htid]; simp [rejectedTidLiterals]) hrejected
          | some t =>
            rw [hsegment, Option.getD_some] at htid
            exact ⟨by rw [htid], hrejected⟩
    · rw [Function.update_of_ne htid] at hk
      exact h tid k hk

/-- So does tracking several keys. -/
theorem tracks_spec (keys : List String) {table : KeyTable}
    (h : ∀ tid, ∀ k ∈ table tid, (segments k)[1]? = some tid ∧ tid ∉ rejectedTidLiterals) :
    ∀ tid, ∀ k ∈ keys.foldl trackTournamentKey table tid,
      (segments k)[1]? = some tid ∧ tid ∉ rejectedTidLiterals := by
  induction keys generalizing table with
  | nil => exact h
  | cons key rest ih => exact ih (track_spec h)

/-- A key is tracked under its own tournament, whose id has no bars. -/
theorem mem_issued {keys : List String} {tid key : String} (h : key ∈ issued keys tid) :
    (segments key)[1]? = some tid ∧ Trackable tid := by
  have hempty : ∀ t, ∀ k ∈ (fun _ => [] : KeyTable) t,
      (segments k)[1]? = some t ∧ t ∉ rejectedTidLiterals :=
    fun _ _ hk => absurd hk List.not_mem_nil
  obtain ⟨hsegment, hrejected⟩ := tracks_spec keys hempty tid key h
  exact ⟨hsegment, plain_of_mem_segments (List.mem_of_getElem? hsegment), hrejected⟩

/-! ## The sweep -/

/-- What the queue reports to the controller. -/
structure Report where
  /-- `evictedEventKeys`. -/
  evicted : List String
  /-- `warmedEventKeys`. -/
  warmed : List String
  /-- `unnarrowablePrefixes`. -/
  unnarrowable : List Tier
  /-- `noticeTopics`. -/
  topics : List Topic

/-- The report of a mutation. -/
def report (notices : Notices) (rebuilt : String → Bool) : Report where
  evicted := evictedEventKeys notices
  warmed := warmedEventKeys notices rebuilt
  unnarrowable := unnarrowableTiers notices
  topics := noticeTopics notices

/-- `rosterUnchanged`. -/
def Report.rosterUnchanged (r : Report) : Bool :=
  !r.topics.isEmpty && r.topics.all fun t => decide (t ∈ rosterSafeTopics)

/-- The tier of a key, for a key of one entity. -/
def tierOf (key : String) : Option Tier :=
  perEntityTiers.find? fun tier => startsWith key tier.front

/-- The key belongs to one entity, and its tier is not marked. -/
def Report.perEntity (r : Report) (key : String) : Bool :=
  (tierOf key).any fun tier => decide (tier ∉ r.unnarrowable)

/-- The key is spared because only other entities were evicted by name. -/
def Report.narrows (r : Report) (key : String) : Bool :=
  !r.evicted.isEmpty && r.perEntity key && decide (key ∉ r.evicted)

/-- The sweep retains a key. -/
def Report.retains (r : Report) (key : String) : Bool :=
  decide (key ∈ r.warmed) || (r.rosterUnchanged && startsWith key "gtp|") || r.narrows key

/-- A table, and the keys a sweep has deleted so far. -/
structure Swept where
  /-- The keys still tracked. -/
  table : KeyTable
  /-- The keys deleted. -/
  deleted : List String

/-- One turn of the loop of `invalidateTournamentCache`. -/
def sweepTournament (r : Report) (s : Swept) : Json → Swept
  | .str tid =>
    if tid = "" then s else
    ⟨Function.update s.table tid ((s.table tid).filter r.retains),
      s.deleted ++ (s.table tid).filter fun key => !r.retains key⟩
  | _ => s

/-- `invalidateTournamentCache`. -/
def invalidateTournamentCache (tournamentIds : List Json) (r : Report) (table : KeyTable) : Swept :=
  tournamentIds.foldl (sweepTournament r) ⟨table, []⟩

/-- The sweep visits the keys of this tournament. -/
def Sweeps (tournamentIds : List Json) (tid : String) : Prop :=
  Json.str tid ∈ tournamentIds ∧ tid ≠ ""

/-- One turn keeps what is retained and deletes the rest of its tournament. -/
theorem sweepTournament_spec (r : Report) (s : Swept) (id : Json) :
    (∀ key, key ∈ (sweepTournament r s id).deleted ↔ key ∈ s.deleted ∨
      ∃ tid, Sweeps [id] tid ∧ key ∈ s.table tid ∧ r.retains key = false) ∧
    ∀ tid key, key ∈ (sweepTournament r s id).table tid ↔
      key ∈ s.table tid ∧ (Sweeps [id] tid → r.retains key = true) := by
  have hskip : (∀ tid, ¬Sweeps [id] tid) → sweepTournament r s id = s →
      (∀ key, key ∈ (sweepTournament r s id).deleted ↔ key ∈ s.deleted ∨
        ∃ tid, Sweeps [id] tid ∧ key ∈ s.table tid ∧ r.retains key = false) ∧
      ∀ tid key, key ∈ (sweepTournament r s id).table tid ↔
        key ∈ s.table tid ∧ (Sweeps [id] tid → r.retains key = true) := by
    intro hno heq
    rw [heq]
    refine ⟨fun key => ⟨.inl, fun h => ?_⟩, fun tid key => ⟨fun h => ⟨h, fun hs => ?_⟩, And.left⟩⟩
    · rcases h with h | ⟨tid, hs, -⟩
      · exact h
      · exact absurd hs (hno tid)
    · exact absurd hs (hno tid)
  cases id with
  | str tid =>
    by_cases hempty : tid = ""
    · refine hskip (fun t hs => ?_) (if_pos hempty)
      obtain ⟨hmem, hne⟩ := hs
      have htid : t = tid := by simpa using hmem
      exact hne (htid.trans hempty)
    · have hsweeps : ∀ t, Sweeps [.str tid] t ↔ t = tid := by
        intro t
        simp only [Sweeps, List.mem_singleton, Json.str.injEq]
        refine ⟨And.left, fun h => ⟨h, ?_⟩⟩
        rw [h]
        exact hempty
      simp only [sweepTournament, if_neg hempty]
      constructor
      · intro key
        simp only [List.mem_append, List.mem_filter, hsweeps, exists_eq_left, Bool.not_eq_true']
      · intro t key
        by_cases ht : t = tid
        · subst ht
          simp only [Function.update_self, List.mem_filter, hsweeps, true_implies]
        · simp only [Function.update_of_ne ht, hsweeps, ht, false_implies, and_true]
  | _ =>
    refine hskip (fun t hs => ?_) rfl
    simp [Sweeps] at hs

/-- The sweep deletes exactly the keys of its tournaments that it does not retain. -/
theorem invalidate_spec (r : Report) (tournamentIds : List Json) (s : Swept) :
    (∀ key, key ∈ (tournamentIds.foldl (sweepTournament r) s).deleted ↔ key ∈ s.deleted ∨
      ∃ tid, Sweeps tournamentIds tid ∧ key ∈ s.table tid ∧ r.retains key = false) ∧
    ∀ tid key, key ∈ (tournamentIds.foldl (sweepTournament r) s).table tid ↔
      key ∈ s.table tid ∧ (Sweeps tournamentIds tid → r.retains key = true) := by
  induction tournamentIds generalizing s with
  | nil => simp [Sweeps]
  | cons id rest ih =>
    have hcons : ∀ tid, Sweeps (id :: rest) tid ↔ Sweeps [id] tid ∨ Sweeps rest tid := by
      intro tid
      simp only [Sweeps, List.mem_cons, List.not_mem_nil, or_false, or_and_right]
    obtain ⟨hdeleted, htable⟩ := sweepTournament_spec r s id
    obtain ⟨ihDeleted, ihTable⟩ := ih (sweepTournament r s id)
    constructor
    · intro key
      rw [List.foldl_cons, ihDeleted, hdeleted]
      simp only [htable, hcons]
      constructor
      · rintro ((h | ⟨tid, hs, hk, hr⟩) | ⟨tid, hs, ⟨hk, -⟩, hr⟩)
        · exact .inl h
        · exact .inr ⟨tid, .inl hs, hk, hr⟩
        · exact .inr ⟨tid, .inr hs, hk, hr⟩
      · rintro (h | ⟨tid, hs | hs, hk, hr⟩)
        · exact .inl (.inl h)
        · exact .inl (.inr ⟨tid, hs, hk, hr⟩)
        · by_cases hid : Sweeps [id] tid
          · exact .inl (.inr ⟨tid, hid, hk, hr⟩)
          · exact .inr ⟨tid, hs, ⟨hk, fun h => absurd h hid⟩, hr⟩
    · intro tid key
      rw [List.foldl_cons, ihTable, htable, hcons]
      constructor
      · rintro ⟨⟨hk, h₁⟩, h₂⟩
        exact ⟨hk, fun hs => hs.elim h₁ h₂⟩
      · rintro ⟨hk, h⟩
        exact ⟨⟨hk, fun hs => h (.inl hs)⟩, fun hs => h (.inr hs)⟩

/-- A key of a swept tournament is deleted unless it is retained. -/
theorem mem_deleted (r : Report) (tournamentIds : List Json) (table : KeyTable) (key : String) :
    key ∈ (invalidateTournamentCache tournamentIds r table).deleted ↔
      ∃ tid, Sweeps tournamentIds tid ∧ key ∈ table tid ∧ r.retains key = false := by
  have h := (invalidate_spec r tournamentIds ⟨table, []⟩).1 key
  simpa [invalidateTournamentCache] using h

/-- What is still tracked after a sweep. -/
theorem mem_table (r : Report) (tournamentIds : List Json) (table : KeyTable) (tid key : String) :
    key ∈ (invalidateTournamentCache tournamentIds r table).table tid ↔
      key ∈ table tid ∧ (Sweeps tournamentIds tid → r.retains key = true) :=
  (invalidate_spec r tournamentIds ⟨table, []⟩).2 tid key

end FactoryServer.CacheEvictions
