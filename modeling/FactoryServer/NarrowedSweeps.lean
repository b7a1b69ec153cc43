import FactoryServer.CacheEvictions

/-!
# Which changes a narrowed sweep may miss

A sweep spares the keys of an entity once the handlers have evicted any key by
name. Each notice says what it changed by the ids it carries; some handlers
evict these ids, some mark the tier, and some do neither. This module states for
which mixtures of notices the sweep spares no key of a changed entity.
-/

namespace FactoryServer.NarrowedSweeps

open JsonValue CachedReads CacheEvictions

/-! ## What a notice changes -/

/-- The items of an array property. -/
def listOf : Option Json → List Json
  | some (.arr items) => items
  | _ => []

/-- Where a notice carries the ids of a tier. -/
def carriedIds (tier : Tier) (item : Json) : List (Option Json) :=
  match tier with
  | .ged => [item.field? "eventId", chain (item.field? "event") "eventId", publishedEventId item] ++
      (listOf (item.field? "eventIds")).map some
  | .gdd => [item.field? "drawId", nestedDrawId item, chain (item.field? "matchUp") "drawId"] ++
      (listOf (item.field? "matchUps")).map (Json.field? "drawId")
  | .gsd => [item.field? "structureId"]

/-- The entities of a tier that a notice names. -/
def named (tier : Tier) (item : Json) : List String :=
  ((carriedIds tier item).filter truthy).map template

/-- How far a change of some topic reaches in a tier. -/
inductive Reach where
  /-- The payloads of the tier stay as they are. -/
  | untouched
  /-- The entities the notice names. -/
  | named
  /-- The entities the notice names, or one it cannot tell. -/
  | attributed
  /-- Every entity of the tournament. -/
  | whole

/-- What the topics change. Publishing decides what may be seen of every draw and
structure, and a participant stands in every event and draw. -/
def reach : Topic → Tier → Reach
  | .addEvent, .ged | .modifyEvent, .ged | .deleteEvent, .ged | .modifyEventEntries, .ged
  | .modifyDrawEntries, .ged | .modifySeedAssignments, .ged | .publishEventSeeding, .ged
  | .unpublishEventSeeding, .ged | .addMatchUps, .ged | .deletedDrawIds, .ged
  | .deletedMatchUpIds, .ged => .named
  | .addEvent, .gdd | .modifyEvent, .gdd | .deleteEvent, .gdd | .modifyEventEntries, .gdd
  | .modifyDrawEntries, .gdd | .modifySeedAssignments, .gdd | .publishEventSeeding, .gdd
  | .unpublishEventSeeding, .gdd | .addMatchUps, .gdd | .deletedDrawIds, .gdd
  | .deletedMatchUpIds, .gdd => .named
  | .modifyParticipants, .ged | .modifyParticipants, .gdd => .whole
  | .modifyMatchUp, .ged => .named
  | .modifyMatchUp, .gdd | .modifyMatchUp, .gsd => .attributed
  | .modifyPositionAssignments, _ => .attributed
  | .publishEvent, .ged | .unpublishEvent, .ged => .attributed
  | .publishEvent, .gdd | .publishEvent, .gsd | .unpublishEvent, .gdd
  | .unpublishEvent, .gsd => .whole
  | .addDrawDefinition, .ged => .named
  | .addDrawDefinition, .gdd => .attributed
  | .modifyDrawDefinition, .ged | .modifyDrawDefinition, .gdd => .attributed
  | _, _ => .untouched

/-- The entities of each tier in each tournament. -/
abbrev Entities : Type := Tier → String → List String

/-- A notice without a tournament is about one of the request. -/
def Concerns (item : Json) (tid : String) : Prop :=
  truthy (item.field? "tournamentId") = true → template (item.field? "tournamentId") = tid

/-- One notice changes the payloads of an entity. -/
def Changes (entities : Entities) (topic : Topic) (item : Json) (tier : Tier) (tid id : String) :
    Prop :=
  Concerns item tid ∧
    match reach topic tier with
    | .untouched => False
    | .named => id ∈ named tier item
    | .attributed => id ∈ named tier item ∨ (named tier item = [] ∧ id ∈ entities tier tid)
    | .whole => id ∈ entities tier tid

/-- Some notice of a mutation changes the payloads of an entity. -/
def NoticesChange (entities : Entities) (notices : Notices) (tier : Tier) (tid id : String) :
    Prop :=
  ∃ notice ∈ notices, ∃ item ∈ notice.2, Changes entities notice.1 item tier tid id

/-! ## Sound sweeps -/

/-- Whatever keys were issued, a key that the sweep spares and that was not rebuilt
names no entity some notice changed. -/
def SparesOnlyUnchanged (entities : Entities) (tournamentIds : List Json) (notices : Notices)
    (rebuilt : String → Bool) : Prop :=
  ∀ keys tid, Sweeps tournamentIds tid → ∀ key ∈ issued keys tid,
    key ∉ (invalidateTournamentCache tournamentIds (report notices rebuilt) (issued keys)).deleted →
      key ∉ warmedEventKeys notices rebuilt →
        ∀ tier id, ∀ v ∈ tier.variants, key = tier.key tid id v →
          ¬NoticesChange entities notices tier tid id

/-- Some notice marks the tier, or the notices evict every document of the entity by name. -/
def Attributed (notices : Notices) (tier : Tier) (tid id : String) : Prop :=
  tier ∈ unnarrowableTiers notices ∨
    ∀ v ∈ tier.variants, tier.key tid id v ∈ evictedEventKeys notices

/-- No notice evicts a key by name, or every change of a tracked tournament is attributed. -/
def ChangesAttributed (entities : Entities) (tournamentIds : List Json) (notices : Notices) :
    Prop :=
  evictedEventKeys notices = [] ∨
    ∀ tid, Sweeps tournamentIds tid → Trackable tid → ∀ tier id,
      NoticesChange entities notices tier tid id → Attributed notices tier tid id

/-- The key of an entity belongs to its tier. -/
theorem tierOf_key (tier : Tier) (tid id v : String) : tierOf (tier.key tid id v) = some tier := by
  cases tier <;>
    simp [tierOf, perEntityTiers, startsWith, Tier.key, Tier.front, String.toList_append]

/-- It is no roster key. -/
theorem key_not_roster (tier : Tier) (tid id v : String) :
    startsWith (tier.key tid id v) "gtp|" = false := by
  cases tier <;> simp [startsWith, Tier.key, Tier.front, String.toList_append, List.isPrefixOf]

/-- The label of a tier, without its bar. -/
theorem exists_label (tier : Tier) : ∃ name, Plain name ∧ tier.front = name ++ "|" := by
  cases tier with
  | ged => exact ⟨"ged", by simp [Plain], rfl⟩
  | gdd => exact ⟨"gdd", by simp [Plain], rfl⟩
  | gsd => exact ⟨"gsd", by simp [Plain], rfl⟩

/-- A key is tracked under the id of its tournament. -/
theorem segments_key {tid : String} (h : Plain tid) (tier : Tier) (id v : String) :
    (segments (tier.key tid id v))[1]? = some tid := by
  obtain ⟨name, hname, hfront⟩ := exists_label tier
  have hkey : tier.key tid id v = name ++ "|" ++ (tid ++ "|" ++ (id ++ v)) := by
    simp only [Tier.key, hfront, String.append_assoc]
  rw [hkey, segments_cons hname, segments_cons h]
  rfl

/-- A key that was issued alone is tracked. -/
theorem issued_singleton {tid : String} (h : Trackable tid) (tier : Tier) (id v : String) :
    issued [tier.key tid id v] tid = [tier.key tid id v] := by
  have hsegment := segments_key h.1 tier id v
  simp [issued, trackTournamentKey, hsegment, h.2, keysPerTournamentCap]

/-- The sweep retains a key of an entity exactly when it was rebuilt, or narrowing spares it. -/
theorem retains_key (r : Report) (tier : Tier) (tid id v : String) :
    r.retains (tier.key tid id v) = true ↔ tier.key tid id v ∈ r.warmed ∨
      (r.evicted ≠ [] ∧ tier ∉ r.unnarrowable ∧ tier.key tid id v ∉ r.evicted) := by
  simp only [Report.retains, Report.narrows, Report.perEntity, tierOf_key, key_not_roster,
    Bool.and_false, Bool.or_false, Bool.or_eq_true, Bool.and_eq_true, decide_eq_true_eq,
    Option.any_some, Bool.not_eq_true', List.isEmpty_eq_false_iff, and_assoc]

/-- A key that was rebuilt was evicted by name. -/
theorem evicted_of_warmed {notices : Notices} {rebuilt : String → Bool} {key : String}
    (h : key ∈ warmedEventKeys notices rebuilt) : key ∈ evictedEventKeys notices :=
  (List.mem_filter.mp h).1

/-- Where the sweep spares only what did not change, the notices attribute every change:
otherwise a reader who has asked for just one document keeps the old one. -/
theorem attributed_of_spares {entities : Entities} {tournamentIds : List Json}
    {notices : Notices} {rebuilt : String → Bool}
    (h : SparesOnlyUnchanged entities tournamentIds notices rebuilt) :
    ChangesAttributed entities tournamentIds notices := by
  by_cases hnone : evictedEventKeys notices = []
  · exact .inl hnone
  · refine .inr fun tid hsweeps htrack tier id hchange => ?_
    by_contra hnot
    obtain ⟨hmark, hevicted⟩ := not_or.mp hnot
    push Not at hevicted
    obtain ⟨v, hv, hkey⟩ := hevicted
    have hmem : tier.key tid id v ∈ issued [tier.key tid id v] tid := by
      rw [issued_singleton htrack]
      exact List.mem_singleton_self _
    refine h [tier.key tid id v] tid hsweeps _ hmem ?_ ?_ tier id v hv rfl hchange
    · rw [mem_deleted]
      rintro ⟨other, -, -, hretains⟩
      have hspared : (report notices rebuilt).retains (tier.key tid id v) = true :=
        (retains_key _ tier tid id v).mpr (.inr ⟨hnone, hmark, hkey⟩)
      rw [hspared] at hretains
      cases hretains
    · exact fun hwarmed => hkey (evicted_of_warmed hwarmed)

/-- A retained key of a changed entity was rebuilt, when every change is attributed. -/
theorem warmed_of_retains {entities : Entities} {tournamentIds : List Json} {notices : Notices}
    {rebuilt : String → Bool} (h : ChangesAttributed entities tournamentIds notices)
    {tid : String} (hsweeps : Sweeps tournamentIds tid) (htrack : Trackable tid) {tier : Tier}
    {id v : String} (hv : v ∈ tier.variants)
    (hchange : NoticesChange entities notices tier tid id)
    (hretains : (report notices rebuilt).retains (tier.key tid id v) = true) :
    tier.key tid id v ∈ warmedEventKeys notices rebuilt := by
  rcases (retains_key _ tier tid id v).mp hretains with hwarmed | ⟨hnarrow, hmark, hevicted⟩
  · exact hwarmed
  · rcases h with hnone | hattributed
    · exact absurd hnone hnarrow
    · rcases hattributed tid hsweeps htrack tier id hchange with hm | he
      · exact absurd hm hmark
      · exact absurd (he v hv) hevicted

/-- The sweep of a mutation spares no key of a changed entity exactly when no notice
evicts a key by name or every change is attributed by some notice. -/
theorem spares_only_unchanged_iff (entities : Entities) (tournamentIds : List Json)
    (notices : Notices) (rebuilt : String → Bool) :
    SparesOnlyUnchanged entities tournamentIds notices rebuilt ↔
      ChangesAttributed entities tournamentIds notices := by
  constructor
  · exact attributed_of_spares
  · rintro h keys tid hsweeps key hkey hspared hwarmed tier id v hv rfl hchange
    refine hwarmed (warmed_of_retains h hsweeps (mem_issued hkey).2 hv hchange ?_)
    by_contra hnot
    exact hspared ((mem_deleted _ _ _ _).mpr ⟨tid, hsweeps, hkey, Bool.not_eq_true _ ▸ hnot⟩)

/-! ## A mixture -/

/-- A result in draw `d1`, and new entries of draw `d2`. -/
def scoreAndEntries : Notices :=
  [(.modifyMatchUp, [.obj [("tournamentId", .str "t"), ("drawId", .str "d1"),
      ("structureId", .str "s1")]]),
    (.modifyDrawEntries, [.obj [("tournamentId", .str "t"), ("eventId", .str "e"),
      ("drawId", .str "d2")]])]

/-- The result evicts its own draw, and the sweep spares the draw with the new entries. -/
theorem entries_behind_score_spared :
    ¬SparesOnlyUnchanged (fun _ _ => []) [.str "t"] scoreAndEntries fun _ => false := by
  intro hspares
  rcases attributed_of_spares hspares with hnone | hattributed
  · revert hnone
    decide
  · have hsweeps : Sweeps [.str "t"] "t" := ⟨List.mem_singleton_self _, by decide⟩
    have htrack : Trackable "t" := ⟨by simp [Plain], by decide⟩
    have hchange : NoticesChange (fun _ _ => []) scoreAndEntries .gdd "t" "d2" :=
      ⟨_, List.mem_cons_of_mem _ List.mem_cons_self, _, List.mem_singleton_self _, fun _ => rfl,
        show "d2" ∈ named .gdd _ by decide⟩
    rcases hattributed "t" hsweeps htrack .gdd "d2" hchange with hmark | hevicted
    · revert hmark
      decide
    · have hkey := hevicted "" (by decide)
      revert hkey
      decide

end FactoryServer.NarrowedSweeps
