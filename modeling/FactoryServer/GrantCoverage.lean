import FactoryServer.ScopedGrants

/-!
# What grants cover

A grant covers a matchUp that the record places in its scope. The gate sees a place only
as far as the parameters give it or the walk of the record finds it: the walk is taken for
some dimensions, fills some of them, and stops at the matchUps that structures list. This
module says for which methods no grant that covers the matchUp is refused.
-/

namespace FactoryServer.GrantCoverage

open JsonValue TournamentAccess TournamentTree ScopedGrants

/-- The attributes of a matchUp that the walk of the gate never reads. -/
structure MatchUpReader where
  /-- `schedule?.venueId`. -/
  venueId : MatchUp → Option String
  /-- The rubbers of a team matchUp. -/
  tieMatchUps : MatchUp → List MatchUp
  /-- They have the identities the tree names. -/
  tieMatchUps_ids : ∀ matchUp, (tieMatchUps matchUp).map MatchUp.matchUpId = matchUp.tieMatchUpIds

variable (reader : MatchUpReader)

/-- Every matchUp of the record, rubbers included: a rubber lies where its team matchUp does. -/
def allPlacements (events : List Event) : List Placement :=
  (placements events).flatMap fun place =>
    place :: (reader.tieMatchUps place.found.matchUp).map fun tieMatchUp =>
      { place with found := ⟨tieMatchUp, place.found.structureId⟩ }

/-- Where the record places a matchUp. -/
def placeValue (place : Placement) : Dimension → Option String
  | .matchUpId => some place.found.matchUp.matchUpId
  | .venueId => reader.venueId place.found.matchUp
  | d => place.value d

/-- The record places the matchUp in the scope, for each dimension it constrains. -/
def InScope (scope : GrantScope) (place : Placement) : Prop :=
  ∀ d, scope d ≠ [] → ∃ v ∈ scope d, placeValue reader place d = some v

/-- The parameters name the matchUp, and what else they give is true of it. -/
def NamesTruly (method : Json) (place : Placement) : Prop :=
  targetFromParams method .matchUpId = some (.str place.found.matchUp.matchUpId) ∧
    ∀ d value, targetFromParams method d = some value →
      ∃ v, placeValue reader place d = some v ∧ value = .str v

/-- No live grant that covers the method and the matchUp is refused, whatever else the
subject holds. -/
def GrantsSuffice (package : GrantPredicates) (events : List Event) (method : Json)
    (place : Placement) : Prop :=
  ∀ (iso : Int → String) (ctx : UserContext) (tournamentId : String) (grants : List Grant)
    (now : Int), ∀ grant ∈ grants, package.isWithinWindow grant now = true →
    package.grantCoversMethod grant.capability (nameOf method) = true →
    InScope reader grant.scope place →
      checkGrantScope package iso ctx tournamentId (some grants) now events [method] = none

/-- What the parameters leave open the walk can answer: the venue and the draw are never
open, and the first matchUp that the walk finds under the id gives every other value. -/
def OpenValuesFound (events : List Event) (method : Json) (place : Placement) : Prop :=
  ∀ d v, targetFromParams method d = none → placeValue reader place d = some v →
    d ≠ .venueId ∧ d ≠ .drawId ∧
      ∃ first, firstNamed events method = some first ∧ first.value d = some v

/-- The dimensions that make the gate walk the record. -/
def Dimension.isWalked : Dimension → Bool
  | .courtId | .scheduledDate | .structureId | .eventId => true
  | _ => false

variable {reader}

/-- One walked dimension among the needed ones is enough to fill every gap. -/
theorem enrich_of_walked {events : List Event} {method : Json} {needed : List Dimension}
    {d : Dimension} (hd : d ∈ needed) (hwalked : Dimension.isWalked d = true) :
    enrichTargetFromRecord (targetFromParams method) events needed = assembled events method := by
  unfold enrichTargetFromRecord assembled firstNamed
  simp only [locate_eq]
  have hwanted : (!(needed.contains .courtId || needed.contains .scheduledDate) &&
      !(needed.contains .structureId || needed.contains .eventId)) = false := by
    cases d <;> simp_all [Dimension.isWalked]
  rw [hwanted]
  cases truthy (targetFromParams method .matchUpId) <;> rfl

/-- Without one the parameters stay as they are. -/
theorem enrich_of_not_walked {events : List Event} {target : ScopeTarget}
    {needed : List Dimension} (hnone : ∀ d ∈ needed, Dimension.isWalked d = false) :
    enrichTargetFromRecord target events needed = target := by
  have hno : ∀ d, Dimension.isWalked d = true → d ∉ needed := fun d hd hmem =>
    absurd ((hnone d hmem).symm.trans hd) (by decide)
  unfold enrichTargetFromRecord
  simp [hno .courtId rfl, hno .scheduledDate rfl, hno .structureId rfl, hno .eventId rfl]

/-- A gap that the first matchUp fills. -/
theorem assembled_of_first {events : List Event} {method : Json} {first : Placement}
    {d : Dimension} {v : String} (hopen : targetFromParams method d = none)
    (hfirst : firstNamed events method = some first) (hvalue : first.value d = some v) :
    assembled events method d = some (.str v) := by
  unfold assembled
  rw [hfirst]
  cases d <;> simp_all [fillGaps, coalesce, nullish, Placement.value]

/-- What is filled in comes from the first matchUp. -/
theorem first_of_assembled {events : List Event} {method : Json} {d : Dimension} {v : String}
    (hopen : targetFromParams method d = none) (h : assembled events method d = some (.str v)) :
    ∃ first, firstNamed events method = some first ∧ first.value d = some v := by
  unfold assembled at h
  cases hfirst : firstNamed events method with
  | none =>
    rw [hfirst] at h
    exact absurd (hopen.symm.trans h) (by simp)
  | some first =>
    rw [hfirst] at h
    refine ⟨first, rfl, ?_⟩
    cases d <;> simp_all [fillGaps, coalesce, nullish]

/-- A grant for one value of one dimension. -/
def single (package : GrantPredicates) (d : Dimension) (v : String) : Grant :=
  wildcard package fun other => if other = d then [v] else []

/-- The target of a method whose only grant constrains one dimension. -/
theorem targetOf_single (package : GrantPredicates) (events : List Event) (method : Json)
    (d : Dimension) (v : String) :
    targetOf package [single package d v] events method =
      if Dimension.isWalked d then assembled events method else targetFromParams method := by
  have hneeded : ∀ other, other ∈ [single package d v].flatMap
      (fun grant => package.requiredTargetFields grant.scope) ↔ other = d := by
    intro other
    simp [package.required_iff, single, wildcard]
  unfold targetOf
  dsimp only
  rw [if_neg (by
    intro hempty
    have hin := (hneeded d).mpr rfl
    rw [List.isEmpty_iff.mp hempty] at hin
    cases hin)]
  by_cases hwalked : Dimension.isWalked d = true
  · rw [if_pos hwalked]
    exact enrich_of_walked ((hneeded d).mpr rfl) hwalked
  · rw [if_neg hwalked]
    refine enrich_of_not_walked fun other hother => ?_
    rw [(hneeded other).mp hother]
    simpa using hwalked

/-- A grant that covers the matchUp covers the target the gate tests. -/
theorem covered_of_found {package : GrantPredicates} {applicable : List Grant}
    {events : List Event} {method : Json} {place : Placement} {grant : Grant}
    (hmem : grant ∈ applicable) (htrue : NamesTruly reader method place)
    (hfound : OpenValuesFound reader events method place)
    (hscope : InScope reader grant.scope place) :
    package.isTargetInScope grant.scope (targetOf package applicable events method) = true := by
  rw [package.inScope_iff]
  intro d hd
  obtain ⟨v, hv, hvalue⟩ := hscope d hd
  refine ⟨v, hv, ?_⟩
  have hneeded : d ∈ applicable.flatMap fun grant => package.requiredTargetFields grant.scope :=
    List.mem_flatMap.mpr ⟨grant, hmem, (package.required_iff _ _).mpr hd⟩
  have hnotEmpty : ¬ (applicable.flatMap fun grant =>
      package.requiredTargetFields grant.scope).isEmpty = true := by
    intro hempty
    rw [List.isEmpty_iff.mp hempty] at hneeded
    cases hneeded
  unfold targetOf
  rw [if_neg hnotEmpty]
  cases hgiven : targetFromParams method d with
  | some value =>
    -- The parameters give the dimension, truly, and the walk does not overwrite it.
    obtain ⟨w, hw, rfl⟩ := htrue.2 d value hgiven
    have hsame : w = v := Option.some.inj (hw.symm.trans hvalue)
    subst hsame
    rcases enrich_cases events method
      (applicable.flatMap fun grant => package.requiredTargetFields grant.scope) with he | ⟨-, he⟩
    · rw [he]
      unfold assembled
      cases firstNamed events method with
      | none => exact hgiven
      | some first => exact fillGaps_of_str hgiven
    · rw [he]
      exact hgiven
  | none =>
    obtain ⟨hvenue, hdraw, first, hfirst, hfirstValue⟩ := hfound d v hgiven hvalue
    have hwalked : Dimension.isWalked d = true := by
      cases d with
      | matchUpId => exact absurd (hgiven.symm.trans htrue.1) (by simp)
      | venueId => exact absurd rfl hvenue
      | drawId => exact absurd rfl hdraw
      | _ => rfl
    rw [enrich_of_walked hneeded hwalked]
    exact assembled_of_first hgiven hfirst hfirstValue

/-- Where one grant for one value of an open dimension is enough, the walk finds the value. -/
theorem found_of_single {package : GrantPredicates} {events : List Event} {method : Json}
    {d : Dimension} {v : String} (hopen : targetFromParams method d = none)
    (hpass : checkMethod package [single package d v] events method = none) :
    d ≠ .venueId ∧ d ≠ .drawId ∧
      ∃ first, firstNamed events method = some first ∧ first.value d = some v := by
  obtain ⟨grant, hgrant, hcovers, hscope⟩ := checkMethod_eq_none.mp hpass
  rw [List.mem_singleton.mp hgrant] at hscope
  have hlive : ([single package d v].filter fun grant =>
      package.grantCoversMethod grant.capability (nameOf method)) = [single package d v] := by
    simp [single, wildcard, package.covers_all]
  rw [hlive, targetOf_single, package.inScope_iff] at hscope
  obtain ⟨w, hw, htarget⟩ := hscope d (by simp [single, wildcard])
  have hsame : w = v := by simpa [single, wildcard] using hw
  subst hsame
  by_cases hwalked : Dimension.isWalked d = true
  · rw [if_pos hwalked] at htarget
    refine ⟨?_, ?_, first_of_assembled hopen htarget⟩
    · rintro rfl
      cases hwalked
    · rintro rfl
      cases hwalked
  · rw [if_neg hwalked] at htarget
    exact absurd (hopen.symm.trans htarget) (by simp)

/-- For a method that names a matchUp truly: whatever the subject holds, no grant that covers
the matchUp is refused, exactly when the walk answers all that the parameters leave open. -/
theorem grants_suffice_iff (reader : MatchUpReader) (package : GrantPredicates)
    (events : List Event) (method : Json) (place : Placement)
    (htrue : NamesTruly reader method place) :
    GrantsSuffice reader package events method place ↔
      OpenValuesFound reader events method place := by
  constructor
  · intro hsuffice d v hopen hvalue
    have hscope : InScope reader (single package d v).scope place := by
      intro other hother
      have hd : other = d := by
        by_contra hne
        exact hother (if_neg hne)
      subst hd
      exact ⟨v, by simp [single, wildcard], hvalue⟩
    have hwindow : package.isWithinWindow (single package d v) 0 = true :=
      package.unbounded _ _ rfl rfl
    have hpass := hsuffice (fun _ => "") scorer "t" [single package d v] 0 _ List.mem_cons_self
      hwindow (package.covers_all _) hscope
    rw [checkGrantScope_eq_none rfl (by decide) (by decide) (by simp)] at hpass
    have hmethod := hpass method List.mem_cons_self
    rw [List.filter_cons_of_pos (by exact hwindow), List.filter_nil] at hmethod
    exact found_of_single hopen hmethod
  · intro hfound iso ctx tournamentId grants now grant hgrant hwindow hcovers hscope
    by_cases hskipped : ctx.isSuperAdmin = true ∨ tournamentId = "" ∨ ctx.userId = ""
    · unfold checkGrantScope
      rcases hskipped with hsuper | ht | huser
      · simp [hsuper]
      · simp [ht]
      · simp [huser]
    · push Not at hskipped
      obtain ⟨hsuper, ht, huser⟩ := hskipped
      have hsuper : ctx.isSuperAdmin = false := by simpa using hsuper
      rw [checkGrantScope_eq_none hsuper huser ht (List.ne_nil_of_mem hgrant)]
      intro other hother
      rw [List.mem_singleton.mp hother, checkMethod_eq_none]
      have hlive : grant ∈ grants.filter fun grant => package.isWithinWindow grant now :=
        List.mem_filter.mpr ⟨hgrant, hwindow⟩
      exact ⟨grant, hlive, hcovers,
        covered_of_found (List.mem_filter.mpr ⟨hlive, hcovers⟩) htrue hfound hscope⟩

/-- Rubbers without a schedule, and matchUps without a venue. -/
def bareReader : MatchUpReader where
  venueId _ := none
  tieMatchUps matchUp := matchUp.tieMatchUpIds.map fun id => ⟨id, [], none, none, .null⟩
  tieMatchUps_ids matchUp := by
    rw [List.map_map]
    exact List.map_id _

/-- The score of a matchUp, with what else its parameters give. -/
def scoreOf (matchUpId : String) (others : List (String × Json)) : Json :=
  .obj [("method", .str "setMatchUpStatus"),
    ("params", .obj (("matchUpId", .str matchUpId) :: others))]

/-- A team matchUp with one rubber. -/
def teamDraw : List Event :=
  [⟨some "e", [⟨some "d", [.node (some "s") [⟨"team", ["rubber"], none, none, .null⟩] [] .null []],
    .null⟩], .null⟩]

/-- A matchUp of that draw, without a schedule. -/
def inTeamDraw (matchUpId : String) (tieMatchUpIds : List String) : Placement :=
  ⟨some "e", some "d", ⟨⟨matchUpId, tieMatchUpIds, none, none, .null⟩, some "s"⟩⟩

/-- A score that names the team matchUp and gives the draw suffices, whatever the grants. -/
theorem score_suffices :
    GrantsSuffice bareReader samplePackage teamDraw (scoreOf "team" [("drawId", .str "d")])
      (inTeamDraw "team" ["rubber"]) := by
  have htrue : NamesTruly bareReader (scoreOf "team" [("drawId", .str "d")])
      (inTeamDraw "team" ["rubber"]) := by
    refine ⟨rfl, fun d value hvalue => ?_⟩
    cases d with
    | matchUpId => exact ⟨"team", rfl, (Option.some.inj hvalue).symm⟩
    | drawId => exact ⟨"d", rfl, (Option.some.inj hvalue).symm⟩
    | _ => cases hvalue
  refine (grants_suffice_iff bareReader samplePackage teamDraw _ _ htrue).mpr ?_
  intro d v hopen hvalue
  cases d with
  | matchUpId => cases hopen
  | drawId => cases hopen
  | venueId => cases hvalue
  | courtId => cases hvalue
  | scheduledDate => cases hvalue
  | eventId => exact ⟨by decide, by decide, inTeamDraw "team" ["rubber"], rfl, hvalue⟩
  | structureId => exact ⟨by decide, by decide, inTeamDraw "team" ["rubber"], rfl, hvalue⟩

/-- Every grant that covers a matchUp of the record suffices. -/
def GrantsComplete : Prop :=
  ∀ (reader : MatchUpReader) (package : GrantPredicates) (events : List Event) (method : Json),
    ∀ place ∈ allPlacements reader events, NamesTruly reader method place →
      GrantsSuffice reader package events method place

/-- A grant for the event is refused for a rubber of one of its team matchUps. -/
theorem covered_refused : ¬ GrantsComplete := by
  intro h
  have htrue : NamesTruly bareReader (scoreOf "rubber" []) (inTeamDraw "rubber" []) := by
    refine ⟨rfl, fun d value hvalue => ?_⟩
    cases d with
    | matchUpId => exact ⟨"rubber", rfl, (Option.some.inj hvalue).symm⟩
    | _ => cases hvalue
  have hplace : inTeamDraw "rubber" [] ∈ allPlacements bareReader teamDraw := by
    simp [allPlacements, placements, teamDraw, foundIn, foundAll, bareReader, inTeamDraw]
  have hscope : InScope bareReader (single samplePackage .eventId "e").scope
      (inTeamDraw "rubber" []) := by
    intro d hd
    have heq : d = .eventId := by
      by_contra hne
      exact hd (if_neg hne)
    subst heq
    exact ⟨"e", by simp [single, wildcard], rfl⟩
  have hpass := h bareReader samplePackage teamDraw _ _ hplace htrue (fun _ => "") scorer "t"
    [single samplePackage .eventId "e"] 0 _ List.mem_cons_self rfl rfl hscope
  cases hpass

end FactoryServer.GrantCoverage
