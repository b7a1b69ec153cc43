import FactoryServer.TournamentAccess
import FactoryServer.TournamentTree

/-!
# Scoped grants

A grant narrows what an already authorized user may touch: a capability, a
scope of events, draws, structures, courts, dates and matchUps, and a time
window. The gate assembles the target of every method from the parameters the
client sent, and lets the stored record answer only what the parameters leave
open. This module states for which parameters the grants confine the matchUps
that the method names.
-/

namespace FactoryServer.ScopedGrants

open JsonValue TournamentAccess TournamentTree

/-- The fields of a `ScopeTarget`. -/
inductive Dimension where
  | matchUpId
  | drawId
  | eventId
  | structureId
  | venueId
  | courtId
  | scheduledDate
  deriving DecidableEq, Repr

/-- `DIMENSION_LABEL`. -/
def Dimension.label : Dimension → String
  | .matchUpId => "matchUp"
  | .eventId => "event"
  | .drawId => "draw"
  | .structureId => "structure"
  | .venueId => "venue"
  | .courtId => "court"
  | .scheduledDate => "date"

/-- The values a scope permits per dimension; an empty list constrains nothing. -/
abbrev GrantScope := Dimension → List String

/-- What a mutation targets, per dimension. -/
abbrev ScopeTarget := Dimension → Option Json

/-- A `tournament_grants` row, with its window as instants. -/
structure Grant where
  /-- A permission key, or the wildcard. -/
  capability : String
  /-- Permitted values. -/
  scope : GrantScope
  /-- Start of the window. -/
  notBefore : Option Int
  /-- End of the window. -/
  notAfter : Option Int

/-- The shared predicates of the provider-config package. -/
structure GrantPredicates where
  /-- `GRANT_CAPABILITY_ALL`. -/
  capabilityAll : String
  /-- The capability covers a mutation method. -/
  grantCoversMethod : String → Json → Bool
  /-- The grant is live at an instant. -/
  isWithinWindow : Grant → Int → Bool
  /-- The scope covers the target. -/
  isTargetInScope : GrantScope → ScopeTarget → Bool
  /-- The dimensions a scope constrains. -/
  requiredTargetFields : GrantScope → List Dimension
  /-- The wildcard covers every method. -/
  covers_all : ∀ method, grantCoversMethod capabilityAll method = true
  /-- A grant without a window is always live. -/
  unbounded : ∀ grant now, grant.notBefore = none → grant.notAfter = none →
    isWithinWindow grant now = true
  /-- Every constrained dimension permits the target's value for it. -/
  inScope_iff : ∀ scope target, isTargetInScope scope target = true ↔
    ∀ d, scope d ≠ [] → ∃ v ∈ scope d, target d = some (.str v)
  /-- A dimension is required when its list is not empty. -/
  required_iff : ∀ scope d, d ∈ requiredTargetFields scope ↔ scope d ≠ []

/-- `value?.[0]`: the first item of an array, the first character of a string. -/
def firstItem : Option Json → Option Json
  | some (.arr items) => items.head?
  | some (.str s) => s.toList.head?.map fun c => .str c.toString
  | some (.obj fields) => (Json.obj fields).field? "0"
  | _ => none

/-- `matchUpIdOf`: `params?.matchUpId ?? params?.matchUpIds?.[0]`. -/
def matchUpIdOf (params : Option Json) : Option Json :=
  coalesce (chain params "matchUpId") (firstItem (chain params "matchUpIds"))

/-- `method?.params ?? {}`. -/
def paramsOf (method : Json) : Option Json :=
  coalesce (chain (some method) "params") (some (.obj []))

/-- `targetFromParams`. -/
def targetFromParams (method : Json) : ScopeTarget
  | .matchUpId => matchUpIdOf (paramsOf method)
  | .drawId => chain (paramsOf method) "drawId"
  | .eventId => chain (paramsOf method) "eventId"
  | .structureId => chain (paramsOf method) "structureId"
  | .venueId => chain (paramsOf method) "venueId"
  | .courtId => chain (paramsOf method) "courtId"
  | .scheduledDate =>
    coalesce (chain (paramsOf method) "scheduledDate") (chain (paramsOf method) "date")

/-- What `findInStructure` returns. -/
structure Found where
  /-- The matchUp. -/
  matchUp : MatchUp
  /-- The structure that lists it. -/
  structureId : Option String

/-- A matchUp has the id a client sent; ids are compared strictly. -/
def hasId (id : Json) (matchUp : MatchUp) : Bool := id.str? == some matchUp.matchUpId

mutual

/-- `findInStructure`: the structure's own matchUps, then its children. -/
def findInStructure (id : Json) : Structure → Option Found
  | .node structureId matchUps _ _ structures =>
    match matchUps.find? (hasId id) with
    | some matchUp => some ⟨matchUp, structureId⟩
    | none => findInStructures id structures

/-- The loop over child structures. -/
def findInStructures (id : Json) : List Structure → Option Found
  | [] => none
  | child :: rest =>
    match findInStructure id child with
    | some found => some found
    | none => findInStructures id rest

end

/-- A matchUp with its place in the record. -/
structure Placement where
  /-- The event around it. -/
  eventId : Option String
  /-- The draw around it. -/
  drawId : Option String
  /-- The matchUp and its structure. -/
  found : Found

/-- The loops over events, draws and structures. -/
def locate (id : Json) (events : List Event) : Option Placement :=
  events.findSome? fun event => event.drawDefinitions.findSome? fun drawDefinition =>
    drawDefinition.structures.findSome? fun s =>
      (findInStructure id s).map fun found => ⟨event.eventId, drawDefinition.drawId, found⟩

/-- What the record gives for a placed matchUp; venue and id are not read. -/
def Placement.value (place : Placement) : Dimension → Option String
  | .eventId => place.eventId
  | .drawId => place.drawId
  | .structureId => place.found.structureId
  | .courtId => place.found.matchUp.courtId
  | .scheduledDate => place.found.matchUp.scheduledDate
  | .matchUpId => none
  | .venueId => none

/-- `{...target, eventId: target.eventId ?? …}`: the record fills the gaps. -/
def fillGaps (target : ScopeTarget) (place : Placement) : ScopeTarget := fun d =>
  match d with
  | .matchUpId => target .matchUpId
  | .venueId => target .venueId
  | d => coalesce (target d) ((place.value d).map .str)

/-- `enrichTargetFromRecord`. -/
def enrichTargetFromRecord (target : ScopeTarget) (events : List Event)
    (needed : List Dimension) : ScopeTarget :=
  let wantsSchedule := needed.contains .courtId || needed.contains .scheduledDate
  let wantsStructure := needed.contains .structureId || needed.contains .eventId
  if !wantsSchedule && !wantsStructure then target else
  if !truthy (target .matchUpId) then target else
  match (target .matchUpId).bind (locate · events) with
  | none => target
  | some place => fillGaps target place

/-- Why `checkGrantScope` refuses. -/
structure Denial where
  /-- The refused method. -/
  method : Json
  /-- What it falls outside of. -/
  dimension : String
  /-- A sentence that replaces the default one. -/
  reason : Option String

/-- `windowDenialReason`, with `toISOString` as `iso`. -/
def windowDenialReason (iso : Int → String) (grants : List Grant) (now : Int) : String :=
  match ((grants.filterMap Grant.notBefore).filter (now < ·)).min? with
  | some start => "Your scoped access to this tournament starts at " ++ iso start
  | none =>
    match ((grants.filterMap Grant.notAfter).filter (· ≤ now)).max? with
    | some expiry =>
      "Your scoped access to this tournament ended at " ++ iso expiry ++
        " — ask an administrator to extend or remove the expired grant"
    | none => "Not authorized for this time window"

/-- `method?.method ?? 'unknown'`. -/
def nameOf (method : Json) : Json :=
  (coalesce (chain (some method) "method") (some (.str "unknown"))).getD (.str "unknown")

section Gate

variable (package : GrantPredicates) (iso : Int → String)

/-- The target the gate tests a method's grants against. -/
def targetOf (applicable : List Grant) (events : List Event) (method : Json) : ScopeTarget :=
  let needed := applicable.flatMap fun grant => package.requiredTargetFields grant.scope
  if needed.isEmpty then targetFromParams method
  else enrichTargetFromRecord (targetFromParams method) events needed

/-- The body of the loop over methods: the refusal of one method. -/
def checkMethod (live : List Grant) (events : List Event) (method : Json) : Option Denial :=
  let applicable := live.filter fun grant =>
    package.grantCoversMethod grant.capability (nameOf method)
  match applicable with
  | [] => some ⟨nameOf method, "capability", none⟩
  | first :: _ =>
    if applicable.any fun grant =>
        package.isTargetInScope grant.scope (targetOf package applicable events method) then none
    else
      let dimension := match package.requiredTargetFields first.scope with
        | [] => "scope"
        | field :: _ => field.label
      some ⟨nameOf method, dimension, none⟩

/-- `checkGrantScope`. The lookup is `none` when the grant table cannot be read,
and `events` are those of the stored record, empty when it cannot be loaded. -/
def checkGrantScope (ctx : UserContext) (tournamentId : String) (lookup : Option (List Grant))
    (now : Int) (events : List Event) (methods : List Json) : Option Denial :=
  if ctx.isSuperAdmin || methods.isEmpty then none else
  if tournamentId = "" || ctx.userId = "" then none else
  match lookup with
  | none => none
  | some grants =>
    if grants.isEmpty then none else
    let live := grants.filter fun grant => package.isWithinWindow grant now
    if live.isEmpty then
      some ⟨(methods.head?.map nameOf).getD (.str "unknown"), "time window",
        some (windowDenialReason iso grants now)⟩
    else methods.findSome? (checkMethod package live events)

end Gate

mutual

/-- The matchUps of a structure, its own before those of its children. -/
def foundIn : Structure → List Found
  | .node structureId matchUps _ _ structures =>
    matchUps.map (⟨·, structureId⟩) ++ foundAll structures

/-- The matchUps of child structures. -/
def foundAll : List Structure → List Found
  | [] => []
  | child :: rest => foundIn child ++ foundAll rest

end

/-- Every matchUp of the record, in document order. -/
def placements (events : List Event) : List Placement :=
  events.flatMap fun event => event.drawDefinitions.flatMap fun drawDefinition =>
    drawDefinition.structures.flatMap fun s =>
      (foundIn s).map (⟨event.eventId, drawDefinition.drawId, ·⟩)

mutual

/-- The recursive search is a search of the flattened structure. -/
theorem findInStructure_eq (id : Json) (s : Structure) :
    findInStructure id s = (foundIn s).find? fun f => hasId id f.matchUp := by
  cases s with
  | node structureId matchUps seedAssignments content structures =>
    have hchildren := findInStructures_eq id structures
    have hown : (matchUps.map (Found.mk · structureId)).find? (fun f => hasId id f.matchUp) =
        (matchUps.find? (hasId id)).map (⟨·, structureId⟩) := by
      rw [List.find?_map]
      rfl
    rw [foundIn, List.find?_append, hown, ← hchildren, findInStructure]
    cases matchUps.find? (hasId id) <;> rfl

theorem findInStructures_eq (id : Json) (children : List Structure) :
    findInStructures id children = (foundAll children).find? fun f => hasId id f.matchUp := by
  cases children with
  | nil => rfl
  | cons child rest =>
    have hchild := findInStructure_eq id child
    have hrest := findInStructures_eq id rest
    rw [foundAll, List.find?_append, ← hchild, ← hrest, findInStructures]
    cases findInStructure id child <;> rfl

end

/-- The search of the record returns its first matchUp with the id. -/
theorem locate_eq (id : Json) (events : List Event) :
    locate id events = (placements events).find? fun place => hasId id place.found.matchUp := by
  unfold locate placements
  simp only [List.find?_flatMap, List.find?_map, findInStructure_eq]
  rfl

/-- A method names a matchUp, by `matchUpId` or in `matchUpIds`. -/
def Names (method : Json) (id : String) : Prop :=
  chain (paramsOf method) "matchUpId" = some (.str id) ∨
    ∃ items, chain (paramsOf method) "matchUpIds" = some (.arr items) ∧ Json.str id ∈ items

/-- The first matchUp with the id that `matchUpIdOf` picks. -/
def firstNamed (events : List Event) (method : Json) : Option Placement :=
  if truthy (targetFromParams method .matchUpId) then
    (targetFromParams method .matchUpId).bind fun id =>
      (placements events).find? fun place => hasId id place.found.matchUp
  else none

/-- The target of a method with every gap filled from the first matchUp it names. -/
def assembled (events : List Event) (method : Json) : ScopeTarget :=
  match firstNamed events method with
  | none => targetFromParams method
  | some place => fillGaps (targetFromParams method) place

/-- Filling gaps changes no string. -/
theorem fillGaps_of_str {target : ScopeTarget} {place : Placement} {d : Dimension} {v : String}
    (h : target d = some (.str v)) : fillGaps target place d = some (.str v) := by
  cases d <;> simp [fillGaps, h, coalesce, nullish]

/-- Enrichment leaves the parameters alone or gives the assembled target, which
it always does when a court is needed. -/
theorem enrich_cases (events : List Event) (method : Json) (needed : List Dimension) :
    enrichTargetFromRecord (targetFromParams method) events needed = assembled events method ∨
      Dimension.courtId ∉ needed ∧
        enrichTargetFromRecord (targetFromParams method) events needed =
          targetFromParams method := by
  unfold enrichTargetFromRecord assembled firstNamed
  simp only [locate_eq]
  cases ht : truthy (targetFromParams method .matchUpId) with
  | false => exact Or.inl (by simp)
  | true =>
    by_cases hw : (!(needed.contains .courtId || needed.contains .scheduledDate) &&
        !(needed.contains .structureId || needed.contains .eventId)) = true
    · right
      constructor
      · intro hcourt
        simp [hcourt] at hw
      · exact if_pos hw
    · left
      rw [if_neg hw]
      rfl

/-- A method passes the loop exactly when some live grant covers it and its target. -/
theorem checkMethod_eq_none {package : GrantPredicates} {live : List Grant} {events : List Event}
    {method : Json} :
    checkMethod package live events method = none ↔
      ∃ grant ∈ live, package.grantCoversMethod grant.capability (nameOf method) = true ∧
        package.isTargetInScope grant.scope (targetOf package (live.filter fun grant =>
          package.grantCoversMethod grant.capability (nameOf method)) events method) = true := by
  unfold checkMethod
  dsimp only
  generalize hl : (live.filter fun grant =>
    package.grantCoversMethod grant.capability (nameOf method)) = applicable
  have hmem : ∀ grant, grant ∈ applicable ↔ grant ∈ live ∧
      package.grantCoversMethod grant.capability (nameOf method) = true := by
    intro grant
    rw [← hl, List.mem_filter]
  have hany : (applicable.any fun grant => package.isTargetInScope grant.scope
      (targetOf package applicable events method)) = true ↔
      ∃ grant ∈ live, package.grantCoversMethod grant.capability (nameOf method) = true ∧
        package.isTargetInScope grant.scope
          (targetOf package applicable events method) = true := by
    simp only [List.any_eq_true, hmem, and_assoc]
  rw [← hany]
  cases applicable with
  | nil => simp
  | cons first rest =>
    dsimp only
    split_ifs with h
    · simp [h]
    · simp [h]

/-- What a passed check says of a subject that holds grants. -/
theorem checkGrantScope_eq_none {package : GrantPredicates} {iso : Int → String}
    {ctx : UserContext} {tournamentId : String} {grants : List Grant} {now : Int}
    {events : List Event} {methods : List Json} (hsuper : ctx.isSuperAdmin = false)
    (huser : ctx.userId ≠ "") (ht : tournamentId ≠ "") (hgrants : grants ≠ []) :
    checkGrantScope package iso ctx tournamentId (some grants) now events methods = none ↔
      ∀ method ∈ methods,
        checkMethod package (grants.filter fun grant => package.isWithinWindow grant now) events
          method = none := by
  unfold checkGrantScope
  cases methods with
  | nil => simp
  | cons first rest =>
    have hg : grants.isEmpty = false := by simpa using hgrants
    simp only [hsuper, huser, ht, hg, List.isEmpty_cons, Bool.or_self, Bool.false_eq_true,
      if_false]
    cases hl : (grants.filter fun grant => package.isWithinWindow grant now) with
    | nil =>
      have hfirst : checkMethod package [] events first ≠ none := by simp [checkMethod]
      simp [hfirst]
    | cons g gs => simp [List.findSome?_eq_none_iff]

/-- An unbounded wildcard grant. -/
def wildcard (package : GrantPredicates) (scope : GrantScope) : Grant :=
  ⟨package.capabilityAll, scope, none, none⟩

/-- A subject without any role. -/
def scorer : UserContext :=
  { userId := "u-1", email := "scorer@club.test", isSuperAdmin := false, globalRoles := [],
    providerRoles := [], providerIds := [], provisionerProviderIds := [],
    actingProviderId := none, providerSelectionPending := false }

/-- The package's predicates as its tests describe them, with every capability
covering every method. -/
def samplePackage : GrantPredicates where
  capabilityAll := "*"
  grantCoversMethod _ _ := true
  isWithinWindow grant now := grant.notBefore.all (· ≤ now) && grant.notAfter.all (now < ·)
  isTargetInScope scope target :=
    [Dimension.matchUpId, .drawId, .eventId, .structureId, .venueId, .courtId,
      .scheduledDate].all fun d => scope d == [] || (scope d).any fun v =>
        (target d).bind Json.str? == some v
  requiredTargetFields scope :=
    [Dimension.matchUpId, .drawId, .eventId, .structureId, .venueId, .courtId,
      .scheduledDate].filter fun d => scope d != []
  covers_all _ := rfl
  unbounded grant now hb ha := by simp [hb, ha]
  inScope_iff scope target := by
    have hstr : ∀ (value : Option Json) (v : String),
        (value.bind Json.str? == some v) = true ↔ value = some (.str v) := by
      intro value v
      cases value with
      | none => simp
      | some json => cases json <;> simp [Json.str?]
    have hall : ∀ P : Dimension → Prop, (∀ d, P d) ↔ P .matchUpId ∧ P .drawId ∧ P .eventId ∧
        P .structureId ∧ P .venueId ∧ P .courtId ∧ P .scheduledDate := by
      intro P
      constructor
      · intro h
        exact ⟨h _, h _, h _, h _, h _, h _, h _⟩
      · rintro ⟨h1, h2, h3, h4, h5, h6, h7⟩ d
        cases d <;> assumption
    rw [hall]
    simp only [List.all_cons, List.all_nil, Bool.and_true, Bool.and_eq_true, Bool.or_eq_true,
      beq_iff_eq, List.any_eq_true, hstr, or_iff_not_imp_left, ne_eq]
  required_iff scope d := by cases d <;> simp

end FactoryServer.ScopedGrants
