import FactoryServer.GuardedRuns
import Mathlib.Data.Nat.Notation

/-!
# The cursor of the merge events

The client of the person registry consumes a stream of merge events and rewrites the
users that carry a deprecated person. It remembers when the last event it handled
occurred, and a reconnect asks for the events since then. A merge that is handled
moves the cursor; a merge whose handling throws is logged and the stream goes on.
-/

namespace FactoryServer.MergeCursor

open GuardedRuns

/-! ## Events -/

/-- The data of a `personMerged` event. -/
structure MergeData where
  /-- `eventId`. -/
  eventId : String
  /-- `survivorId`. -/
  survivorId : Option String
  /-- `deprecatedId`. -/
  deprecatedId : Option String
  /-- `occurredAt`. -/
  occurredAt : Option ℕ
  deriving DecidableEq

/-- One event of the stream. -/
structure SseEvent where
  /-- The event's type. -/
  event : String
  /-- Its data. -/
  data : MergeData
  deriving DecidableEq

/-- The id is present and not empty. -/
def truthyId (id : Option String) : Option String := id.filter (· ≠ "")

/-- The persons a merge names: other events and events without both ids are no merge. -/
def mergeOf (event : SseEvent) : Option (String × String) :=
  if event.event = "personMerged" then
    match truthyId event.data.survivorId, truthyId event.data.deprecatedId with
    | some survivorId, some deprecatedId => some (survivorId, deprecatedId)
    | _, _ => none
  else none

/-- The registry of persons: which of its events a connection is offered. -/
structure PersonRegistry where
  /-- The event is replayed to a connection with this `since`. -/
  offers : Option ℕ → SseEvent → Bool

/-! ## The client -/

/-- The cached fields of a person. -/
structure CachedPersonFields where
  /-- `standardFamilyName`. -/
  standardFamilyName : Option String
  /-- `standardGivenName`. -/
  standardGivenName : Option String
  /-- `birthDate`. -/
  birthDate : Option String
  /-- `sex`. -/
  sex : Option String
  /-- `nationalityCode`. -/
  nationalityCode : Option String
  deriving DecidableEq

/-- The survivor as the registry answers it. -/
structure PersonRow where
  /-- `personRevision`. -/
  personRevision : ℕ
  /-- The fields that users carry. -/
  cached : CachedPersonFields
  deriving DecidableEq

/-- What `getById` gives. -/
inductive SurvivorLookup where
  /-- The registry answers the person. -/
  | found (person : PersonRow)
  /-- The registry does not know the person. -/
  | missing
  /-- The request fails. -/
  | failed

/-- The columns of a user that a merge writes. -/
structure UserRow where
  /-- `user_id`. -/
  userId : String
  /-- `person_id`. -/
  personId : Option String
  /-- `person_revision`. -/
  personRevision : Option ℕ
  /-- The cached fields. -/
  cached : Option CachedPersonFields
  deriving DecidableEq

/-- `rewritePersonId`. -/
def rewritePersonId (users : List UserRow) (fromPersonId toPersonId : String)
    (survivor : PersonRow) : List UserRow :=
  users.map fun user =>
    if user.personId = some fromPersonId then
      { user with
        personId := some toPersonId
        personRevision := some survivor.personRevision
        cached := some survivor.cached }
    else user

/-- The registry's events and the client of one process. -/
structure MergeState where
  /-- The events of the registry, in the order in which they were published. -/
  published : List SseEvent := []
  /-- `lastEventAt`. -/
  lastEventAt : Option ℕ := none
  /-- The events that the open connection has yet to deliver. -/
  stream : Option (List SseEvent) := none
  /-- The events that this connection has dispatched. -/
  dispatched : List SseEvent := []
  /-- The users. -/
  users : List UserRow := []
  /-- The merges whose rewrite was stored. -/
  applied : List SseEvent := []
  deriving DecidableEq

/-- `handleMerge`: a survivor that is not found leaves the users alone. `none` where it throws. -/
def handleMerge (s : MergeState) (event : SseEvent) (survivorId deprecatedId : String)
    (lookup : SurvivorLookup) (stored : Bool) : Option MergeState :=
  match lookup with
  | .failed => none
  | .missing => some s
  | .found survivor =>
    if stored then
      some { s with
        users := rewritePersonId s.users deprecatedId survivorId survivor
        applied := s.applied ++ [event] }
    else none

/-- `dispatchEvent`. -/
def dispatchEvent (s : MergeState) (event : SseEvent) (lookup : SurvivorLookup) (stored : Bool) :
    MergeState :=
  match mergeOf event with
  | none => s
  | some (survivorId, deprecatedId) =>
    match handleMerge s event survivorId deprecatedId lookup stored with
    | some handled =>
      { handled with lastEventAt := event.data.occurredAt.orElse fun _ => s.lastEventAt }
    | none => s

/-- What may happen next. -/
inductive MergeAction where
  /-- The registry publishes an event. -/
  | publish (event : SseEvent)
  /-- The client opens the stream. -/
  | connect
  /-- The next event arrives. -/
  | deliver (lookup : SurvivorLookup) (stored : Bool)
  /-- The stream ends. -/
  | disconnect
  /-- The process ends and another one starts. -/
  | restart

/-- One step. -/
def step (registry : PersonRegistry) (s : MergeState) : MergeAction → MergeState
  | .publish event =>
    { s with
      published := s.published ++ [event]
      stream := s.stream.map fun rest => rest ++ [event] }
  | .connect =>
    match s.stream with
    | some _ => s
    | none =>
      { s with
        stream := some (s.published.filter (registry.offers s.lastEventAt))
        dispatched := [] }
  | .deliver lookup stored =>
    match s.stream with
    | some (event :: rest) =>
      dispatchEvent { s with stream := some rest, dispatched := s.dispatched ++ [event] } event
        lookup stored
    | _ => s
  | .disconnect => { s with stream := none }
  | .restart => { s with stream := none, lastEventAt := none }

/-! ## What is to be shown -/

/-- A merge that has not been applied. -/
def Unapplied (s : MergeState) (event : SseEvent) : Prop :=
  event ∈ s.published ∧ (mergeOf event).isSome ∧ event ∉ s.applied

/-- The cursor has passed the event: a reconnect is not offered it. -/
def Passed (registry : PersonRegistry) (s : MergeState) (event : SseEvent) : Prop :=
  s.lastEventAt.isSome ∧ registry.offers s.lastEventAt event = false

/-- The cursor has passed no merge that is not applied. -/
def Retained (registry : PersonRegistry) (s : MergeState) : Prop :=
  ∀ event, Unapplied s event → ¬Passed registry s event

/-- What keeps the cursor behind the merges that are not applied: the registry replays, since an
event, those after it, and everything to a client without a cursor; the survivor of a merge is
found; a connection delivers nothing more once it has dispatched a merge in vain. -/
def Heeded (registry : PersonRegistry) (s : MergeState) : MergeAction → Prop
  | .publish event => ∀ earlier ∈ s.published, earlier.data.occurredAt.isSome →
      registry.offers earlier.data.occurredAt event = true
  | .connect => s.lastEventAt = none →
      ∀ event, Unapplied s event → registry.offers none event = true
  | .deliver lookup _ => (∀ event ∈ s.dispatched, ¬Unapplied s event) ∧
      match lookup with
      | .missing => False
      | _ => True
  | .disconnect => True
  | .restart => True

/-! ## The invariant -/

/-- An event that the registry replays to a client which stopped at an earlier one. -/
def Follows (registry : PersonRegistry) (earlier later : SseEvent) : Prop :=
  earlier.data.occurredAt.isSome → registry.offers earlier.data.occurredAt later = true

/-- Where every merge that is not applied can still be met. -/
structure Guarded (registry : PersonRegistry) (s : MergeState) : Prop where
  /-- The registry's events follow one another. -/
  ordered : s.published.Pairwise (Follows registry)
  /-- The cursor is the time of an event. -/
  cursor : s.lastEventAt.isSome → ∃ event ∈ s.published, event.data.occurredAt = s.lastEventAt
  /-- The cursor has passed no merge that is not applied. -/
  retained : Retained registry s
  /-- An open connection has dispatched the merges that are not applied, or will deliver them. -/
  streamed : ∀ rest, s.stream = some rest → rest.Sublist s.published ∧
    ∀ event, Unapplied s event → event ∈ s.dispatched ∨ event ∈ rest

variable {registry : PersonRegistry} {s : MergeState}

theorem guarded_start : Guarded registry {} where
  ordered := List.Pairwise.nil
  cursor := fun h => nomatch h
  retained := fun _ h _ => absurd h.1 List.not_mem_nil
  streamed := fun _ h => nomatch h

theorem guarded_publish {event : SseEvent} (hg : Guarded registry s)
    (hafter : Heeded registry s (.publish event)) :
    Guarded registry (step registry s (.publish event)) where
  ordered := by
    refine List.pairwise_append.mpr ⟨hg.ordered, List.pairwise_singleton _ _, ?_⟩
    intro earlier he later hl
    rw [List.mem_singleton.mp hl]
    exact hafter earlier he
  cursor := by
    intro hsome
    obtain ⟨found, hmem, htime⟩ := hg.cursor hsome
    exact ⟨found, List.mem_append_left _ hmem, htime⟩
  retained := by
    rintro later ⟨hmem, hmerge, hfresh⟩ ⟨hsome, hoffer⟩
    rcases List.mem_append.mp hmem with hold | hnew
    · exact hg.retained later ⟨hold, hmerge, hfresh⟩ ⟨hsome, hoffer⟩
    · obtain ⟨found, hfound, htime⟩ := hg.cursor hsome
      have hoffers := hafter found hfound (htime ▸ hsome)
      rw [← List.mem_singleton.mp hnew, htime] at hoffers
      exact Bool.false_ne_true (hoffer.symm.trans hoffers)
  streamed := by
    intro rest hrest
    obtain ⟨before, hbefore, rfl⟩ := Option.map_eq_some_iff.mp hrest
    obtain ⟨hsub, hmet⟩ := hg.streamed before hbefore
    refine ⟨hsub.append (List.Sublist.refl _), ?_⟩
    rintro later ⟨hmem, hmerge, hfresh⟩
    rcases List.mem_append.mp hmem with hold | hnew
    · exact (hmet later ⟨hold, hmerge, hfresh⟩).imp id (List.mem_append_left _)
    · exact Or.inr (List.mem_append_right _ hnew)

theorem guarded_connect (hg : Guarded registry s) (hfirst : Heeded registry s .connect) :
    Guarded registry (step registry s .connect) := by
  cases hstream : s.stream with
  | some rest =>
    have hstep : step registry s .connect = s := by simp only [step, hstream]
    rw [hstep]
    exact hg
  | none =>
    have hstep : step registry s .connect = { s with
        stream := some (s.published.filter (registry.offers s.lastEventAt))
        dispatched := [] } := by simp only [step, hstream]
    rw [hstep]
    refine ⟨hg.ordered, hg.cursor, hg.retained, ?_⟩
    intro rest hrest
    obtain rfl := Option.some.inj hrest
    refine ⟨List.filter_sublist, fun event hopen => Or.inr (List.mem_filter.mpr ⟨hopen.1, ?_⟩)⟩
    cases hcursor : s.lastEventAt with
    | none => exact hfirst hcursor event hopen
    | some time =>
      have hpassed := hg.retained event hopen
      unfold Passed at hpassed
      rw [hcursor] at hpassed
      simpa using hpassed

/-- An event that changes nothing but the connection. -/
theorem guarded_dispatched {event : SseEvent} {rest : List SseEvent} (hg : Guarded registry s)
    (hstream : s.stream = some (event :: rest)) :
    Guarded registry { s with stream := some rest, dispatched := s.dispatched ++ [event] } where
  ordered := hg.ordered
  cursor := hg.cursor
  retained := hg.retained
  streamed := by
    intro remaining hrest
    obtain rfl := Option.some.inj hrest
    obtain ⟨hsub, hmet⟩ := hg.streamed _ hstream
    refine ⟨(List.sublist_cons_self event rest).trans hsub, fun later hopen => ?_⟩
    rcases hmet later hopen with hdone | hin
    · exact Or.inl (List.mem_append_left _ hdone)
    · rcases List.mem_cons.mp hin with rfl | hin
      · exact Or.inl (List.mem_append_right _ (List.mem_singleton.mpr rfl))
      · exact Or.inr hin

/-- A merge that is applied after all earlier ones of its connection moves the cursor. -/
theorem guarded_applied {event : SseEvent} {rest : List SseEvent} {users : List UserRow}
    (hg : Guarded registry s) (hstream : s.stream = some (event :: rest))
    (hdone : ∀ earlier ∈ s.dispatched, ¬Unapplied s earlier) :
    Guarded registry { s with
      stream := some rest
      dispatched := s.dispatched ++ [event]
      users := users
      applied := s.applied ++ [event]
      lastEventAt := event.data.occurredAt.orElse fun _ => s.lastEventAt } := by
  obtain ⟨hsub, hmet⟩ := hg.streamed _ hstream
  have hmem : event ∈ s.published := hsub.subset List.mem_cons_self
  have hopened : ∀ later, later ∈ s.published → (mergeOf later).isSome →
      later ∉ s.applied ++ [event] → Unapplied s later ∧ later ∈ rest := by
    intro later hl hmerge hfresh
    rw [List.mem_append, List.mem_singleton, not_or] at hfresh
    have hopen : Unapplied s later := ⟨hl, hmerge, hfresh.1⟩
    rcases hmet later hopen with hearlier | hin
    · exact absurd hopen (hdone later hearlier)
    · exact ⟨hopen, (List.mem_cons.mp hin).resolve_left hfresh.2⟩
  have hfollows := (List.pairwise_cons.mp (hg.ordered.sublist hsub)).1
  refine ⟨hg.ordered, ?_, ?_, ?_⟩
  · intro hsome
    cases htime : event.data.occurredAt with
    | none =>
      simp only [htime, Option.orElse_none] at hsome ⊢
      exact hg.cursor hsome
    | some time => exact ⟨event, hmem, by simp [htime]⟩
  · rintro later ⟨hl, hmerge, hfresh⟩ ⟨hsome, hoffer⟩
    obtain ⟨hopen, hin⟩ := hopened later hl hmerge hfresh
    cases htime : event.data.occurredAt with
    | none =>
      simp only [htime, Option.orElse_none] at hsome hoffer
      exact hg.retained later hopen ⟨hsome, hoffer⟩
    | some time =>
      have hoffers := hfollows later hin (by simp [htime])
      simp only [htime, Option.orElse_some] at hoffer hoffers
      exact Bool.false_ne_true (hoffer.symm.trans hoffers)
  · intro remaining hrest
    obtain rfl := Option.some.inj hrest
    refine ⟨(List.sublist_cons_self event rest).trans hsub, fun later hopen => Or.inr ?_⟩
    exact (hopened later hopen.1 hopen.2.1 hopen.2.2).2

theorem guarded_deliver {lookup : SurvivorLookup} {stored : Bool} (hg : Guarded registry s)
    (hheeded : Heeded registry s (.deliver lookup stored)) :
    Guarded registry (step registry s (.deliver lookup stored)) := by
  obtain ⟨hdone, hfound⟩ := hheeded
  cases hstream : s.stream with
  | none =>
    have hstep : step registry s (.deliver lookup stored) = s := by simp only [step, hstream]
    rw [hstep]
    exact hg
  | some events =>
    cases events with
    | nil =>
      have hstep : step registry s (.deliver lookup stored) = s := by simp only [step, hstream]
      rw [hstep]
      exact hg
    | cons event rest =>
      have hstep : step registry s (.deliver lookup stored) =
          dispatchEvent { s with stream := some rest, dispatched := s.dispatched ++ [event] } event
            lookup stored := by simp only [step, hstream]
      have hplain := guarded_dispatched hg hstream
      rw [hstep]
      unfold dispatchEvent
      split
      · exact hplain
      · cases lookup with
        | failed => exact hplain
        | missing => exact absurd hfound id
        | found survivor =>
          cases stored with
          | false => exact hplain
          | true => exact guarded_applied hg hstream hdone

/-- A client that is not connected meets every merge again through its cursor. -/
theorem guarded_closed (hg : Guarded registry s) :
    Guarded registry (step registry s .disconnect) :=
  ⟨hg.ordered, hg.cursor, hg.retained, fun _ h => (nomatch h)⟩

theorem guarded_restart (hg : Guarded registry s) : Guarded registry (step registry s .restart) :=
  ⟨hg.ordered, fun h => (nomatch h), fun _ _ hpassed => Bool.false_ne_true hpassed.1,
    fun _ h => (nomatch h)⟩

/-- What one step preserves. -/
theorem guarded_step (s : MergeState) (action : MergeAction) (hheeded : Heeded registry s action)
    (hg : Guarded registry s) : Guarded registry (step registry s action) := by
  cases action with
  | publish event => exact guarded_publish hg hheeded
  | connect => exact guarded_connect hg hheeded
  | deliver lookup stored => exact guarded_deliver hg hheeded
  | disconnect => exact guarded_closed hg
  | restart => exact guarded_restart hg

/-- Where a connection ends with the merge that it could not apply, the cursor never passes a
merge that is not applied, and the next connection is offered every one of them. -/
theorem merges_retained (registry : PersonRegistry) {actions : List MergeAction}
    (hmeets : RunMeets (step registry) (Heeded registry) {} actions) :
    Retained registry (run (step registry) {} actions) :=
  (run_keeps guarded_step hmeets guarded_start).retained

/-! ## A failure between two merges -/

/-- A registry that replays the events after `since`, and all of them without. -/
def replayAfter : PersonRegistry where
  offers since event :=
    match since, event.data.occurredAt with
    | none, _ => true
    | some time, some occurredAt => time < occurredAt
    | some _, none => false

/-- The merge of a person into another one. -/
def sampleMerge (deprecatedId : String) (occurredAt : ℕ) : SseEvent :=
  ⟨"personMerged", ⟨"merge-of-" ++ deprecatedId, some "survivor", some deprecatedId,
    some occurredAt⟩⟩

/-- The survivor of the sample merges. -/
def sampleSurvivor : PersonRow := ⟨7, ⟨some "Family", some "Given", none, none, none⟩⟩

/-- The stream ends after the failure, and the next one delivers both merges. -/
theorem merges_retained_reconnected :
    Retained replayAfter (run (step replayAfter) {}
      [.publish (sampleMerge "first" 1), .publish (sampleMerge "second" 2), .connect,
        .deliver .failed true, .disconnect, .connect, .deliver (.found sampleSurvivor) true,
        .deliver (.found sampleSurvivor) true]) := by
  apply merges_retained
  have hfirst : ∀ s : MergeState, Heeded replayAfter s .connect := by
    intro s _ event _
    cases event.data.occurredAt <;> rfl
  have hnone : ∀ s : MergeState, s.dispatched = [] → ∀ event ∈ s.dispatched, ¬Unapplied s event := by
    intro s hs event hin
    rw [hs] at hin
    exact absurd hin List.not_mem_nil
  refine ⟨?_, ?_, hfirst _, ⟨hnone _ (by decide), trivial⟩, trivial, hfirst _,
    ⟨hnone _ (by decide), trivial⟩, ⟨?_, trivial⟩, trivial⟩
  · intro earlier hin
    exact absurd hin List.not_mem_nil
  · intro earlier hin _
    rw [List.mem_singleton.mp hin]
    decide
  · intro event hin hopen
    have hevent : event = sampleMerge "first" 1 := List.mem_singleton.mp hin
    exact hopen.2.2 (by rw [hevent]; decide)

/-- The merge after the one that failed moves the cursor past both. -/
theorem merge_lost_after_failure :
    ¬∀ actions : List MergeAction, Retained replayAfter (run (step replayAfter) {} actions) := by
  intro hall
  refine hall [.publish (sampleMerge "first" 1), .publish (sampleMerge "second" 2), .connect,
    .deliver .failed true, .deliver (.found sampleSurvivor) true] (sampleMerge "first" 1) ?_ ?_
  · exact ⟨by decide, by decide, by decide⟩
  · exact ⟨by decide, by decide⟩

end FactoryServer.MergeCursor
