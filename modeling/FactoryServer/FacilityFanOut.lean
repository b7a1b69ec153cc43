import FactoryServer.BroadcastOrder

/-!
# Fan-out of schedule changes

A mutation that moves courts, or links tournaments, concerns the peers of its tournaments too.
What a burst of mutations touches is gathered for each tournament until none has come for a
while. The record of the tournament is read then, and the rooms of its peers are told.
-/

namespace FactoryServer.FacilityFanOut

open JsonValue InsertionMaps GuardedRuns BroadcastOrder

/-! ## What a mutation touches -/

/-- `FACILITY_FANOUT_DEBOUNCE_MS`. -/
def FACILITY_FANOUT_DEBOUNCE_MS : ℕ := 500

/-- `SCHEDULE_LINK_GRAPH_METHODS`. -/
def SCHEDULE_LINK_GRAPH_METHODS : List String :=
  ["linkTournaments", "unlinkTournaments", "unlinkTournament"]

/-- A text that is not empty. -/
def present (value : Option Json) : Option String := (value.bind Json.str?).filter (· ≠ "")

/-- `methods.map((m) => m?.method).filter(Boolean)`. -/
def methodNames (methods : List Json) : List String :=
  methods.filterMap fun method => present (method.field? "method")

/-- `isLinkGraphMutation`. -/
def isLinkGraphMutation (names : List String) : Bool :=
  names.any fun name => name ∈ SCHEDULE_LINK_GRAPH_METHODS

/-- `isScheduleAffecting`; `permissions` is `MUTATION_PERMISSIONS`. -/
def isScheduleAffecting (permissions : String → Option String) (names : List String) : Bool :=
  names.any fun name =>
    permissions name = some "canModifySchedule" || name ∈ SCHEDULE_LINK_GRAPH_METHODS

/-- `venueIdsFromMethods`. -/
def venueIdsFromMethods (methods : List Json) : List String :=
  setOf (methods.flatMap fun method =>
    let params := method.field? "params"
    let listed := match chain params "venueIds" with
      | some (.arr items) => items.map some
      | _ => []
    let candidates := [chain params "venueId", chain (chain params "schedule") "venueId"] ++ listed
    candidates.filterMap present)

/-- A mutation, as it concerns one of its tournaments. -/
structure Change where
  /-- The tournament, `sourceId`. -/
  sourceId : String
  /-- When the mutation was broadcast. -/
  time : ℕ
  /-- The venues that its methods name. -/
  venueIds : List String
  /-- `linkGraph`. -/
  linkGraph : Bool
  /-- The other tournaments of the batch. -/
  others : List String

/-- What `scheduleFacilityScheduleFanOut` notes of a payload, tournament by tournament. -/
def changesOf (permissions : String → Option String) (now : ℕ) (payload : BroadcastPayload) :
    List Change :=
  let names := methodNames payload.methods
  if isScheduleAffecting permissions names then
    (payload.ids.filter (· ≠ "")).map fun sourceId =>
      ⟨sourceId, now, venueIdsFromMethods payload.methods, isLinkGraphMutation names,
        payload.ids.filter fun id => id ≠ "" ∧ id ≠ sourceId⟩
  else []

/-! ## What is pending -/

/-- `PendingFacilityFanOut`. -/
structure PendingFacilityFanOut where
  /-- When the timer is due. -/
  timer : ℕ
  /-- `venueIds`. -/
  venueIds : List String
  /-- `linkGraph`. -/
  linkGraph : Bool
  /-- `groupIds`. -/
  groupIds : List String

/-- One more change, on what was pending before; the timer is set anew. -/
def gather (old : Option PendingFacilityFanOut) (change : Change) : PendingFacilityFanOut :=
  let pending := old.getD ⟨0, [], false, []⟩
  ⟨change.time + FACILITY_FANOUT_DEBOUNCE_MS, change.venueIds.foldl addItem pending.venueIds,
    pending.linkGraph || change.linkGraph,
    if change.linkGraph then change.others.foldl addItem pending.groupIds else pending.groupIds⟩

/-- What is read of a record. -/
structure SourceRecord where
  /-- `linkedTournamentIds`. -/
  linkedTournamentIds : List String
  /-- The `venueId` of each of `venues`. -/
  venues : List (Option String)

/-- `venueIdsFromRecord`. -/
def venueIdsFromRecord (record : Option SourceRecord) : List String :=
  (record.elim [] SourceRecord.venues).filterMap fun venueId => venueId.filter (· ≠ "")

/-- `computeFanOutTargets`. -/
def computeFanOutTargets (record : Option SourceRecord) (pending : PendingFacilityFanOut)
    (sourceId : String) : List String :=
  setOf ((record.elim [] SourceRecord.linkedTournamentIds ++
    if pending.linkGraph then pending.groupIds else []).filter fun id => id ≠ "" ∧ id ≠ sourceId)

/-- A timer that went off. -/
structure Flush where
  /-- The tournament. -/
  sourceId : String
  /-- When it went off. -/
  time : ℕ
  /-- What was pending. -/
  pending : PendingFacilityFanOut
  /-- The changes it is about. -/
  changes : List Change

/-- A `facilityScheduleChanged` in the room of a tournament. -/
structure ScheduleEvent where
  /-- The tournament of the room. -/
  room : String
  /-- `venueIds`. -/
  venueIds : List String
  /-- `changedAt`. -/
  changedAt : ℕ

/-- `emitFacilityScheduleChanged`. -/
def emitFacilityScheduleChanged (now : ℕ) (flush : Flush) (record : Option SourceRecord) :
    List ScheduleEvent :=
  (computeFanOutTargets record flush.pending flush.sourceId).map fun room =>
    ⟨room, if flush.pending.venueIds = [] then venueIdsFromRecord record
      else flush.pending.venueIds, now⟩

/-! ## Steps -/

/-- The broadcast service. -/
structure FanOutState where
  /-- The clock. -/
  now : ℕ := 0
  /-- `pendingFacilityFanOut`. -/
  pending : String → Option PendingFacilityFanOut := fun _ => none
  /-- The flushes whose record is being read. -/
  reading : List Flush := []
  /-- The events, as they were published. -/
  published : List ScheduleEvent := []
  /-- History: all changes, those that no timer has been about yet, and all flushes. -/
  noted : List Change := []
  waiting : List Change := []
  flushed : List Flush := []

/-- What may happen next. -/
inductive FanOutAction where
  /-- Time passes. -/
  | tick
  /-- A mutation is broadcast. -/
  | broadcast (payload : BroadcastPayload)
  /-- `flushFacilityScheduleFanOut`: the timer of a tournament goes off, once it is due. -/
  | timer (sourceId : String)
  /-- The read of a record is answered. -/
  | answer (position : ℕ) (record : Option SourceRecord)
  /-- It fails, and the failure is logged. -/
  | fail (position : ℕ)

/-- A change is noted. -/
def note (s : FanOutState) (change : Change) : FanOutState :=
  { s with
    pending := Function.update s.pending change.sourceId
      (some (gather (s.pending change.sourceId) change))
    noted := s.noted ++ [change]
    waiting := s.waiting ++ [change] }

/-- One step. -/
def step (permissions : String → Option String) (s : FanOutState) : FanOutAction → FanOutState
  | .tick => { s with now := s.now + 1 }
  | .broadcast payload => (changesOf permissions s.now payload).foldl note s
  | .timer sourceId =>
    match s.pending sourceId with
    | none => s
    | some pending =>
      if pending.timer ≤ s.now then
        let flush : Flush := ⟨sourceId, s.now, pending,
          s.waiting.filter fun change => change.sourceId = sourceId⟩
        { s with
          pending := Function.update s.pending sourceId none
          reading := s.reading ++ [flush]
          waiting := s.waiting.filter fun change => change.sourceId ≠ sourceId
          flushed := s.flushed ++ [flush] }
      else s
  | .answer position record =>
    match s.reading[position]? with
    | none => s
    | some flush =>
      { s with
        reading := s.reading.eraseIdx position
        published := s.published ++ emitFacilityScheduleChanged s.now flush record }
  | .fail position => { s with reading := s.reading.eraseIdx position }

/-! ## What is held -/

/-- What is pending is what these changes say, until a while after the last of them. -/
structure Gathered (pending : PendingFacilityFanOut) (changes : List Change) : Prop where
  venueIds : ∀ id, id ∈ pending.venueIds ↔ ∃ change ∈ changes, id ∈ change.venueIds
  linkGraph : pending.linkGraph = true ↔ ∃ change ∈ changes, change.linkGraph = true
  groupIds : ∀ id, id ∈ pending.groupIds ↔
    ∃ change ∈ changes, change.linkGraph = true ∧ id ∈ change.others
  due : (∀ change ∈ changes, change.time + FACILITY_FANOUT_DEBOUNCE_MS ≤ pending.timer) ∧
    ∃ change ∈ changes, change.time + FACILITY_FANOUT_DEBOUNCE_MS = pending.timer

/-- Something is pending exactly where changes are waiting. -/
def Holds (pending : Option PendingFacilityFanOut) (changes : List Change) : Prop :=
  pending.elim (changes = []) fun pending => Gathered pending changes

/-- The changes of a tournament. -/
def ofSource (sourceId : String) (changes : List Change) : List Change :=
  changes.filter fun change => change.sourceId = sourceId

/-- What holds in every state. -/
structure Inv (s : FanOutState) : Prop where
  clock : ∀ change ∈ s.waiting, change.time ≤ s.now
  holds : ∀ sourceId, Holds (s.pending sourceId) (ofSource sourceId s.waiting)
  conserved : s.noted.Perm (s.waiting ++ s.flushed.flatMap Flush.changes)
  flushed : ∀ flush ∈ s.flushed, Gathered flush.pending flush.changes ∧
    flush.pending.timer ≤ flush.time ∧ ∀ change ∈ flush.changes, change.sourceId = flush.sourceId
  reading : ∀ flush ∈ s.reading, flush ∈ s.flushed
  published : ∀ event ∈ s.published, ∃ flush ∈ s.flushed, ∃ record now,
    event ∈ emitFacilityScheduleChanged now flush record

variable {s : FanOutState} {permissions : String → Option String}

theorem mem_addItems {items added : List String} {id : String} :
    id ∈ added.foldl addItem items ↔ id ∈ items ∨ id ∈ added := by
  induction added generalizing items with
  | nil => simp
  | cons first rest ih =>
    rw [List.foldl_cons, ih, mem_addItem, List.mem_cons]
    tauto

/-- A change that comes last is gathered with the others. -/
theorem gathered_gather {old : Option PendingFacilityFanOut} {changes : List Change}
    (h : Holds old changes) {change : Change}
    (hlast : ∀ other ∈ changes, other.time ≤ change.time) :
    Gathered (gather old change) (changes ++ [change]) := by
  have hold : (∀ id, id ∈ (old.getD ⟨0, [], false, []⟩).venueIds ↔
        ∃ other ∈ changes, id ∈ other.venueIds) ∧
      ((old.getD ⟨0, [], false, []⟩).linkGraph = true ↔ ∃ other ∈ changes, other.linkGraph = true) ∧
      ∀ id, id ∈ (old.getD ⟨0, [], false, []⟩).groupIds ↔
        ∃ other ∈ changes, other.linkGraph = true ∧ id ∈ other.others := by
    cases old with
    | none =>
      obtain rfl : changes = [] := h
      simp
    | some pending =>
      have hgathered : Gathered pending changes := h
      exact ⟨hgathered.venueIds, hgathered.linkGraph, hgathered.groupIds⟩
  obtain ⟨hvenues, hlink, hgroup⟩ := hold
  refine ⟨fun id => ?_, ?_, fun id => ?_, fun other hin => ?_, change,
    List.mem_append_right _ List.mem_cons_self, rfl⟩
  · simp only [gather, mem_addItems, hvenues, List.mem_append, List.mem_singleton, or_and_right,
      exists_or, exists_eq_left]
  · simp only [gather, Bool.or_eq_true, hlink, List.mem_append, List.mem_singleton, or_and_right,
      exists_or, exists_eq_left]
  · cases hgraph : change.linkGraph <;>
      simp [gather, hgraph, mem_addItems, hgroup, or_and_right, exists_or]
  · have hle : other.time ≤ change.time := by
      obtain hin | hin := List.mem_append.mp hin
      · exact hlast other hin
      · exact Nat.le_of_eq (congrArg Change.time (List.mem_singleton.mp hin))
    exact Nat.add_le_add_right hle _

/-- A change of now is noted. -/
theorem inv_note (h : Inv s) {change : Change} (hnow : change.time = s.now) :
    Inv (note s change) := by
  refine ⟨fun other hin => ?_, fun sourceId => ?_, ?_, h.flushed, h.reading, h.published⟩
  · obtain hin | hin := List.mem_append.mp hin
    · exact h.clock other hin
    · rw [List.mem_singleton.mp hin]
      exact Nat.le_of_eq hnow
  · by_cases hsource : sourceId = change.sourceId
    · subst hsource
      have hlast : ∀ other ∈ ofSource change.sourceId s.waiting, other.time ≤ change.time :=
        fun other hin => hnow ▸ h.clock other (List.mem_of_mem_filter hin)
      have hgathered := gathered_gather (h.holds change.sourceId) hlast
      simpa [note, ofSource, Holds] using hgathered
    · have hother : ofSource sourceId (s.waiting ++ [change]) = ofSource sourceId s.waiting := by
        simp [ofSource, Ne.symm hsource]
      simp only [note, Function.update_of_ne hsource, hother]
      exact h.holds sourceId
  · have hadded := h.conserved.append_right [change]
    refine hadded.trans ?_
    simp only [note, List.append_assoc]
    exact (List.perm_append_comm).append_left _

/-- The changes of a broadcast are noted. -/
theorem inv_notes {changes : List Change} (h : Inv s)
    (hnow : ∀ change ∈ changes, change.time = s.now) : Inv (changes.foldl note s) := by
  induction changes generalizing s with
  | nil => exact h
  | cons change rest ih =>
    exact ih (inv_note h (hnow change List.mem_cons_self)) fun other hin =>
      hnow other (List.mem_cons_of_mem _ hin)

/-- The timer of a tournament goes off. -/
theorem inv_timer (h : Inv s) (sourceId : String) : Inv (step permissions s (.timer sourceId)) := by
  cases hpending : s.pending sourceId with
  | none => simpa only [step, hpending] using h
  | some pending =>
    by_cases hdue : pending.timer ≤ s.now
    · simp only [step, hpending, if_pos hdue]
      have hgathered : Gathered pending (ofSource sourceId s.waiting) := by
        have hholds := h.holds sourceId
        rwa [hpending] at hholds
      refine ⟨fun change hin => h.clock change (List.mem_of_mem_filter hin), fun other => ?_, ?_,
        fun flush hin => ?_, fun flush hin => ?_, fun event hin => ?_⟩
      · by_cases hother : other = sourceId
        · subst hother
          simp [Holds, ofSource]
        · have hsame : ofSource other (s.waiting.filter fun change => change.sourceId ≠ sourceId) =
              ofSource other s.waiting := by
            rw [ofSource, ofSource, List.filter_filter]
            refine List.filter_congr fun change _ => ?_
            by_cases heq : change.sourceId = other <;> simp [heq, hother]
          change Holds (Function.update s.pending sourceId none other) (ofSource other _)
          rw [Function.update_of_ne hother, hsame]
          exact h.holds other
      · have hsplit := List.filter_append_perm (fun change : Change => change.sourceId = sourceId)
          s.waiting
        refine h.conserved.trans ((hsplit.symm.append_right _).trans ?_)
        simp only [List.flatMap_append, List.flatMap_singleton, ne_eq, decide_not]
        rw [← List.append_assoc, List.append_assoc]
        exact List.perm_append_comm
      · obtain hin | hin := List.mem_append.mp hin
        · exact h.flushed flush hin
        · rw [List.mem_singleton.mp hin]
          refine ⟨hgathered, hdue, fun change hchange => ?_⟩
          simpa using (List.mem_filter.mp hchange).2
      · obtain hin | hin := List.mem_append.mp hin
        · exact List.mem_append_left _ (h.reading flush hin)
        · exact List.mem_append_right _ hin
      · obtain ⟨flush, hflush, hevent⟩ := h.published event hin
        exact ⟨flush, List.mem_append_left _ hflush, hevent⟩
    · simpa only [step, hpending, if_neg hdue] using h

/-- Every step keeps what holds. -/
theorem inv_step (h : Inv s) (action : FanOutAction) : Inv (step permissions s action) := by
  cases action with
  | tick => exact ⟨fun change hin => Nat.le_succ_of_le (h.clock change hin), h.holds, h.conserved,
      h.flushed, h.reading, h.published⟩
  | broadcast payload =>
    refine inv_notes h fun change hin => ?_
    unfold changesOf at hin
    dsimp only at hin
    split_ifs at hin
    · obtain ⟨sourceId, -, rfl⟩ := List.mem_map.mp hin
      rfl
    · cases hin
  | timer sourceId => exact inv_timer h sourceId
  | answer position record =>
    cases hread : s.reading[position]? with
    | none => simpa only [step, hread] using h
    | some flush =>
      simp only [step, hread]
      refine ⟨h.clock, h.holds, h.conserved, h.flushed, fun other hin =>
        h.reading other (List.mem_of_mem_eraseIdx hin), fun event hin => ?_⟩
      obtain hin | hin := List.mem_append.mp hin
      · exact h.published event hin
      · exact ⟨flush, h.reading flush (List.mem_of_getElem? hread), record, s.now, hin⟩
  | fail position => exact ⟨h.clock, h.holds, h.conserved, h.flushed, fun flush hin =>
      h.reading flush (List.mem_of_mem_eraseIdx hin), h.published⟩

end FactoryServer.FacilityFanOut
