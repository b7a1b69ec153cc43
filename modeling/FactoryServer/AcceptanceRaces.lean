import FactoryServer.AcceptancePlans
import FactoryServer.AcceptedEntries

/-!
# Acceptances at the same time

An acceptance reads the record, plans, and commits its plan on whatever the record is by
then. No person gets a second participant, no members a second pair and nobody a second
entry as long as every plan is committed on a record that does not hold what it adds; that
is so when nothing was committed since the record was read.
-/

namespace FactoryServer.AcceptanceRaces

open InsertionMaps FreshKeys GuardedRuns RegistrationAcceptance AcceptancePlans
open AcceptedEntries (entriesFor participantsOf appending sampleReads sampleRegistration)

/-! ## Calls -/

/-- An acceptance that has planned: the record it has read, and its plan. -/
structure PlannedCall where
  /-- The record, as it was read. -/
  record : TournamentRecord
  /-- The plan. -/
  plan : AcceptancePlan

/-- The record of the tournament and the acceptances. -/
structure RaceState (ι : Type) where
  /-- The record. -/
  record : TournamentRecord
  /-- The acceptances that have planned and not committed. -/
  calls : ι → Option PlannedCall := fun _ => none
  /-- Those that have come to their end. -/
  accepted : List PlannedCall := []

/-- What an acceptance does. -/
inductive RaceAction (ι : Type) where
  /-- It reads the record and plans. -/
  | plan (call : ι) (request : AcceptRequest)
  /-- It commits its plan, if there is something to commit. -/
  | commit (call : ι)

/-- The request, with the record as it is read. -/
def readRecord (request : AcceptRequest) (record : TournamentRecord) : AcceptRequest :=
  { request with tournamentRecord := record }

variable {ι : Type} [DecidableEq ι]

/-- One step. -/
def step (executionQueue : TournamentRecord → List QueueMethod →
    Except String TournamentRecord) (s : RaceState ι) : RaceAction ι → RaceState ι
  | .plan call request =>
    match s.calls call with
    | some _ => s
    | none =>
      match planBatch (readRecord request s.record).context
        (readRecord request s.record).targets with
      | .ok batch =>
        { s with calls := Function.update s.calls call (some ⟨s.record, batch.plan⟩) }
      | .error _ => s
  | .commit call =>
    match s.calls call with
    | none => s
    | some planned =>
      if hasChanges planned.plan then
        match executionQueue s.record (planMethods planned.plan) with
        | .ok after =>
          { record := after
            calls := Function.update s.calls call none
            accepted := s.accepted ++ [planned] }
        | .error _ => { s with calls := Function.update s.calls call none }
      else
        { s with
          calls := Function.update s.calls call none
          accepted := s.accepted ++ [planned] }

/-! ## What is to be shown -/

/-- A participant without its foreign ids. -/
def withoutOtherIds (p : Participant) : Participant := { p with participantOtherIds := [] }

/-- What the engine does with the methods of a plan: it adds the participants, changes foreign ids,
and adds entries of those it is given, none of them twice. -/
structure Applies (executionQueue : TournamentRecord → List QueueMethod →
    Except String TournamentRecord) : Prop where
  /-- `addParticipants` and `addParticipantOtherId`. -/
  participants : ∀ record methods after, executionQueue record methods = .ok after →
    after.participants.map withoutOtherIds =
      (record.participants ++ participantsOf methods).map withoutOtherIds
  /-- `addEventEntries`. -/
  entries : ∀ record methods after, executionQueue record methods = .ok after →
    List.Forall₂ (fun before event => event.eventId = before.eventId ∧
      ∃ added, added.Sublist (entriesFor before.eventId methods) ∧
        event.entries = before.entries ++ added) record.events after.events

/-- Nobody is entered more often than once, or than before. -/
def EntersOnce (before after : List Event) : Prop :=
  List.Forall₂ (fun event later => later.eventId = event.eventId ∧ ∀ participantId,
    later.entries.count participantId ≤ max 1 (event.entries.count participantId)) before after

/-- What the acceptances have made of the record they found. -/
structure AcceptedOnce (start : TournamentRecord) (s : RaceState ι) : Prop where
  /-- No canonical person has a second individual participant, unless it had one before. -/
  individuals : ∀ personId, occurrences personId (individualsOf s.record.participants) ≤
    max 1 (occurrences personId (individualsOf start.participants))
  /-- No members have a second pair, unless they had one before. -/
  pairs : ∀ key, occurrences key (pairsOf s.record.participants) ≤
    max 1 (occurrences key (pairsOf start.participants))
  /-- The acceptances have created or used one and the same participant for a person. -/
  sameIndividual : ∀ planned ∈ s.accepted, ∀ personId participantId, personId ≠ "" →
    planned.plan.individualByPerson personId = some participantId →
      lastOf personId (individualsOf s.record.participants) = some participantId
  /-- They have created or used one and the same pair for the members. -/
  samePair : ∀ planned ∈ s.accepted, ∀ key pairId, planned.plan.pairByMembers key = some pairId →
    lastOf key (pairsOf s.record.participants) = some pairId
  /-- The pairs of invites are among these. -/
  invites : ∀ planned ∈ s.accepted, ∀ inviteId pairId,
    planned.plan.pairByInvite inviteId = some pairId →
      ∃ key, planned.plan.pairByMembers key = some pairId
  /-- Nobody has a second entry in an event, unless there was one before. -/
  entries : EntersOnce start.events s.record.events
  /-- No acceptance has planned what the record it has read holds. -/
  plans : ∀ planned, planned ∈ s.accepted ∨ (∃ call, s.calls call = some planned) →
    FreshPlan planned.record planned.plan

/-- The ids that an acceptance gives to participants are no empty texts. -/
def GivesIds (request : AcceptRequest) : Prop :=
  (∀ n, request.reads.mint n ≠ "") ∧
    ∀ reg, reg ∈ request.targets ∨ reg ∈ request.all → reg.participantId ≠ some ""

/-- The condition of a step: a plan is committed on a record that does not hold what it adds. -/
def Kept (s : RaceState ι) : RaceAction ι → Prop
  | .plan _ request => GivesIds request
  | .commit call => ∀ planned, s.calls call = some planned → hasChanges planned.plan →
      FreshPlan s.record planned.plan

/-! ## One commit -/

theorem individualsOf_withoutOtherIds (participants : List Participant) :
    individualsOf (participants.map withoutOtherIds) = individualsOf participants :=
  List.filterMap_map

theorem pairsOf_withoutOtherIds (participants : List Participant) :
    pairsOf (participants.map withoutOtherIds) = pairsOf participants :=
  List.filterMap_map

theorem participantsOf_planMethods (plan : AcceptancePlan) :
    participantsOf (planMethods plan) = plan.newParticipants := by
  unfold participantsOf planMethods
  rw [List.flatMap_append, List.flatMap_append, List.flatMap_map, List.flatMap_map]
  have hnone : ∀ {E : Type} (items : List E), items.flatMap (fun _ => ([] : List Participant)) =
      [] := fun items => List.flatMap_eq_nil_iff.mpr fun _ _ => rfl
  rw [hnone, hnone, List.append_nil, List.append_nil]
  split_ifs with hempty
  · exact hempty.symm
  · exact List.append_nil _

theorem entriesFor_planMethods (eventId : Option String) (plan : AcceptancePlan) :
    entriesFor eventId (planMethods plan) =
      plan.entryMap.flatMap fun entry => if eventId = some entry.1 then entry.2 else [] := by
  unfold entriesFor planMethods
  rw [List.flatMap_append, List.flatMap_append, List.flatMap_map, List.flatMap_map]
  have hnone : plan.participantOtherIdStamps.flatMap (fun _ => ([] : List String)) = [] :=
    List.flatMap_eq_nil_iff.mpr fun _ _ => rfl
  rw [hnone, List.append_nil]
  split_ifs <;> rfl

/-- The entries that a plan adds to an event are distinct, and are planned for that event. -/
theorem entriesFor_sound {record : TournamentRecord} {plan : AcceptancePlan}
    (h : Sound record plan) (eventId : Option String) :
    (entriesFor eventId (planMethods plan)).Nodup ∧
      ∀ participantId ∈ entriesFor eventId (planMethods plan),
        ∃ event ids, eventId = some event ∧ (event, ids) ∈ plan.entryMap ∧ participantId ∈ ids := by
  rw [entriesFor_planMethods]
  constructor
  · rw [List.nodup_flatMap]
    refine ⟨fun entry hentry => ?_, ?_⟩
    · split_ifs
      · exact (h.entries entry.1 entry.2 hentry).2.1
      · exact List.nodup_nil
    · refine (List.pairwise_map.mp h.events).imp fun hne => ?_
      intro participantId hin hother
      dsimp only at hin hother
      split_ifs at hin hother with hfirst hsecond
      · exact hne (Option.some.inj (hfirst.symm.trans hsecond))
      all_goals first | exact absurd hin List.not_mem_nil | exact absurd hother List.not_mem_nil
  · intro participantId hin
    obtain ⟨entry, hentry, hids⟩ := List.mem_flatMap.mp hin
    split_ifs at hids with hevent
    · exact ⟨entry.1, entry.2, hevent, hentry, hids⟩
    · exact absurd hids List.not_mem_nil

/-- What is found in one list of participants is found in another one. -/
structure Recalls (read now : List Participant) : Prop where
  /-- Persons. -/
  individuals : ∀ personId participantId, lastOf personId (individualsOf read) =
    some participantId → lastOf personId (individualsOf now) = some participantId
  /-- Members. -/
  pairs : ∀ key pairId, lastOf key (pairsOf read) = some pairId →
    lastOf key (pairsOf now) = some pairId

/-- What a plan has created or used is what is found. -/
structure Agrees (now : List Participant) (plan : AcceptancePlan) : Prop where
  /-- Persons. -/
  individuals : ∀ personId participantId, personId ≠ "" →
    plan.individualByPerson personId = some participantId →
      lastOf personId (individualsOf now) = some participantId
  /-- Members. -/
  pairs : ∀ key pairId, plan.pairByMembers key = some pairId →
    lastOf key (pairsOf now) = some pairId

theorem Recalls.refl (participants : List Participant) : Recalls participants participants :=
  ⟨fun _ _ h => h, fun _ _ h => h⟩

theorem Recalls.trans {read now later : List Participant} (h : Recalls read now)
    (h' : Recalls now later) : Recalls read later :=
  ⟨fun _ _ hin => h'.individuals _ _ (h.individuals _ _ hin),
    fun _ _ hin => h'.pairs _ _ (h.pairs _ _ hin)⟩

theorem Agrees.mono {now later : List Participant} {plan : AcceptancePlan} (h : Agrees now plan)
    (h' : Recalls now later) : Agrees later plan :=
  ⟨fun _ _ hne hin => h'.individuals _ _ (h.individuals _ _ hne hin),
    fun _ _ hin => h'.pairs _ _ (h.pairs _ _ hin)⟩

/-- A plan agrees with every list that has what the plan was made from, and what it adds. -/
theorem Sound.agrees {record : TournamentRecord} {plan : AcceptancePlan} (h : Sound record plan)
    {now after : List Participant} (hrecalls : Recalls record.participants now)
    (hindividuals : individualsOf after = individualsOf now ++ individualsOf plan.newParticipants)
    (hpairs : pairsOf after = pairsOf now ++ pairsOf plan.newParticipants) :
    Agrees after plan := by
  constructor
  · intro personId participantId hne hfound
    rw [h.individuals personId hne, individualsOf_append] at hfound
    rw [hindividuals]
    exact lastOf_transfer (hrecalls.individuals _ _) hfound
  · intro key pairId hfound
    rw [h.pairs key, pairsOf_append] at hfound
    rw [hpairs]
    exact lastOf_transfer (hrecalls.pairs _ _) hfound

/-- What the engine has added to the participants. -/
theorem Applies.added {executionQueue : TournamentRecord → List QueueMethod →
      Except String TournamentRecord} (hqueue : Applies executionQueue)
    {record after : TournamentRecord} {plan : AcceptancePlan}
    (hcommit : executionQueue record (planMethods plan) = .ok after) :
    individualsOf after.participants =
        individualsOf record.participants ++ individualsOf plan.newParticipants ∧
      pairsOf after.participants =
        pairsOf record.participants ++ pairsOf plan.newParticipants := by
  have hsame := hqueue.participants _ _ _ hcommit
  rw [participantsOf_planMethods] at hsame
  constructor
  · rw [← individualsOf_append, ← individualsOf_withoutOtherIds, hsame,
      individualsOf_withoutOtherIds]
  · rw [← pairsOf_append, ← pairsOf_withoutOtherIds, hsame, pairsOf_withoutOtherIds]

/-- Entries are added once. -/
theorem Applies.entersOnce {executionQueue : TournamentRecord → List QueueMethod →
      Except String TournamentRecord} (hqueue : Applies executionQueue)
    {record read after : TournamentRecord} {plan : AcceptancePlan} (hsound : Sound read plan)
    (hfresh : FreshPlan record plan)
    (hcommit : executionQueue record (planMethods plan) = .ok after) :
    EntersOnce record.events after.events := by
  have hentries := hqueue.entries _ _ _ hcommit
  have hall : ∀ event ∈ record.events, ∀ participantId ∈
      entriesFor event.eventId (planMethods plan), participantId ∉ event.entries := by
    intro event hevent participantId hin hentered
    obtain ⟨eventId, ids, hid, hids, hmem⟩ :=
      (entriesFor_sound hsound event.eventId).2 participantId hin
    exact hfresh.entries eventId ids hids participantId hmem ⟨event, hevent, hid, hentered⟩
  unfold EntersOnce
  rw [List.forall₂_iff_get] at hentries ⊢
  refine ⟨hentries.1, fun i hi hi' => ?_⟩
  obtain ⟨hid, added, hsub, hadded⟩ := hentries.2 i hi hi'
  refine ⟨hid, fun participantId => ?_⟩
  rw [hadded]
  refine count_append_le (hsub.nodup (entriesFor_sound hsound _).1) (fun other hother => ?_)
    participantId
  exact hall _ (List.get_mem _ _) other (hsub.subset hother)

theorem EntersOnce.refl (events : List Event) : EntersOnce events events :=
  List.forall₂_same.mpr fun _ _ => ⟨rfl, fun _ => le_max_right _ _⟩

/-- At most once, and then at most once again. -/
theorem le_max_trans {a b c : ℕ} (h : b ≤ max 1 a) (h' : c ≤ max 1 b) : c ≤ max 1 a := by
  omega

theorem EntersOnce.trans {events more later : List Event} (h : EntersOnce events more)
    (h' : EntersOnce more later) : EntersOnce events later := by
  unfold EntersOnce at h h' ⊢
  rw [List.forall₂_iff_get] at h h' ⊢
  refine ⟨h.1.trans h'.1, fun i hi hi' => ?_⟩
  obtain ⟨hid, hcount⟩ := h.2 i hi (h.1 ▸ hi)
  obtain ⟨hid', hcount'⟩ := h'.2 i (h.1 ▸ hi) hi'
  exact ⟨hid'.trans hid, fun participantId =>
    le_max_trans (hcount participantId) (hcount' participantId)⟩

/-! ## Runs -/

/-- What every run keeps. -/
structure RaceInv (start : TournamentRecord) (s : RaceState ι) : Prop where
  /-- Participants have ids. -/
  named : Named s.record.participants
  /-- See `AcceptedOnce`. -/
  individuals : ∀ personId, occurrences personId (individualsOf s.record.participants) ≤
    max 1 (occurrences personId (individualsOf start.participants))
  /-- See `AcceptedOnce`. -/
  pairs : ∀ key, occurrences key (pairsOf s.record.participants) ≤
    max 1 (occurrences key (pairsOf start.participants))
  /-- See `AcceptedOnce`. -/
  entries : EntersOnce start.events s.record.events
  /-- What a plan was made from is still found. -/
  calls : ∀ call planned, s.calls call = some planned → Sound planned.record planned.plan ∧
    Recalls planned.record.participants s.record.participants
  /-- What a plan has created or used is found. -/
  accepted : ∀ planned ∈ s.accepted, Sound planned.record planned.plan ∧
    Agrees s.record.participants planned.plan

theorem readRecord_partners {request : AcceptRequest} {record : TournamentRecord}
    (h : GivesIds request) (key : String) :
    Reserves ((readRecord request record).context.byPersonAndInvite key) := by
  intro reg hreg
  have hin := mem_of_lastOf hreg
  obtain ⟨other, hother, heq⟩ := List.mem_map.mp hin
  obtain ⟨-, rfl⟩ := Prod.mk.inj heq
  have hmem := List.mem_of_mem_filter hother
  refine h.2 _ ?_
  split_ifs at hmem
  · exact Or.inr hmem
  · exact Or.inl hmem

/-- What one step preserves. -/
theorem raceInv_step {executionQueue : TournamentRecord → List QueueMethod →
      Except String TournamentRecord} (hqueue : Applies executionQueue) {start : TournamentRecord}
    (s : RaceState ι) (a : RaceAction ι) (hkept : Kept s a) (h : RaceInv start s) :
    RaceInv start (step executionQueue s a) := by
  cases a with
  | plan call request =>
    simp only [step]
    cases hcall : s.calls call with
    | some _ => exact h
    | none =>
      dsimp only
      cases hbatch : planBatch (readRecord request s.record).context
        (readRecord request s.record).targets with
      | error _ => exact h
      | ok batch =>
        refine ⟨h.named, h.individuals, h.pairs, h.entries, fun other planned hother => ?_,
          h.accepted⟩
        dsimp only at hother
        by_cases hsame : other = call
        · rw [hsame, Function.update_self] at hother
          rw [← Option.some.inj hother]
          refine ⟨sound_planBatch hkept.1 (readRecord_partners hkept) h.named
            (fun reg hreg => hkept.2 reg (Or.inl hreg)) hbatch, Recalls.refl _⟩
        · rw [Function.update_of_ne hsame] at hother
          exact h.calls other planned hother
  | commit call =>
    simp only [step]
    cases hcall : s.calls call with
    | none => exact h
    | some planned =>
      dsimp only
      obtain ⟨hsound, hrecalls⟩ := h.calls call planned hcall
      have hothers : ∀ other planned', Function.update s.calls call none other = some planned' →
          s.calls other = some planned' := by
        intro other planned' hother
        by_cases hsame : other = call
        · rw [hsame, Function.update_self] at hother
          cases hother
        · rwa [Function.update_of_ne hsame] at hother
      by_cases hchanges : hasChanges planned.plan
      · rw [if_pos hchanges]
        have hfresh := hkept planned hcall hchanges
        cases hcommit : executionQueue s.record (planMethods planned.plan) with
        | error _ =>
          exact ⟨h.named, h.individuals, h.pairs, h.entries,
            fun other planned' hother => h.calls other planned' (hothers other planned' hother),
            h.accepted⟩
        | ok after =>
          obtain ⟨hindividuals, hpairs⟩ := hqueue.added hcommit
          have hlater : Recalls s.record.participants after.participants :=
            ⟨fun _ _ hin => hindividuals ▸ hfresh.individuals.lastOf_kept hin,
              fun _ _ hin => hpairs ▸ hfresh.pairs.lastOf_kept hin⟩
          refine ⟨?_, fun personId => ?_, fun key => ?_,
            h.entries.trans (hqueue.entersOnce hsound hfresh hcommit),
            fun other planned' hother => ?_, fun planned' hplanned => ?_⟩
          · constructor
            · intro entry hentry
              rw [hindividuals] at hentry
              rcases List.mem_append.mp hentry with hold | hnew
              · exact h.named.1 entry hold
              · refine hsound.named.1 entry ?_
                rw [individualsOf_append]
                exact List.mem_append_right _ hnew
            · intro entry hentry
              rw [hpairs] at hentry
              rcases List.mem_append.mp hentry with hold | hnew
              · exact h.named.2 entry hold
              · refine hsound.named.2 entry ?_
                rw [pairsOf_append]
                exact List.mem_append_right _ hnew
          · rw [hindividuals]
            exact le_max_trans (h.individuals personId)
              (hfresh.individuals.occurrences_le personId)
          · rw [hpairs]
            exact le_max_trans (h.pairs key) (hfresh.pairs.occurrences_le key)
          · obtain ⟨hother, hread⟩ := h.calls other planned' (hothers other planned' hother)
            exact ⟨hother, hread.trans hlater⟩
          · rcases List.mem_append.mp hplanned with hold | hnew
            · exact ⟨(h.accepted planned' hold).1, (h.accepted planned' hold).2.mono hlater⟩
            · rw [List.mem_singleton.mp hnew]
              exact ⟨hsound, Sound.agrees hsound hrecalls hindividuals hpairs⟩
      · rw [if_neg hchanges]
        have hempty : planned.plan.newParticipants = [] :=
          not_not.mp fun hne => hchanges (Or.inl hne)
        refine ⟨h.named, h.individuals, h.pairs, h.entries,
          fun other planned' hother => h.calls other planned' (hothers other planned' hother),
          fun planned' hplanned => ?_⟩
        rcases List.mem_append.mp hplanned with hold | hnew
        · exact h.accepted planned' hold
        · rw [List.mem_singleton.mp hnew]
          refine ⟨hsound, Sound.agrees hsound hrecalls ?_ ?_⟩
          · rw [hempty]
            exact (List.append_nil _).symm
          · rw [hempty]
            exact (List.append_nil _).symm

/-- In every run whose plans are committed on records that do not hold what they add, everybody is
accepted once. -/
theorem accepted_once {executionQueue : TournamentRecord → List QueueMethod →
      Except String TournamentRecord} (hqueue : Applies executionQueue) {record : TournamentRecord}
    (hnamed : Named record.participants) (actions : List (RaceAction ι))
    (hmeets : RunMeets (step executionQueue) Kept { record } actions) :
    AcceptedOnce record (run (step executionQueue) { record } actions) := by
  have hstart : RaceInv record ({ record } : RaceState ι) :=
    ⟨hnamed, fun _ => le_max_right _ _, fun _ => le_max_right _ _, EntersOnce.refl _,
      fun _ _ h => (nomatch h), fun _ h => absurd h List.not_mem_nil⟩
  have hall : RaceInv record (run (step executionQueue) { record } actions) :=
    run_keeps (raceInv_step hqueue) hmeets hstart
  exact ⟨hall.individuals, hall.pairs, fun planned hin => (hall.accepted planned hin).2.individuals,
    fun planned hin => (hall.accepted planned hin).2.pairs,
    fun planned hin => (hall.accepted planned hin).1.invites, hall.entries,
    fun planned hin => hin.elim (fun hin => (hall.accepted planned hin).1.fresh)
      fun ⟨call, hcall⟩ => (hall.calls call planned hcall).1.fresh⟩

/-! ## Two acceptances of one registration -/

theorem appending_applies : Applies appending where
  participants := by
    intro record methods after h
    unfold appending at h
    split_ifs at h
    cases h
    rfl
  entries := by
    intro record methods after h
    unfold appending at h
    split_ifs at h
    cases h
    rw [List.forall₂_map_right_iff]
    exact List.forall₂_same.mpr fun event _ => ⟨rfl, _, List.Sublist.refl _, rfl⟩

/-- A tournament with one event. -/
def singlesRecord : TournamentRecord := ⟨[], [⟨some "singles", none, []⟩]⟩

/-- An acceptance of the only registration; the letter stands for the ids that it mints. -/
def soloRequest (letter : Char) : AcceptRequest where
  tournamentId := "t"
  tournamentRecord := singlesRecord
  stampsExisting := false
  reads := { sampleReads with mint := fun n => String.ofList (List.replicate (n + 1) letter) }
  fetched := none
  pending := [{ sampleRegistration "a" "anna" ["singles"] with partnerInviteId := none }]
  all := []

theorem soloRequest_givesIds (letter : Char) : GivesIds (soloRequest letter) := by
  refine ⟨fun n hempty => ?_, fun reg hreg => ?_⟩
  · exact absurd (congrArg String.toList hempty) (by simp [soloRequest])
  · rcases hreg with hreg | hreg
    · rw [List.mem_singleton.mp hreg]
      exact fun h => (nomatch h)
    · exact absurd hreg List.not_mem_nil

/-- One acceptance after the other. -/
def inTurn : List (RaceAction Bool) :=
  [.plan false (soloRequest 'u'), .commit false, .plan true (soloRequest 'v'), .commit true]

/-- Both read the record before either commits. -/
def atOnce : List (RaceAction Bool) :=
  [.plan false (soloRequest 'u'), .plan true (soloRequest 'v'), .commit false, .commit true]

/-- One after the other, the person is accepted once. -/
theorem accepted_once_inTurn :
    AcceptedOnce singlesRecord (run (step appending) { record := singlesRecord } inTurn) := by
  refine accepted_once appending_applies ?_ inTurn
    ⟨soloRequest_givesIds 'u', ?_, soloRequest_givesIds 'v', ?_, trivial⟩
  · exact ⟨fun _ h => absurd h List.not_mem_nil, fun _ h => absurd h List.not_mem_nil⟩
  · intro planned hplanned _
    obtain rfl := Option.some.inj hplanned
    refine ⟨⟨List.nodup_singleton _, fun _ _ => List.not_mem_nil⟩, fresh_nil _, ?_⟩
    rintro eventId ids - participantId - ⟨event, hevent, -, hentered⟩
    rw [List.mem_singleton.mp hevent] at hentered
    exact absurd hentered List.not_mem_nil
  · intro planned hplanned hchanges
    obtain rfl := Option.some.inj hplanned
    rcases hchanges with hnew | hentry
    · exact absurd rfl hnew
    · exact absurd rfl hentry

/-- At once, the person gets two participants and two entries. -/
theorem accepted_twice_atOnce : Applies appending ∧
    ¬ AcceptedOnce singlesRecord (run (step appending) { record := singlesRecord } atOnce) := by
  refine ⟨appending_applies, fun h => ?_⟩
  have htwo : 2 ≤ 1 := h.individuals "anna"
  exact absurd htwo (by decide)

end FactoryServer.AcceptanceRaces
