import FactoryServer.AcceptedEntries

/-!
# What an acceptance stamps

A registration is stamped in its own turn, after its status and tournament have been
checked, or with the registration whose pair it completes, unchecked. The mutation is
skipped when the plan holds neither a participant nor an entry, foreign ids or not.
-/

namespace FactoryServer.AcceptedStamps

open InsertionMaps GuardedRuns RegistrationAcceptance
open AcceptedEntries (appending sampleRegistration sampleRequest)

/-! ## What is to be shown -/

/-- A registration of this tournament that may be accepted. -/
def Acceptable (tournamentId : String) (reg : RegistrationSnapshot) : Prop :=
  reg.status ∈ ACCEPTABLE_ACCEPT_STATUSES ∧ reg.tournamentId = some tournamentId

/-- Whatever is transitioned was read as acceptable, and all that was planned is committed. -/
def StampsAcceptable (request : AcceptRequest) (acceptance : Acceptance) : Prop :=
  (∀ id ∈ acceptance.transitioned,
    (∃ reg ∈ acceptance.plan.stamped, reg.declarationId = id) ∧
      ∀ reg ∈ acceptance.plan.stamped, reg.declarationId = id →
        Acceptable request.tournamentId reg) ∧
    (acceptance.transitioned ≠ [] →
      ∀ method ∈ planMethods acceptance.plan, method ∈ acceptance.committed)

/-- The partner's registration that comes with a registration. -/
def foldedPartner (ctx : BulkAcceptContext) (moment : ℕ) (reg : RegistrationSnapshot)
    (plan : AcceptancePlan) : Option RegistrationSnapshot :=
  match invitedPair ctx moment reg with
  | .ok (some pair) =>
    (truthy (ensureIndividual ctx moment pair.partnerPersonId pair.partnerReg plan).1).bind
      fun _ => pair.partnerReg
  | _ => none

/-- The registration's own participant is found or planned in this turn. -/
def Identified (ctx : BulkAcceptContext) (batch : Batch) (reg : RegistrationSnapshot) : Prop :=
  reg.declarationId ∉ batch.plan.handled ∧ refusal ctx reg = none ∧
    (truthy (ensureIndividual ctx batch.results.length reg.personId (some reg)
      batch.plan).1).isSome

/-- A registration that is planned names this tournament, and the partner that comes with it is
acceptable. -/
def Stampable (ctx : BulkAcceptContext) (batch : Except String Batch)
    (reg : RegistrationSnapshot) : Prop :=
  ∀ b, batch = .ok b → Identified ctx b reg →
    reg.tournamentId = some ctx.tournamentId ∧
      ∀ partner, foldedPartner ctx b.results.length reg
        (ensureIndividual ctx b.results.length reg.personId (some reg) b.plan).2 = some partner →
          Acceptable ctx.tournamentId partner

/-- The engine refuses the plan of the batch. -/
def Refused (executionQueue : TournamentRecord → List QueueMethod →
    Except String TournamentRecord) (request : AcceptRequest) : Prop :=
  ∃ batch reason, planBatch request.context request.targets = .ok batch ∧
    hasChanges batch.plan ∧
    executionQueue request.tournamentRecord (planMethods batch.plan) = .error reason

/-- No plan consists of foreign ids alone. -/
def Commanded (request : AcceptRequest) : Prop :=
  ∀ batch, planBatch request.context request.targets = .ok batch →
    hasChanges batch.plan ∨ batch.plan.participantOtherIdStamps = []

/-! ## What one turn stamps -/

section Turn

variable {ctx : BulkAcceptContext} {plan later : AcceptancePlan}

/-- What is stamped is what was read of it. -/
def Recorded (plan : AcceptancePlan) : Prop :=
  ∀ id, id ∈ plan.stampRegistrations ↔ ∃ reg ∈ plan.stamped, reg.declarationId = id

/-- The parts of a plan that are about stamps. -/
def stamps (plan : AcceptancePlan) : List String × List RegistrationSnapshot :=
  (plan.stampRegistrations, plan.stamped)

theorem Recorded.congr (h : Recorded plan) (hsame : stamps later = stamps plan) :
    Recorded later := by
  obtain ⟨hids, hregs⟩ := Prod.mk.inj hsame
  intro id
  rw [hids, hregs]
  exact h id

/-- One more registration is stamped, and its id is noted. -/
theorem Recorded.add (h : Recorded plan) {reg : RegistrationSnapshot}
    (hids : later.stampRegistrations = addItem plan.stampRegistrations reg.declarationId)
    (hregs : later.stamped = plan.stamped ++ [reg]) : Recorded later := by
  intro id
  rw [hids, hregs, mem_addItem, h id]
  constructor
  · rintro (⟨other, hother, hid⟩ | rfl)
    · exact ⟨other, List.mem_append_left _ hother, hid⟩
    · exact ⟨reg, List.mem_append_right _ List.mem_cons_self, rfl⟩
  · rintro ⟨other, hother, hid⟩
    rcases List.mem_append.mp hother with hold | hnew
    · exact Or.inl ⟨other, hold, hid⟩
    · rw [List.mem_singleton.mp hnew] at hid
      exact Or.inr hid.symm

theorem ensureIndividual_stamps (moment : ℕ) (personId : String)
    (registration : Option RegistrationSnapshot) (plan : AcceptancePlan) :
    stamps (ensureIndividual ctx moment personId registration plan).2 = stamps plan := by
  unfold ensureIndividual
  cases truthy (plan.individualByPerson personId) with
  | some cached =>
    unfold queueForeignIdStamps
    dsimp only
    split_ifs <;> rfl
  | none =>
    dsimp only
    split_ifs <;> rfl

/-- Foreign ids are queued for a participant that is identified. -/
theorem ensureIndividual_otherIds {moment : ℕ} {personId : String}
    {registration : Option RegistrationSnapshot}
    (hid : truthy (ensureIndividual ctx moment personId registration plan).1 = none) :
    (ensureIndividual ctx moment personId registration plan).2.participantOtherIdStamps =
      plan.participantOtherIdStamps := by
  unfold ensureIndividual at hid ⊢
  cases hcached : truthy (plan.individualByPerson personId) with
  | some cached =>
    rw [hcached] at hid
    obtain ⟨hfound, hne⟩ := truthy_eq_some.mp hcached
    exact absurd (hid.symm.trans (truthy_eq_some.mpr ⟨rfl, hne⟩)) (by simp)
  | none =>
    dsimp only
    split_ifs <;> rfl

theorem ensurePair_stamps (reads : Reads) (plan : AcceptancePlan) (inviteId a b : String) :
    stamps (ensurePair reads plan inviteId a b).2 = stamps plan := by
  unfold ensurePair
  cases truthy (plan.pairByInvite inviteId) with
  | some byInvite => rfl
  | none =>
    dsimp only
    split_ifs <;> rfl

theorem addEntry_stamps (plan : AcceptancePlan) (eventId participantId : String) :
    stamps (addEntry plan eventId participantId) = stamps plan := by
  unfold addEntry
  split_ifs <;> rfl

theorem addEntries_stamps (eventIds : List String) (participantId : String)
    (plan : AcceptancePlan) :
    stamps (eventIds.foldl (fun plan eventId => addEntry plan eventId participantId) plan) =
      stamps plan := by
  induction eventIds generalizing plan with
  | nil => rfl
  | cons eventId rest ih => exact (ih _).trans (addEntry_stamps plan eventId participantId)

/-- A pair stamps the partner's registration, if there is one. -/
theorem enterPair_stamps (h : Recorded plan) (pair : InvitedPair)
    (participantId partnerParticipantId : String) :
    Recorded (enterPair ctx pair participantId partnerParticipantId plan) ∧
      (enterPair ctx pair participantId partnerParticipantId plan).stamped =
        plan.stamped ++ pair.partnerReg.toList := by
  have hensured := ensurePair_stamps ctx.reads plan pair.inviteId participantId
    partnerParticipantId
  unfold enterPair
  dsimp only
  generalize ensurePair ctx.reads plan pair.inviteId participantId partnerParticipantId = ensured
    at hensured ⊢
  have hentered : ∀ entered : AcceptancePlan, stamps entered = stamps plan →
      Recorded (foldIn entered pair.partnerReg) ∧
        (foldIn entered pair.partnerReg).stamped = plan.stamped ++ pair.partnerReg.toList := by
    intro entered hsame
    have hstamped : entered.stamped = plan.stamped := (Prod.mk.inj hsame).2
    cases hpartner : pair.partnerReg with
    | none => exact ⟨h.congr hsame, hstamped.trans (List.append_nil _).symm⟩
    | some partner =>
      exact ⟨(h.congr hsame).add rfl rfl, congrArg (· ++ [partner]) hstamped⟩
  cases pair.pairEventId with
  | none => exact hentered _ hensured
  | some eventId => exact hentered _ ((addEntry_stamps _ _ _).trans hensured)

/-- The pair of a registration stamps the partner that comes with it. -/
theorem planPair_stamps (h : Recorded plan) {moment : ℕ} {reg : RegistrationSnapshot}
    {participantId : String} {pairEventId : Option String}
    (hplan : planPair ctx moment reg participantId plan = .ok (pairEventId, later)) :
    Recorded later ∧
      later.stamped = plan.stamped ++ (foldedPartner ctx moment reg plan).toList := by
  unfold planPair at hplan
  unfold foldedPartner
  cases hinvited : invitedPair ctx moment reg with
  | error failure =>
    rw [hinvited] at hplan
    cases hplan
  | ok found =>
    rw [hinvited] at hplan
    cases found with
    | none =>
      cases hplan
      exact ⟨h, (List.append_nil _).symm⟩
    | some pair =>
      dsimp only at hplan ⊢
      have hsame :=
        @ensureIndividual_stamps ctx moment pair.partnerPersonId pair.partnerReg plan
      generalize ensureIndividual ctx moment pair.partnerPersonId pair.partnerReg plan = ensured
        at hplan hsame ⊢
      have hstamped : ensured.2.stamped = plan.stamped := (Prod.mk.inj hsame).2
      cases hpartner : truthy ensured.1 with
      | none =>
        rw [hpartner] at hplan
        cases hplan
        exact ⟨h.congr hsame, hstamped.trans (List.append_nil _).symm⟩
      | some partnerId =>
        rw [hpartner] at hplan
        cases hplan
        obtain ⟨hrecorded, hadded⟩ :=
          @enterPair_stamps ctx _ (h.congr hsame) pair participantId partnerId
        exact ⟨hrecorded, hadded.trans (congrArg (· ++ pair.partnerReg.toList) hstamped)⟩

/-- A registration that is not refused has an acceptable status. -/
theorem refusal_none {reg : RegistrationSnapshot} (h : refusal ctx reg = none) :
    reg.status ∈ ACCEPTABLE_ACCEPT_STATUSES := by
  have hstatus : refusal.unacceptable reg = none := by
    unfold refusal at h
    cases htournament : truthy reg.tournamentId with
    | none =>
      rw [htournament] at h
      exact h
    | some tournamentId =>
      rw [htournament] at h
      dsimp only at h
      split_ifs at h
      exact h
  unfold refusal.unacceptable at hstatus
  split_ifs at hstatus with _ hunacceptable
  exact hunacceptable

/-- A turn stamps the registration and the partner that comes with it, or changes neither stamps
nor foreign ids. -/
theorem planNext_stamps {batch b : Batch} (h : Recorded batch.plan) {reg : RegistrationSnapshot}
    (hnext : planNext ctx (.ok batch) reg = .ok b) :
    Recorded b.plan ∧
      (Identified ctx batch reg ∧ b.plan.stamped = batch.plan.stamped ++
        ((foldedPartner ctx batch.results.length reg (ensureIndividual ctx batch.results.length
          reg.personId (some reg) batch.plan).2).toList ++ [reg]) ∨
      ¬ Identified ctx batch reg ∧ b.plan.stamped = batch.plan.stamped ∧
        b.plan.participantOtherIdStamps = batch.plan.participantOtherIdStamps) := by
  unfold planNext at hnext
  dsimp only at hnext
  by_cases hhandled : reg.declarationId ∈ batch.plan.handled
  · rw [if_pos hhandled] at hnext
    cases hnext
    exact ⟨h, Or.inr ⟨fun hid => hid.1 hhandled, rfl, rfl⟩⟩
  rw [if_neg hhandled] at hnext
  unfold planOne at hnext
  cases hrefusal : refusal ctx reg with
  | some result =>
    rw [hrefusal] at hnext
    cases hnext
    exact ⟨h, Or.inr ⟨fun hid => (nomatch hrefusal.symm.trans hid.2.1), rfl, rfl⟩⟩
  | none =>
    rw [hrefusal] at hnext
    dsimp only at hnext
    have hsame :=
      @ensureIndividual_stamps ctx batch.results.length reg.personId (some reg) batch.plan
    have hotherIds := @ensureIndividual_otherIds ctx batch.plan batch.results.length reg.personId
      (some reg)
    have hidentified : Identified ctx batch reg ↔ (truthy (ensureIndividual ctx
        batch.results.length reg.personId (some reg) batch.plan).1).isSome :=
      ⟨fun hid => hid.2.2, fun hid => ⟨hhandled, hrefusal, hid⟩⟩
    generalize ensureIndividual ctx batch.results.length reg.personId (some reg) batch.plan =
      ensured at hnext hsame hotherIds hidentified ⊢
    have hstamped : ensured.2.stamped = batch.plan.stamped := (Prod.mk.inj hsame).2
    cases hid : truthy ensured.1 with
    | none =>
      rw [hid] at hnext hidentified
      cases hnext
      exact ⟨h.congr hsame, Or.inr ⟨fun hin => (nomatch hidentified.mp hin), hstamped,
        hotherIds hid⟩⟩
    | some participantId =>
      rw [hid] at hnext hidentified
      dsimp only at hnext
      cases hpair : planPair ctx batch.results.length reg participantId ensured.2 with
      | error failure =>
        rw [hpair] at hnext
        cases hnext
      | ok paired =>
        obtain ⟨pairEventId, paired⟩ := paired
        rw [hpair] at hnext
        cases hnext
        obtain ⟨hrecorded, hadded⟩ := planPair_stamps (h.congr hsame) hpair
        have hentered := addEntries_stamps
          ((resolveAcceptedEventIds ctx.tournamentRecord reg.eventIds).filter
            fun eventId => some eventId ≠ pairEventId) participantId paired
        refine ⟨(hrecorded.congr hentered).add rfl rfl,
          Or.inl ⟨hidentified.mpr rfl, ?_⟩⟩
        rw [← List.append_assoc, ← hstamped, ← hadded, ← (Prod.mk.inj hentered).2]

end Turn

/-! ## What a batch stamps -/

section Loop

variable {ctx : BulkAcceptContext}

/-- Foreign ids are queued with a registration that is stamped. -/
def OtherIdsStamped (plan : AcceptancePlan) : Prop :=
  plan.stamped = [] → plan.participantOtherIdStamps = []

/-- A failure ends the loop. -/
theorem run_error (failure : String) (targets : List RegistrationSnapshot) :
    run (planNext ctx) (.error failure) targets = .error failure := by
  induction targets with
  | nil => rfl
  | cons reg rest ih => exact ih

/-- All that one turn stamps is acceptable exactly when the turn meets the condition. -/
theorem stampable_iff {batch b : Batch} (h : Recorded batch.plan) {reg : RegistrationSnapshot}
    (hnext : planNext ctx (.ok batch) reg = .ok b) :
    (∀ r ∈ b.plan.stamped, Acceptable ctx.tournamentId r) ↔
      (∀ r ∈ batch.plan.stamped, Acceptable ctx.tournamentId r) ∧
        Stampable ctx (.ok batch) reg := by
  rcases (planNext_stamps h hnext).2 with ⟨hid, hstamped⟩ | ⟨hid, hstamped, -⟩
  · rw [hstamped]
    constructor
    · intro hall
      refine ⟨fun r hr => hall r (List.mem_append_left _ hr), ?_⟩
      rintro b hb -
      obtain rfl := Except.ok.inj hb
      refine ⟨(hall reg (List.mem_append_right _ (List.mem_append_right _
        List.mem_cons_self))).2, fun partner hpartner => hall partner ?_⟩
      rw [hpartner]
      exact List.mem_append_right _ (List.mem_append_left _ List.mem_cons_self)
    · rintro ⟨hbefore, hturn⟩ r hr
      obtain ⟨htournament, hpartner⟩ := hturn batch rfl hid
      rcases List.mem_append.mp hr with hold | hnew
      · exact hbefore r hold
      rcases List.mem_append.mp hnew with hfolded | hself
      · exact hpartner r (Option.mem_toList.mp hfolded)
      · rw [List.mem_singleton.mp hself]
        exact ⟨refusal_none hid.2.1, htournament⟩
  · rw [hstamped]
    refine ⟨fun hall => ⟨hall, ?_⟩, And.left⟩
    rintro b hb hidentified
    obtain rfl := Except.ok.inj hb
    exact absurd hidentified hid

/-- What the turns of a batch stamp. -/
theorem run_stamps {targets : List RegistrationSnapshot} {start b : Batch}
    (h : Recorded start.plan) (hotherIds : OtherIdsStamped start.plan)
    (hrun : run (planNext ctx) (.ok start) targets = .ok b) :
    Recorded b.plan ∧ OtherIdsStamped b.plan ∧
      ((∀ r ∈ b.plan.stamped, Acceptable ctx.tournamentId r) ↔
        (∀ r ∈ start.plan.stamped, Acceptable ctx.tournamentId r) ∧
          RunMeets (planNext ctx) (Stampable ctx) (.ok start) targets) := by
  induction targets generalizing start with
  | nil =>
    obtain rfl := Except.ok.inj hrun
    exact ⟨h, hotherIds, fun hall => ⟨hall, trivial⟩, And.left⟩
  | cons reg rest ih =>
    have hcons : run (planNext ctx) (.ok start) (reg :: rest) =
        run (planNext ctx) (planNext ctx (.ok start) reg) rest := rfl
    cases hnext : planNext ctx (.ok start) reg with
    | error failure =>
      rw [hcons, hnext, run_error] at hrun
      cases hrun
    | ok next =>
      rw [hcons, hnext] at hrun
      obtain ⟨hrecorded, hturn⟩ := planNext_stamps h hnext
      have hstamped : OtherIdsStamped next.plan := by
        intro hempty
        rcases hturn with ⟨-, hstamped⟩ | ⟨-, hstamped, hsame⟩
        · rw [hstamped] at hempty
          exact absurd (List.append_eq_nil_iff.mp (List.append_eq_nil_iff.mp hempty).2).2
            (List.cons_ne_nil _ _)
        · rw [hsame]
          exact hotherIds (hstamped.symm.trans hempty)
      obtain ⟨hlast, hlastIds, hall⟩ := ih hrecorded hstamped hrun
      refine ⟨hlast, hlastIds, hall.trans ?_⟩
      rw [stampable_iff h hnext, and_assoc]
      change _ ↔ _ ∧ Stampable ctx (.ok start) reg ∧
        RunMeets (planNext ctx) (Stampable ctx) (planNext ctx (.ok start) reg) rest
      rw [hnext]

end Loop

/-! ## The whole acceptance -/

/-- What is noted as stamped is acceptable exactly when what was read of it is. -/
theorem noted_acceptable {plan : AcceptancePlan} (h : Recorded plan) (tournamentId : String) :
    (∀ id ∈ plan.stampRegistrations, (∃ reg ∈ plan.stamped, reg.declarationId = id) ∧
      ∀ reg ∈ plan.stamped, reg.declarationId = id → Acceptable tournamentId reg) ↔
      ∀ reg ∈ plan.stamped, Acceptable tournamentId reg := by
  constructor
  · intro hall reg hreg
    exact (hall _ ((h _).mpr ⟨reg, hreg, rfl⟩)).2 reg hreg rfl
  · intro hall id hid
    exact ⟨(h id).mp hid, fun reg hreg _ => hall reg hreg⟩

/-- Everything that is transitioned is acceptable, and committed with all that was planned,
exactly when the engine refuses the plan, or every turn meets the condition and the plan does not
consist of foreign ids alone. -/
theorem stamps_acceptable (executionQueue : TournamentRecord → List QueueMethod →
      Except String TournamentRecord) (request : AcceptRequest) (acceptance : Acceptance)
    (haccept : acceptMany executionQueue request = .ok acceptance) :
    StampsAcceptable request acceptance ↔ Refused executionQueue request ∨
      RunMeets (planNext request.context) (Stampable request.context)
        (.ok { plan := newPlan request.tournamentRecord }) request.targets ∧
        Commanded request := by
  unfold acceptMany at haccept
  cases hbatch : planBatch request.context request.targets with
  | error failure =>
    rw [hbatch] at haccept
    cases haccept
  | ok batch =>
    rw [hbatch] at haccept
    obtain rfl := Except.ok.inj haccept
    have hstart : Recorded (newPlan request.tournamentRecord) := fun id =>
      ⟨fun h => absurd h List.not_mem_nil, fun ⟨_, h, _⟩ => absurd h List.not_mem_nil⟩
    obtain ⟨hrecorded, hotherIds, hall⟩ :=
      @run_stamps request.context request.targets { plan := newPlan request.tournamentRecord }
        batch hstart (fun _ => rfl) hbatch
    have hnoted := (noted_acceptable hrecorded request.tournamentId).trans
      (hall.trans (and_iff_right fun _ h => absurd h List.not_mem_nil))
    have hcommanded : Commanded request ↔
        hasChanges batch.plan ∨ batch.plan.participantOtherIdStamps = [] := by
      refine ⟨fun h => h batch hbatch, fun h other hother => ?_⟩
      rwa [Except.ok.inj (hother.symm.trans hbatch)]
    have hrefused : Refused executionQueue request ↔ hasChanges batch.plan ∧
        ∃ reason, executionQueue request.tournamentRecord (planMethods batch.plan) =
          .error reason := by
      refine ⟨?_, fun ⟨hchanges, reason, h⟩ => ⟨batch, reason, hbatch, hchanges, h⟩⟩
      rintro ⟨other, reason, hother, hchanges, h⟩
      obtain rfl := Except.ok.inj (hother.symm.trans hbatch)
      exact ⟨hchanges, reason, h⟩
    rw [hcommanded, hrefused]
    unfold StampsAcceptable acceptPlan
    by_cases hchanges : hasChanges batch.plan
    · rw [if_pos hchanges]
      cases hcommit : executionQueue request.tournamentRecord (planMethods batch.plan) with
      | error reason =>
        refine ⟨fun _ => Or.inl ⟨hchanges, reason, rfl⟩, fun _ => ⟨?_, fun h => absurd rfl h⟩⟩
        exact fun _ h => absurd h List.not_mem_nil
      | ok after =>
        dsimp only
        rw [hnoted]
        constructor
        · exact fun h => Or.inr ⟨h.1, Or.inl hchanges⟩
        · rintro (⟨-, reason, h⟩ | ⟨hmeets, -⟩)
          · cases h
          · exact ⟨hmeets, fun _ _ h => h⟩
    · rw [if_neg hchanges]
      dsimp only
      rw [hnoted]
      have hmethods : planMethods batch.plan =
          batch.plan.participantOtherIdStamps.map .addParticipantOtherId := by
        have hnone : batch.plan.newParticipants = [] ∧ batch.plan.entryMap = [] :=
          ⟨not_not.mp fun h => hchanges (Or.inl h), not_not.mp fun h => hchanges (Or.inr h)⟩
        unfold planMethods
        rw [hnone.1, hnone.2]
        rfl
      rw [hmethods]
      constructor
      · rintro ⟨hmeets, hcommitted⟩
        refine Or.inr ⟨hmeets, Or.inr ?_⟩
        by_contra hsome
        obtain ⟨stamp, hstamp⟩ := List.exists_mem_of_ne_nil _ hsome
        have hstamped : batch.plan.stampRegistrations ≠ [] := by
          intro hempty
          refine hsome (hotherIds (List.eq_nil_iff_forall_not_mem.mpr fun reg hreg => ?_))
          have hin := (hrecorded _).mpr ⟨reg, hreg, rfl⟩
          rw [hempty] at hin
          exact List.not_mem_nil hin
        exact List.not_mem_nil (hcommitted hstamped _ (List.mem_map_of_mem hstamp))
      · rintro (⟨h, -⟩ | ⟨hmeets, h | hnone⟩)
        · exact absurd h hchanges
        · exact absurd h hchanges
        · rw [hnone]
          exact ⟨hmeets, fun _ _ h => h⟩

/-- The condition is met by the two registrations of a pair. -/
theorem stamps_acceptable_pair : ∃ acceptance,
    acceptMany appending (sampleRequest ["doubles"]) =
        .ok acceptance ∧
      acceptance.transitioned = ["b", "a"] ∧
      StampsAcceptable (sampleRequest ["doubles"]) acceptance := by
  refine ⟨_, rfl, rfl, (stamps_acceptable appending
    (sampleRequest ["doubles"]) _ rfl).mpr (Or.inr ⟨⟨?_, ?_, trivial⟩, ?_⟩)⟩
  · rintro b hb -
    cases hb
    refine ⟨rfl, fun partner hpartner => ?_⟩
    obtain rfl := Option.some.inj hpartner
    exact ⟨List.mem_cons_self, rfl⟩
  · rintro b hb hidentified
    cases hb
    exact absurd List.mem_cons_self hidentified.1
  · rintro batch hbatch
    cases hbatch
    exact Or.inl (Or.inl (List.cons_ne_nil _ _))

/-- The registrations of a pair, one of them withdrawn. -/
def withdrawnPair : List RegistrationSnapshot :=
  [sampleRegistration "a" "anna" ["doubles"],
    { sampleRegistration "b" "beth" ["doubles"] with status := "WITHDRAWN" }]

/-- A batch whose partner has withdrawn. -/
def withdrawnRequest : AcceptRequest :=
  { sampleRequest ["doubles"] with
    pending := withdrawnPair
    all := withdrawnPair }

/-- A participant that is entered already. -/
def enteredParticipant : Participant where
  participantId := "p"
  participantType := "INDIVIDUAL"
  participantRole := none
  participantName := none
  individualParticipantIds := none
  participantOtherIds := []
  person := some ⟨"A", "B", none, none, none, [⟨CANONICAL_PERSON, "anna", none⟩]⟩

/-- A batch whose only effect is the foreign id of a participant that is entered already. -/
def foreignIdRequest : AcceptRequest :=
  { sampleRequest [] with
    tournamentRecord := ⟨[enteredParticipant], [⟨some "singles", none, ["p"]⟩]⟩
    stampsExisting := true
    pending := [{ sampleRegistration "a" "anna" ["singles"] with
      partnerInviteId := none
      participantOtherIds := [⟨some "o", some "x", none⟩] }]
    all := [] }

/-- A partner that has withdrawn is stamped, and a batch of foreign ids alone is stamped without
being committed. -/
theorem stamps_withdrawn :
    (∃ acceptance, acceptMany appending withdrawnRequest = .ok acceptance ∧
      ¬ StampsAcceptable withdrawnRequest acceptance) ∧
    ∃ acceptance, acceptMany appending foreignIdRequest = .ok acceptance ∧
      ¬ StampsAcceptable foreignIdRequest acceptance := by
  constructor
  · refine ⟨_, rfl, fun h => ?_⟩
    have hacceptable := ((h.1 "b" List.mem_cons_self).2 _ List.mem_cons_self rfl).1
    exact absurd hacceptable (by decide)
  · refine ⟨_, rfl, fun h => ?_⟩
    exact List.not_mem_nil (h.2 (List.cons_ne_nil _ _)
      (.addParticipantOtherId ⟨"p", "o", "x", none⟩) List.mem_cons_self)

end FactoryServer.AcceptedStamps
