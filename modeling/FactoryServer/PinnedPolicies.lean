import FactoryServer.PrivacyPins
import Mathlib.Data.List.Infix

/-!
# When a backfill freezes what readers see

A run of the backfill without failures attaches the provider's policy to the unpinned
tournaments that its calendar rows name, and touches no other record. So it freezes what the
readers of the provider's tournaments see exactly where every unpinned tournament has its row
in that calendar, and every unpinned tournament with such a row is served under that policy.
-/

namespace FactoryServer.PinnedPolicies

open JsonValue TournamentAccess StorageTables TournamentStorage PrivacyPins

variable (x : PinServices)

/-! ## What is claimed -/

/-- What the readers of a provider's tournaments see is frozen by a change of the tables. -/
structure Frozen (s after : PrivacyState) (providerId : String) : Prop where
  /-- Every tournament of the provider has a policy attached. -/
  pinned : ∀ id record, after.tournaments id = some record →
    record.organisationId = some providerId → (attachedParticipantPolicy x record).isSome
  /-- A policy that is new is the one that the record was served under. -/
  resolved : ∀ id record record' policy, s.tournaments id = some record →
    attachedParticipantPolicy x record = none → after.tournaments id = some record' →
    attachedParticipantPolicy x record' = some policy →
    policy = resolvePublicParticipantPolicy x s.providers record
  /-- A record that had a policy is unchanged. -/
  kept : ∀ id record, s.tournaments id = some record →
    (attachedParticipantPolicy x record).isSome → after.tournaments id = some record
  /-- Later settings of the provider reach no public route. -/
  settled : ∀ later : String → Option Provider,
    (∀ other, other ≠ providerId → later other = after.providers other) →
    ∀ id record, after.tournaments id = some record →
      resolvePublicParticipantPolicy x later record =
        resolvePublicParticipantPolicy x after.providers record
  /-- The participant documents are built under what the public routes apply. -/
  documented : ∀ (later : String → Option Provider) id record,
    after.tournaments id = some record → record.organisationId = some providerId →
    documentPolicy x record = resolvePublicParticipantPolicy x later record

/-- The calendar of a provider has the unpinned tournaments of the provider, and no other unpinned
tournament that is served under another policy. -/
structure Covered (s : PrivacyState) (providerId : String) : Prop where
  /-- An unpinned tournament of the provider has its row. -/
  listed : ∀ id record, s.tournaments id = some record →
    record.organisationId = some providerId → attachedParticipantPolicy x record = none →
    (id, providerId) ∈ s.calendar ∧ id ≠ ""
  /-- An unpinned tournament with a row is served under the provider's policy. -/
  owned : ∀ id record, (id, providerId) ∈ s.calendar → id ≠ "" →
    s.tournaments id = some record → attachedParticipantPolicy x record = none →
    pinnedPolicy x s providerId = resolvePublicParticipantPolicy x s.providers record

/-! ## The policy that is pinned -/

/-- A policy with a participant entry and no other. -/
def ParticipantOnly (policy : Json) : Prop :=
  ∃ fields, policy = .obj [(POLICY_TYPE_PARTICIPANT, .obj fields)]

variable {x}

/-- What stands below the participant entry may change. -/
theorem ParticipantOnly.modifyAt {policy : Json} (h : ParticipantOnly policy)
    (change : Json → Json) (key : String) (path : List String) :
    ParticipantOnly (modifyAt change (POLICY_TYPE_PARTICIPANT :: key :: path) policy) := by
  obtain ⟨fields, rfl⟩ := h
  have hbelow : ∃ below, PrivacyPins.modifyAt change (key :: path) (.obj fields) = .obj below := by
    rw [PrivacyPins.modifyAt]
    split
    · exact ⟨_, rfl⟩
    · exact ⟨_, rfl⟩
  obtain ⟨below, hbelow⟩ := hbelow
  refine ⟨below, ?_⟩
  have hfound : (Json.obj [(POLICY_TYPE_PARTICIPANT, .obj fields)]).field?
      POLICY_TYPE_PARTICIPANT = some (.obj fields) := rfl
  rw [PrivacyPins.modifyAt, hfound]
  dsimp only
  rw [hbelow]
  rfl

/-- Properties of the blocks may be assigned. -/
theorem ParticipantOnly.assignBlocks {policy : Json} (h : ParticipantOnly policy)
    (below : List String) (key : String) (assigned : Json) :
    ParticipantOnly (assignBlocks below key assigned policy) := by
  unfold PrivacyPins.assignBlocks participantBlocks
  simp only [List.foldl_cons, List.foldl_nil, List.cons_append]
  exact (h.modifyAt _ _ _).modifyAt _ _ _

/-- Whatever a provider grants, its policy has a participant entry and no other. -/
theorem participantOnly_build (privacy : Option ParticipantPrivacy) :
    ParticipantOnly (buildParticipantPrivacyPolicy x privacy) := by
  have hdefault : ParticipantOnly (publicParticipantPrivacyPolicy x) := by
    have htemplate : ParticipantOnly (.obj [(POLICY_TYPE_PARTICIPANT, .obj x.template)]) :=
      ⟨x.template, rfl⟩
    exact htemplate.assignBlocks _ _ _
  unfold buildParticipantPrivacyPolicy
  dsimp only
  split_ifs
  · exact (hdefault.assignBlocks _ _ _).assignBlocks _ _ _
  · exact hdefault.assignBlocks _ _ _
  · exact hdefault.assignBlocks _ _ _
  · exact hdefault

/-- The policy that is pinned has a participant entry and no other. -/
theorem participantOnly_pinned (hx : x.Lawful) (s : PrivacyState) (providerId : String) :
    ParticipantOnly (pinnedPolicy x s providerId) := by
  have hbare : attachedParticipantPolicy x (bareRecord providerId) = none := hx.bare _ rfl
  unfold pinnedPolicy resolvePublicParticipantPolicy
  rw [hbare]
  exact participantOnly_build _

/-- An attached policy is found. -/
theorem attached_of_attaches (hx : x.Lawful) {policy : Json} (hpolicy : ParticipantOnly policy)
    {record attached : TournamentRecord} (h : x.attachPolicies policy record = .ok attached) :
    attachedParticipantPolicy x attached = some policy ∧
      attached.organisationId = record.organisationId := by
  obtain ⟨fields, rfl⟩ := hpolicy
  obtain ⟨hfound, horganisation⟩ := hx.attaches fields record attached h
  refine ⟨?_, horganisation⟩
  rw [attachedParticipantPolicy, hfound]
  rfl

/-! ## One tournament -/

/-- What a save leaves as it is. -/
theorem addToOrUpdateCalendar_frame (s : PrivacyState) (id : String) (record : TournamentRecord) :
    (addToOrUpdateCalendar x s id record).providers = s.providers ∧
      (addToOrUpdateCalendar x s id record).tournaments = s.tournaments := by
  unfold PrivacyPins.addToOrUpdateCalendar
  split
  · exact ⟨rfl, rfl⟩
  · split_ifs
    · exact ⟨rfl, rfl⟩
    · exact ⟨rfl, rfl⟩

/-- A save that succeeds stores the record. -/
theorem saveTournamentRecord_stores {s : PrivacyState} {id : String} {record : TournamentRecord}
    (h : (saveTournamentRecord x s id record).2 = true) :
    (saveTournamentRecord x s id record).1.providers = s.providers ∧
      (saveTournamentRecord x s id record).1.tournaments =
        Function.update s.tournaments id (some record) := by
  obtain ⟨hproviders, htournaments⟩ := addToOrUpdateCalendar_frame (x := x) s id record
  unfold PrivacyPins.saveTournamentRecord at h ⊢
  dsimp only at h ⊢
  split_ifs at h ⊢ with hsaved htakes
  dsimp only
  rw [htournaments]
  exact ⟨hproviders, rfl⟩

/-- What a backfill of some tournaments has done at a tournament. -/
structure PinnedAt (x : PinServices) (policy : Json) (ids : List String)
    (s after : PrivacyState) (id : String) : Prop where
  /-- None has appeared. -/
  missing : s.tournaments id = none → after.tournaments id = none
  /-- An unpinned one among them has the policy. -/
  attached : ∀ record, s.tournaments id = some record →
    attachedParticipantPolicy x record = none → id ∈ ids → id ≠ "" →
    ∃ record', after.tournaments id = some record' ∧
      attachedParticipantPolicy x record' = some policy ∧
      record'.organisationId = record.organisationId
  /-- Any other is unchanged. -/
  kept : ∀ record, s.tournaments id = some record →
    ¬(attachedParticipantPolicy x record = none ∧ id ∈ ids ∧ id ≠ "") →
    after.tournaments id = some record

/-- A backfill of no tournament that is here and unpinned. -/
theorem PinnedAt.unchanged {policy : Json} {ids : List String} {s after : PrivacyState}
    {id : String} (h : after.tournaments id = s.tournaments id)
    (hnone : ∀ record, s.tournaments id = some record →
      ¬(attachedParticipantPolicy x record = none ∧ id ∈ ids ∧ id ≠ "")) :
    PinnedAt x policy ids s after id where
  missing hmissing := h.trans hmissing
  attached := fun record hrecord hnew hin hne => absurd ⟨hnew, hin, hne⟩ (hnone record hrecord)
  kept _ hrecord _ := h.trans hrecord

/-- Two backfills, one after the other. -/
theorem PinnedAt.trans {policy : Json} {first : String} {rest : List String}
    {s mid after : PrivacyState} {id : String} (h : PinnedAt x policy [first] s mid id)
    (h' : PinnedAt x policy rest mid after id) :
    PinnedAt x policy (first :: rest) s after id where
  missing hmissing := h'.missing (h.missing hmissing)
  attached record hrecord hnew hin hne := by
    by_cases hfirst : id = first
    · obtain ⟨record', hmid, hpolicy, horganisation⟩ :=
        h.attached record hrecord hnew (List.mem_singleton.mpr hfirst) hne
      refine ⟨record', h'.kept record' hmid fun hagain => ?_, hpolicy, horganisation⟩
      exact Option.some_ne_none policy (hpolicy.symm.trans hagain.1)
    · have hmid := h.kept record hrecord fun hagain =>
        hfirst (List.mem_singleton.mp hagain.2.1)
      exact h'.attached record hmid hnew ((List.mem_cons.mp hin).resolve_left hfirst) hne
  kept record hrecord hother := by
    have hmid := h.kept record hrecord fun hagain => hother
      ⟨hagain.1, List.mem_cons.mpr (Or.inl (List.mem_singleton.mp hagain.2.1)), hagain.2.2⟩
    exact h'.kept record hmid fun hagain => hother
      ⟨hagain.1, List.mem_cons_of_mem _ hagain.2.1, hagain.2.2⟩

/-- A backfill that has failed at nothing has pinned its tournament, if it was unpinned. -/
theorem pinnedAt_step (hx : x.Lawful) {policy : Json} (hpolicy : ParticipantOnly policy)
    (s : PrivacyState) (report : PinReport) (first : String)
    (hclean : (pinTournament x false policy (s, report) first).2.failed = []) :
    (pinTournament x false policy (s, report) first).1.providers = s.providers ∧
      ∀ id, PinnedAt x policy [first] s (pinTournament x false policy (s, report) first).1 id := by
  unfold pinTournament at hclean ⊢
  dsimp only at hclean ⊢
  by_cases hempty : first = ""
  · rw [if_pos hempty]
    refine ⟨rfl, fun id => PinnedAt.unchanged rfl fun record _ hagain => ?_⟩
    exact hagain.2.2 ((List.mem_singleton.mp hagain.2.1).trans hempty)
  · rw [if_neg hempty] at hclean ⊢
    cases hfirst : s.tournaments first with
    | none =>
      rw [hfirst] at hclean
      exact absurd hclean (by simp)
    | some record =>
      rw [hfirst] at hclean
      dsimp only at hclean ⊢
      -- the other tournaments keep their records
      have hothers : ∀ id, id ≠ first → ∀ after : PrivacyState,
          after.tournaments id = s.tournaments id → PinnedAt x policy [first] s after id := by
        intro id hne after hsame
        exact PinnedAt.unchanged hsame fun record _ hagain =>
          hne (List.mem_singleton.mp hagain.2.1)
      cases hattached : attachedParticipantPolicy x record with
      | some attached =>
        refine ⟨rfl, fun id => PinnedAt.unchanged rfl fun other hother hagain => ?_⟩
        rw [List.mem_singleton.mp hagain.2.1, hfirst] at hother
        rw [← Option.some.inj hother, hattached] at hagain
        exact Option.some_ne_none attached hagain.1
      | none =>
        rw [hattached] at hclean
        simp only [Option.isSome_none, Bool.false_eq_true, if_false] at hclean ⊢
        unfold attachThroughQueue at hclean ⊢
        rw [hfirst] at hclean ⊢
        dsimp only at hclean ⊢
        cases hengine : x.attachPolicies policy record with
        | error error =>
          cases error with
          | existingPolicyType =>
            have hthere := hx.existing policy record hengine
            rw [hattached] at hthere
            exact absurd hthere (by simp)
          | other error =>
            rw [hengine] at hclean
            exact absurd hclean (by simp)
        | ok attached =>
          rw [hengine] at hclean
          dsimp only at hclean ⊢
          obtain ⟨hfound, horganisation⟩ := attached_of_attaches hx hpolicy hengine
          cases hsaved : (saveTournamentRecord x s first attached).2 with
          | false =>
            rw [hsaved] at hclean
            exact absurd hclean (by simp)
          | true =>
            obtain ⟨hproviders, htournaments⟩ := saveTournamentRecord_stores hsaved
            refine ⟨hproviders, fun id => ?_⟩
            by_cases hid : id = first
            · subst hid
              have hstored : (saveTournamentRecord x s id attached).1.tournaments id =
                  some attached := by
                rw [htournaments, Function.update_self]
              refine ⟨fun hmissing => ?_, fun other hother _ _ _ => ?_, fun other hother hno => ?_⟩
              · exact absurd (hfirst.symm.trans hmissing) (by simp)
              · rw [hfirst] at hother
                rw [← Option.some.inj hother]
                exact ⟨attached, hstored, hfound, horganisation⟩
              · rw [hfirst] at hother
                rw [← Option.some.inj hother] at hno
                exact absurd ⟨hattached, List.mem_singleton_self _, hempty⟩ hno
            · have hsame : (saveTournamentRecord x s first attached).1.tournaments id =
                  s.tournaments id := by
                rw [htournaments, Function.update_of_ne hid]
              exact hothers id hid _ hsame

/-- Failures are only added. -/
theorem failed_grows (policy : Json) (run : PrivacyState × PinReport) (first : String) :
    run.2.failed <+: (pinTournament x false policy run first).2.failed := by
  obtain ⟨s, report⟩ := run
  unfold pinTournament
  dsimp only
  by_cases hempty : first = ""
  · rw [if_pos hempty]
  · rw [if_neg hempty]
    cases s.tournaments first with
    | none => exact List.prefix_append _ _
    | some record =>
      dsimp only
      by_cases hattached : (attachedParticipantPolicy x record).isSome = true
      · rw [if_pos hattached]
      · rw [if_neg hattached, if_neg Bool.false_ne_true]
        split
        · exact List.prefix_rfl
        · exact List.prefix_rfl
        · exact List.prefix_append _ _

/-- Failures stay. -/
theorem failed_grows_run (policy : Json) (ids : List String) (run : PrivacyState × PinReport) :
    run.2.failed <+: (ids.foldl (pinTournament x false policy) run).2.failed := by
  induction ids generalizing run with
  | nil => exact List.prefix_rfl
  | cons first rest ih => exact (failed_grows policy run first).trans (ih _)

/-- A backfill that has failed at nothing has pinned its unpinned tournaments. -/
theorem pinnedAt_run (hx : x.Lawful) {policy : Json} (hpolicy : ParticipantOnly policy)
    (ids : List String) (run : PrivacyState × PinReport)
    (hclean : (ids.foldl (pinTournament x false policy) run).2.failed = []) :
    (ids.foldl (pinTournament x false policy) run).1.providers = run.1.providers ∧
      ∀ id, PinnedAt x policy ids run.1 (ids.foldl (pinTournament x false policy) run).1 id := by
  induction ids generalizing run with
  | nil => exact ⟨rfl, fun id => PinnedAt.unchanged rfl fun _ _ hagain => absurd hagain.2.1 nofun⟩
  | cons first rest ih =>
    have hmid : (pinTournament x false policy run first).2.failed = [] := by
      have hgrows := failed_grows_run (x := x) policy rest (pinTournament x false policy run first)
      rw [List.foldl_cons] at hclean
      rw [hclean] at hgrows
      exact List.prefix_nil.mp hgrows
    obtain ⟨hproviders, hfirst⟩ := pinnedAt_step hx hpolicy run.1 run.2 first hmid
    obtain ⟨hproviders', hrest⟩ := ih (pinTournament x false policy run first) hclean
    exact ⟨hproviders'.trans hproviders, fun id => (hfirst id).trans (hrest id)⟩

/-! ## The whole backfill -/

/-- The tournaments that a provider's calendar names. -/
theorem mem_listProviderTournaments {s : PrivacyState} {providerId id : String} :
    id ∈ listProviderTournaments s providerId ↔ (id, providerId) ∈ s.calendar := by
  simp [listProviderTournaments]

/-- The policy of a record that has none depends on its provider alone. -/
theorem resolve_congr {providers providers' : String → Option Provider}
    {record : TournamentRecord}
    (h : ∀ providerId, getTournamentProviderId record = some providerId →
      providers providerId = providers' providerId) :
    resolvePublicParticipantPolicy x providers record =
      resolvePublicParticipantPolicy x providers' record := by
  unfold resolvePublicParticipantPolicy
  cases attachedParticipantPolicy x record with
  | some attached => rfl
  | none =>
    cases hprovider : getTournamentProviderId record with
    | none => rfl
    | some providerId => simp only [Option.bind_some, h providerId hprovider]

/-- The policy that is attached is the one that is applied. -/
theorem resolve_attached {record : TournamentRecord} {attached : Json}
    (h : attachedParticipantPolicy x record = some attached)
    (providers : String → Option Provider) :
    resolvePublicParticipantPolicy x providers record = attached := by
  unfold resolvePublicParticipantPolicy
  rw [h]

/-- A backfill without failures freezes what the readers of a provider's tournaments see exactly
where the calendar of the provider has its unpinned tournaments, and no other one that is served
under another policy. -/
theorem backfill_freezes_iff (hx : x.Lawful) {s after : PrivacyState} {providerId : String}
    {report : PinReport}
    (hrun : backfillParticipantPrivacyPins x s providerId false = some (after, report))
    (hclean : report.failed = []) :
    Frozen x s after providerId ↔ Covered x s providerId := by
  unfold backfillParticipantPrivacyPins at hrun
  split_ifs at hrun with hmissing
  have hresult := Option.some.inj hrun
  have hpolicy := participantOnly_pinned hx s providerId
  have hend := congrArg (fun run => run.2.failed) hresult
  obtain ⟨hproviders, hpinned⟩ := pinnedAt_run hx hpolicy (listProviderTournaments s providerId)
    (s, {}) (hend.trans hclean)
  rw [hresult] at hproviders hpinned
  dsimp only at hproviders hpinned
  constructor
  · intro hfrozen
    refine ⟨fun id record hrecord horganisation hnew => ?_,
      fun id record hrow hne hrecord hnew => ?_⟩
    · by_contra hother
      have hkept := (hpinned id).kept record hrecord fun hagain =>
        hother ⟨mem_listProviderTournaments.mp hagain.2.1, hagain.2.2⟩
      have hattached := hfrozen.pinned id record hkept horganisation
      rw [hnew] at hattached
      exact absurd hattached (by simp)
    · obtain ⟨record', hafter, hattached, -⟩ :=
        (hpinned id).attached record hrecord hnew (mem_listProviderTournaments.mpr hrow) hne
      exact hfrozen.resolved id record record' _ hrecord hnew hafter hattached
  · intro hcovered
    have hall : ∀ id record', after.tournaments id = some record' →
        record'.organisationId = some providerId →
        (attachedParticipantPolicy x record').isSome := by
      intro id record' hafter horganisation
      cases hbefore : s.tournaments id with
      | none => exact absurd ((hpinned id).missing hbefore ▸ hafter) (by simp)
      | some record =>
        by_cases hdone : attachedParticipantPolicy x record = none ∧
            id ∈ listProviderTournaments s providerId ∧ id ≠ ""
        · obtain ⟨record'', hstored, hattached, -⟩ :=
            (hpinned id).attached record hbefore hdone.1 hdone.2.1 hdone.2.2
          rw [Option.some.inj (hafter.symm.trans hstored), hattached]
          rfl
        · have hkept := (hpinned id).kept record hbefore hdone
          rw [Option.some.inj (hafter.symm.trans hkept)] at horganisation ⊢
          by_contra hnew
          have hnone := Option.not_isSome_iff_eq_none.mp hnew
          obtain ⟨hrow, hne⟩ := hcovered.listed id record hbefore horganisation hnone
          exact hdone ⟨hnone, mem_listProviderTournaments.mpr hrow, hne⟩
    refine ⟨hall, ?_, ?_, ?_, ?_⟩
    · intro id record record' policy hbefore hnew hafter hattached
      by_cases hdone : id ∈ listProviderTournaments s providerId ∧ id ≠ ""
      · obtain ⟨record'', hstored, hfound, -⟩ :=
          (hpinned id).attached record hbefore hnew hdone.1 hdone.2
        rw [← Option.some.inj (hafter.symm.trans hstored), hattached] at hfound
        rw [Option.some.inj hfound]
        exact hcovered.owned id record (mem_listProviderTournaments.mp hdone.1) hdone.2 hbefore
          hnew
      · have hkept := (hpinned id).kept record hbefore fun hagain => hdone hagain.2
        rw [Option.some.inj (hafter.symm.trans hkept), hnew] at hattached
        exact absurd hattached (by simp)
    · intro id record hbefore hattached
      refine (hpinned id).kept record hbefore fun hagain => ?_
      rw [hagain.1] at hattached
      exact absurd hattached (by simp)
    · intro later hlater id record hafter
      by_cases horganisation : record.organisationId = some providerId
      · obtain ⟨attached, hattached⟩ :=
          Option.isSome_iff_exists.mp (hall id record hafter horganisation)
        rw [resolve_attached hattached, resolve_attached hattached]
      · refine resolve_congr fun other hother => hlater other fun hsame => horganisation ?_
        rw [← hsame]
        exact (nonEmpty_eq_some.mp hother).1
    · intro later id record hafter horganisation
      obtain ⟨attached, hattached⟩ :=
        Option.isSome_iff_exists.mp (hall id record hafter horganisation)
      rw [resolve_attached hattached, documentPolicy, hattached]
      rfl

/-! ## Sample providers -/

/-- The record's extension of policies. -/
def APPLIED_POLICIES : String := "appliedPolicies"

/-- Policies in an extension of the record, and settings that name what is public. -/
def sampleServices : PinServices where
  template := [("participant", .obj [("person", .obj [("sex", .bool false)])])]
  getPolicyDefinitions record :=
    (record.extensions.find? fun e => e.name == APPLIED_POLICIES).map Extension.value
  attachPolicies policyDefinitions record :=
    if (record.extensions.find? fun e => e.name == APPLIED_POLICIES).any fun e =>
        truthy (e.value.field? POLICY_TYPE_PARTICIPANT) then .error .existingPolicyType
    else .ok { record with
      extensions := ⟨APPLIED_POLICIES, policyDefinitions⟩ :: record.extensions }
  participantPrivacy _ settings := some
    { cityState := truthy (settings.bind (Json.field? "cityState"))
      sex := truthy (settings.bind (Json.field? "sex")) }
  yieldsEntry _ := true
  takes _ _ := true

theorem lawful_sampleServices : sampleServices.Lawful where
  attaches policy record attached h := by
    simp only [sampleServices] at h
    split_ifs at h
    rw [← Except.ok.inj h]
    exact ⟨rfl, rfl⟩
  existing policyDefinitions record h := by
    simp only [sampleServices] at h
    split_ifs at h with hthere
    unfold attachedParticipantPolicy
    simp only [sampleServices]
    cases hfound : record.extensions.find? fun e => e.name == APPLIED_POLICIES with
    | none =>
      rw [hfound] at hthere
      exact absurd hthere (by simp)
    | some extension =>
      rw [hfound, Option.any_some] at hthere
      rw [Option.map_some, Option.filter_some, if_pos hthere]
      rfl
  bare record h := by
    simp [attachedParticipantPolicy, sampleServices, h]

/-- A provider whose settings make the sex public. -/
def openProvider : Provider where
  organisationAbbreviation := none
  providerConfigCaps := .obj []
  providerConfigSettings := .obj [("sex", .bool true)]

/-- A tournament of provider `p`. -/
def tournamentOfP (extensions : List Extension) : TournamentRecord :=
  { bareRecord "p" with tournamentId := some (.str "t"), extensions := extensions }

/-- A tournament with the given extensions, and the rows of the calendar. -/
def privacyState (extensions : List Extension) (calendar : List (String × String)) :
    PrivacyState where
  providers id := if id = "p" then some openProvider else none
  tournaments id := if id = "t" then some (tournamentOfP extensions) else none
  calendar := calendar

/-- A listed tournament is frozen. -/
theorem listed_frozen :
    ∃ after report, backfillParticipantPrivacyPins sampleServices
      (privacyState [] [("t", "p")]) "p" false = some (after, report) ∧
      report.pinned = ["t"] ∧
      Frozen sampleServices (privacyState [] [("t", "p")]) after "p" := by
  refine ⟨_, _, rfl, rfl, (backfill_freezes_iff lawful_sampleServices rfl rfl).mpr ⟨?_, ?_⟩⟩
  · intro id record hrecord _ _
    have hid : id = "t" := by
      by_contra hne
      exact absurd hrecord (by simp [privacyState, hne])
    rw [hid]
    exact ⟨List.mem_cons_self, by decide⟩
  · intro id record hrow _ hrecord _
    have hid : id = "t" := (Prod.mk.inj (List.mem_singleton.mp hrow)).1
    have hsame : tournamentOfP [] = record := by
      rw [hid] at hrecord
      exact Option.some.inj hrecord
    rw [← hsame]
    rfl

/-- An unlisted tournament is not pinned. -/
theorem unlisted_not_pinned :
    ¬∀ (s after : PrivacyState) (providerId : String) (report : PinReport),
      backfillParticipantPrivacyPins sampleServices s providerId false = some (after, report) →
      report.failed = [] → Frozen sampleServices s after providerId := by
  intro hclaim
  have hfrozen := hclaim (privacyState [⟨CALENDAR_LISTED, .bool false⟩] []) _ "p" _ rfl rfl
  have hpinned := hfrozen.pinned "t" _ rfl rfl
  exact absurd hpinned (by decide)

end FactoryServer.PinnedPolicies
