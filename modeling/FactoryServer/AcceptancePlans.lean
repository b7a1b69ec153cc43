import FactoryServer.FreshKeys
import FactoryServer.RegistrationAcceptance

/-!
# What an acceptance plans

A plan looks persons and pairs up in the record that was read and in the participants it
has planned so far. It plans a participant only for a person or for members that neither
of the two has, and an entry only where the record has none.
-/

namespace FactoryServer.AcceptancePlans

open InsertionMaps FreshKeys RegistrationAcceptance

/-! ## Persons and pairs -/

/-- The canonical person and the id of an individual participant. -/
def individualEntry (p : Participant) : Option (String × String) :=
  if p.participantType = "INDIVIDUAL" then (canonicalId p).map (·, p.participantId) else none

/-- The members and the id of a pair. -/
def pairEntry (p : Participant) : Option (String × String) :=
  if p.participantType = "PAIR" then
    p.individualParticipantIds.map fun ids => (membersKey ids, p.participantId)
  else none

/-- The individual participants of canonical persons. -/
def individualsOf (participants : List Participant) : List (String × String) :=
  participants.filterMap individualEntry

/-- The pairs, by their members. -/
def pairsOf (participants : List Participant) : List (String × String) :=
  participants.filterMap pairEntry

theorem newPlan_individuals (record : TournamentRecord) (personId : String) :
    (newPlan record).individualByPerson personId =
      lastOf personId (individualsOf record.participants) := by
  have hentries : (newPlan record).individualByPerson =
      record.participants.foldl (fun found p => setFound found (individualEntry p))
        (fun _ => none) := by
    refine List.foldl_ext _ _ _ fun found p _ => ?_
    unfold individualEntry
    split_ifs
    · cases canonicalId p <;> rfl
    · rfl
  rw [hentries]
  exact foldl_setFound individualEntry record.participants personId

theorem newPlan_pairs (record : TournamentRecord) (key : String) :
    (newPlan record).pairByMembers key = lastOf key (pairsOf record.participants) := by
  have hentries : (newPlan record).pairByMembers =
      record.participants.foldl (fun found p => setFound found (pairEntry p))
        (fun _ => none) := by
    refine List.foldl_ext _ _ _ fun found p _ => ?_
    unfold pairEntry
    split_ifs
    · cases p.individualParticipantIds <;> rfl
    · rfl
  rw [hentries]
  exact foldl_setFound pairEntry record.participants key

/-- The ids of persons' participants and of pairs are no empty texts. -/
def Named (participants : List Participant) : Prop :=
  (∀ entry ∈ individualsOf participants, entry.2 ≠ "") ∧
    ∀ entry ∈ pairsOf participants, entry.2 ≠ ""

/-- Nothing is planned that the record holds. -/
structure FreshPlan (record : TournamentRecord) (plan : AcceptancePlan) : Prop where
  /-- No person gets a second participant. -/
  individuals : Fresh (individualsOf record.participants) (individualsOf plan.newParticipants)
  /-- No members get a second pair. -/
  pairs : Fresh (pairsOf record.participants) (pairsOf plan.newParticipants)
  /-- No entry is planned again. -/
  entries : ∀ eventId ids, (eventId, ids) ∈ plan.entryMap →
    ∀ participantId ∈ ids, ¬ Entered record eventId participantId

/-! ## The invariant -/

/-- What every plan of the loop meets. -/
structure Sound (record : TournamentRecord) (plan : AcceptancePlan) : Prop where
  /-- Persons are looked up in the record and in what is planned. -/
  individuals : ∀ personId, personId ≠ "" → plan.individualByPerson personId =
    lastOf personId (individualsOf (record.participants ++ plan.newParticipants))
  /-- So are members. -/
  pairs : ∀ key, plan.pairByMembers key =
    lastOf key (pairsOf (record.participants ++ plan.newParticipants))
  /-- Invites lead to pairs that are known by their members. -/
  invites : ∀ inviteId pairId, plan.pairByInvite inviteId = some pairId →
    ∃ key, plan.pairByMembers key = some pairId
  /-- No person gets a second participant. -/
  freshIndividuals : Fresh (individualsOf record.participants) (individualsOf plan.newParticipants)
  /-- No members get a second pair. -/
  freshPairs : Fresh (pairsOf record.participants) (pairsOf plan.newParticipants)
  /-- Ids are no empty texts. -/
  named : Named (record.participants ++ plan.newParticipants)
  /-- The entries of the record are known. -/
  existing : plan.existingEntries = (newPlan record).existingEntries
  /-- Every event is listed once. -/
  events : (plan.entryMap.map Prod.fst).Nodup
  /-- Entries are planned once, and where the record has none. -/
  entries : ∀ eventId ids, (eventId, ids) ∈ plan.entryMap → eventId ≠ "" ∧ ids.Nodup ∧
    ∀ participantId ∈ ids, participantId ≠ "" ∧
      entryKey participantId eventId ∉ plan.existingEntries

variable {record : TournamentRecord} {plan : AcceptancePlan}

theorem individualsOf_append (participants more : List Participant) :
    individualsOf (participants ++ more) = individualsOf participants ++ individualsOf more :=
  List.filterMap_append

theorem pairsOf_append (participants more : List Participant) :
    pairsOf (participants ++ more) = pairsOf participants ++ pairsOf more :=
  List.filterMap_append

theorem sound_newPlan (hnamed : Named record.participants) : Sound record (newPlan record) where
  individuals := fun personId _ => by
    rw [newPlan_individuals]
    exact congrArg (fun ps => lastOf personId (individualsOf ps)) (List.append_nil _).symm
  pairs := fun key => by
    rw [newPlan_pairs]
    exact congrArg (fun ps => lastOf key (pairsOf ps)) (List.append_nil _).symm
  invites := fun _ _ h => (nomatch h)
  freshIndividuals := fresh_nil _
  freshPairs := fresh_nil _
  named := by
    have hnil : record.participants ++ (newPlan record).newParticipants = record.participants :=
      List.append_nil _
    rw [hnil]
    exact hnamed
  existing := rfl
  events := List.nodup_nil
  entries := fun _ _ h => absurd h List.not_mem_nil

/-- A sound plan holds nothing that its record holds. -/
theorem Sound.fresh (h : Sound record plan) : FreshPlan record plan where
  individuals := h.freshIndividuals
  pairs := h.freshPairs
  entries := by
    intro eventId ids hids participantId hin hentered
    obtain ⟨hevent, -, hentries⟩ := h.entries eventId ids hids
    obtain ⟨hne, hmissing⟩ := hentries participantId hin
    rw [h.existing] at hmissing
    obtain ⟨event, hmem, hid, hentry⟩ := hentered
    refine hmissing (List.mem_flatMap.mpr ⟨event, hmem, ?_⟩)
    rw [truthy_eq_some.mpr ⟨hid, hevent⟩]
    exact List.mem_map.mpr ⟨participantId, List.mem_filter.mpr ⟨hentry, decide_eq_true hne⟩, rfl⟩

/-! ## One turn -/

/-- A registration reserves no empty id. -/
def Reserves (registration : Option RegistrationSnapshot) : Prop :=
  ∀ reg, registration = some reg → reg.participantId ≠ some ""

theorem newIndividual_entry (reads : Reads) (canonical : Option CanonicalPerson)
    (personId : String) (registration : Option RegistrationSnapshot) (participantId : String) :
    individualEntry (newIndividual reads canonical personId registration participantId) =
      if personId = "" then none else some (personId, participantId) := by
  have htype : (newIndividual reads canonical personId registration
    participantId).participantType = "INDIVIDUAL" := rfl
  have hids : ((newIndividual reads canonical personId registration participantId).person.map
      Person.personOtherIds).getD [] =
        if personId = "" then [] else [⟨CANONICAL_PERSON, personId, some reads.now⟩] := rfl
  unfold individualEntry canonicalId
  rw [if_pos htype, hids]
  by_cases hempty : personId = ""
  · rw [if_pos hempty, if_pos hempty]
    rfl
  · rw [if_neg hempty, if_neg hempty, List.find?_cons, decide_eq_true rfl]
    have htruthy : truthy (some personId) = some personId := truthy_eq_some.mpr ⟨rfl, hempty⟩
    simp only [Option.map_some, htruthy]
    rfl

/-- What is looked up is no empty text. -/
theorem Sound.individual_ne (h : Sound record plan) {personId participantId : String}
    (hne : personId ≠ "") (hfound : plan.individualByPerson personId = some participantId) :
    participantId ≠ "" :=
  h.named.1 (personId, participantId) (mem_of_lastOf ((h.individuals personId hne).symm.trans hfound))

theorem Sound.pair_ne (h : Sound record plan) {key pairId : String}
    (hfound : plan.pairByMembers key = some pairId) : pairId ≠ "" :=
  h.named.2 (key, pairId) (mem_of_lastOf ((h.pairs key).symm.trans hfound))

/-- Ids stay named when a participant with an id is planned. -/
theorem Named.concat {participants more : List Participant} (h : Named (participants ++ more))
    {p : Participant} (hp : p.participantId ≠ "") : Named (participants ++ (more ++ [p])) := by
  rw [← List.append_assoc]
  refine ⟨fun entry hentry => ?_, fun entry hentry => ?_⟩
  · rw [individualsOf_append] at hentry
    rcases List.mem_append.mp hentry with hold | hnew
    · exact h.1 entry hold
    · obtain ⟨q, hq, hvalue⟩ := List.mem_filterMap.mp hnew
      rw [List.mem_singleton.mp hq] at hvalue
      unfold individualEntry at hvalue
      split_ifs at hvalue
      obtain ⟨_, -, rfl⟩ := Option.map_eq_some_iff.mp hvalue
      exact hp
  · rw [pairsOf_append] at hentry
    rcases List.mem_append.mp hentry with hold | hnew
    · exact h.2 entry hold
    · obtain ⟨q, hq, hvalue⟩ := List.mem_filterMap.mp hnew
      rw [List.mem_singleton.mp hq] at hvalue
      unfold pairEntry at hvalue
      split_ifs at hvalue
      obtain ⟨_, -, rfl⟩ := Option.map_eq_some_iff.mp hvalue
      exact hp

theorem sound_ensureIndividual {ctx : BulkAcceptContext} (hmint : ∀ n, ctx.reads.mint n ≠ "")
    (h : Sound record plan) (moment : ℕ) (personId : String)
    {registration : Option RegistrationSnapshot} (hreserves : Reserves registration) :
    Sound record (ensureIndividual ctx moment personId registration plan).2 := by
  unfold ensureIndividual
  cases hcached : truthy (plan.individualByPerson personId) with
  | some cached =>
    unfold queueForeignIdStamps
    dsimp only
    split_ifs
    · exact ⟨h.individuals, h.pairs, h.invites, h.freshIndividuals, h.freshPairs, h.named,
        h.existing, h.events, h.entries⟩
    · exact h
  | none =>
    dsimp only
    split_ifs
    · exact h
    have hid : (registration.bind RegistrationSnapshot.participantId).getD
        (ctx.reads.mint plan.newParticipants.length) ≠ "" := by
      cases hreg : registration.bind RegistrationSnapshot.participantId with
      | none => exact hmint _
      | some reserved =>
        rintro rfl
        obtain ⟨reg, hregistration, hreserved⟩ := Option.bind_eq_some_iff.mp hreg
        exact hreserves reg hregistration hreserved
    generalize (registration.bind RegistrationSnapshot.participantId).getD
      (ctx.reads.mint plan.newParticipants.length) = participantId at hid ⊢
    have hentry := newIndividual_entry ctx.reads (ctx.reads.person moment personId) personId
      registration participantId
    have hnamed : (newIndividual ctx.reads (ctx.reads.person moment personId) personId registration
      participantId).participantId ≠ "" := hid
    have hpair : pairEntry (newIndividual ctx.reads (ctx.reads.person moment personId) personId
      registration participantId) = none := by
      have htype : "INDIVIDUAL" ≠ "PAIR" := by decide
      exact if_neg htype
    generalize newIndividual ctx.reads (ctx.reads.person moment personId) personId registration
      participantId = p at hentry hpair hnamed ⊢
    have hfree : ∀ pair, individualEntry p = some pair →
        pair.1 ∉ (individualsOf (record.participants ++ plan.newParticipants)).map Prod.fst := by
      intro pair hp
      rw [hentry] at hp
      split_ifs at hp with hempty
      cases hp
      rw [← lastOf_eq_none, ← h.individuals personId hempty]
      cases hfound : plan.individualByPerson personId with
      | none => rfl
      | some found =>
        rw [hfound, truthy_eq_some.mpr ⟨rfl, h.individual_ne hempty hfound⟩] at hcached
        cases hcached
    refine ⟨fun other hother => ?_, fun key => ?_, h.invites, h.freshIndividuals.concat_item hfree,
      h.freshPairs.concat_item fun pair hp => (nomatch hpair.symm.trans hp), h.named.concat hnamed,
      h.existing, h.events, h.entries⟩
    · have hlast := lastOf_concat_item individualEntry record.participants plan.newParticipants p
        other
      refine Eq.trans ?_ hlast.symm
      rw [hentry]
      by_cases hempty : personId = ""
      · rw [if_pos hempty]
        refine (Function.update_of_ne ?_ _ _).trans (h.individuals other hother)
        exact fun heq => hother (heq.trans hempty)
      · rw [if_neg hempty]
        by_cases hsame : other = personId
        · subst hsame
          rw [setFound_self]
          exact Function.update_self _ _ _
        · rw [setFound_of_ne _ _ hsame]
          exact (Function.update_of_ne hsame _ _).trans (h.individuals other hother)
    · have hlast := lastOf_concat_item pairEntry record.participants plan.newParticipants p key
      rw [hpair] at hlast
      exact (h.pairs key).trans hlast.symm

/-- The id of a pair is no empty text. -/
theorem Sound.ensurePair_ne {ctx : BulkAcceptContext} (hmint : ∀ n, ctx.reads.mint n ≠ "")
    (h : Sound record plan) (inviteId a b : String) :
    (ensurePair ctx.reads plan inviteId a b).1 ≠ "" := by
  unfold ensurePair
  cases hinvite : truthy (plan.pairByInvite inviteId) with
  | some byInvite => exact (truthy_eq_some.mp hinvite).2
  | none =>
    dsimp only
    cases hmembers : plan.pairByMembers (membersKey [a, b]) with
    | none => exact hmint _
    | some existing => exact h.pair_ne hmembers

/-- An invite comes to lead to a pair that is known by its members. -/
theorem invites_update {invites members : String → Option String}
    (h : ∀ inviteId pairId, invites inviteId = some pairId → ∃ key, members key = some pairId)
    {inviteId pairId key : String} (hkey : members key = some pairId) :
    ∀ other otherId, Function.update invites inviteId (some pairId) other = some otherId →
      ∃ key, members key = some otherId := by
  intro other otherId hfound
  by_cases hsame : other = inviteId
  · rw [hsame, Function.update_self] at hfound
    exact ⟨key, hkey.trans hfound⟩
  · rw [Function.update_of_ne hsame] at hfound
    exact h other otherId hfound

/-- The pair that is planned. -/
def newPair (pairId a b : String) : Participant where
  participantId := pairId
  participantType := "PAIR"
  participantRole := some "COMPETITOR"
  participantName := none
  individualParticipantIds := some [a, b]
  participantOtherIds := []
  person := none

theorem sound_ensurePair {ctx : BulkAcceptContext} (hmint : ∀ n, ctx.reads.mint n ≠ "")
    (h : Sound record plan) (inviteId a b : String) :
    Sound record (ensurePair ctx.reads plan inviteId a b).2 := by
  unfold ensurePair
  cases hinvite : truthy (plan.pairByInvite inviteId) with
  | some byInvite => exact h
  | none =>
    dsimp only
    cases hmembers : plan.pairByMembers (membersKey [a, b]) with
    | some existing =>
      rw [truthy_eq_some.mpr ⟨rfl, h.pair_ne hmembers⟩]
      exact ⟨h.individuals, h.pairs, invites_update h.invites hmembers, h.freshIndividuals,
        h.freshPairs, h.named, h.existing, h.events, h.entries⟩
    | none =>
      have hid := hmint plan.newParticipants.length
      rw [Option.getD_none]
      generalize ctx.reads.mint plan.newParticipants.length = pairId at hid ⊢
      rw [if_neg (by decide)]
      have hfree : membersKey [a, b] ∉
          (pairsOf (record.participants ++ plan.newParticipants)).map Prod.fst := by
        rw [← lastOf_eq_none, ← h.pairs, hmembers]
      have hentry : pairEntry (newPair pairId a b) = some (membersKey [a, b], pairId) := rfl
      have hindividual : individualEntry (newPair pairId a b) = none := rfl
      have hpairId : (newPair pairId a b).participantId ≠ "" := hid
      change Sound record
        { plan with
          newParticipants := plan.newParticipants ++ [newPair pairId a b]
          pairByMembers := Function.update plan.pairByMembers (membersKey [a, b]) (some pairId)
          pairByInvite := Function.update plan.pairByInvite inviteId (some pairId) }
      generalize membersKey [a, b] = key at hmembers hfree hentry ⊢
      generalize newPair pairId a b = p at hentry hindividual hpairId ⊢
      refine ⟨fun personId hne => ?_, fun other => ?_,
        invites_update (fun other otherId hfound => ?_) (Function.update_self _ _ _),
        h.freshIndividuals.concat_item fun pair hp => (nomatch hindividual.symm.trans hp),
        h.freshPairs.concat_item fun pair hp => ?_, h.named.concat hpairId, h.existing, h.events,
        h.entries⟩
      · have hlast := lastOf_concat_item individualEntry record.participants plan.newParticipants
          p personId
        rw [hindividual] at hlast
        exact (h.individuals personId hne).trans hlast.symm
      · refine Eq.trans ?_ (lastOf_concat_item pairEntry record.participants
          plan.newParticipants p other).symm
        rw [hentry]
        by_cases hsame : other = key
        · subst hsame
          rw [setFound_self]
          exact Function.update_self _ _ _
        · rw [setFound_of_ne _ _ hsame]
          exact (Function.update_of_ne hsame _ _).trans (h.pairs other)
      · obtain ⟨there, hthere⟩ := h.invites other otherId hfound
        have hne : there ≠ key := by
          rintro rfl
          exact (nomatch hmembers.symm.trans hthere)
        exact ⟨there, (Function.update_of_ne hne _ _).trans hthere⟩
      · rw [← Option.some.inj (hentry.symm.trans hp)]
        exact hfree

/-- The events that are entered, one more of them. -/
theorem keys_addToEvent (eventId participantId : String)
    (entryMap : List (String × List String)) :
    (addToEvent eventId participantId entryMap).map Prod.fst =
      addItem (entryMap.map Prod.fst) eventId := by
  induction entryMap with
  | nil => rfl
  | cons entry rest ih =>
    obtain ⟨key, ids⟩ := entry
    unfold addToEvent
    by_cases hkey : key = eventId
    · rw [if_pos hkey, hkey]
      exact (if_pos List.mem_cons_self).symm
    · rw [if_neg hkey, List.map_cons, ih, List.map_cons]
      unfold addItem
      have hmem : eventId ∈ key :: rest.map Prod.fst ↔ eventId ∈ rest.map Prod.fst :=
        List.mem_cons.trans (or_iff_right (Ne.symm hkey))
      simp only [hmem]
      split_ifs <;> rfl

/-- What the events hold after an addition. -/
theorem mem_addToEvent_cases {eventId participantId key : String} {ids : List String}
    {entryMap : List (String × List String)}
    (h : (key, ids) ∈ addToEvent eventId participantId entryMap) :
    (key, ids) ∈ entryMap ∨ key = eventId ∧ ∃ old, (old = [] ∨ (key, old) ∈ entryMap) ∧
      ids = addItem old participantId := by
  induction entryMap with
  | nil =>
    obtain ⟨rfl, rfl⟩ := Prod.mk.inj (List.mem_singleton.mp h)
    exact Or.inr ⟨rfl, [], Or.inl rfl, rfl⟩
  | cons entry rest ih =>
    obtain ⟨there, old⟩ := entry
    unfold addToEvent at h
    split_ifs at h with hkey
    · rcases List.mem_cons.mp h with heq | hin
      · obtain ⟨rfl, rfl⟩ := Prod.mk.inj heq
        exact Or.inr ⟨hkey, old, Or.inr List.mem_cons_self, rfl⟩
      · exact Or.inl (List.mem_cons_of_mem _ hin)
    · rcases List.mem_cons.mp h with heq | hin
      · exact Or.inl (heq ▸ List.mem_cons_self)
      · refine (ih hin).imp (List.mem_cons_of_mem _) ?_
        rintro ⟨hsame, before, hbefore, hids⟩
        exact ⟨hsame, before, hbefore.imp id (List.mem_cons_of_mem _), hids⟩

theorem nodup_addItem {items : List String} (h : items.Nodup) (item : String) :
    (addItem items item).Nodup := by
  unfold addItem
  split_ifs with hin
  · exact h
  · refine List.Nodup.append h (List.nodup_singleton _) fun other hold hnew => ?_
    rw [List.mem_singleton.mp hnew] at hold
    exact hin hold

theorem sound_addEntry (h : Sound record plan) {eventId participantId : String}
    (hevent : eventId ≠ "") (hid : participantId ≠ "") :
    Sound record (addEntry plan eventId participantId) := by
  unfold addEntry
  split_ifs with hthere
  · exact h
  · refine ⟨h.individuals, h.pairs, h.invites, h.freshIndividuals, h.freshPairs, h.named,
      h.existing, ?_, fun key ids hin => ?_⟩
    · rw [keys_addToEvent]
      exact nodup_addItem h.events eventId
    · rcases mem_addToEvent_cases hin with hold | ⟨rfl, old, hbefore, rfl⟩
      · exact h.entries key ids hold
      · have hold : old.Nodup ∧ ∀ other ∈ old, other ≠ "" ∧
            entryKey other key ∉ plan.existingEntries := by
          rcases hbefore with rfl | hbefore
          · exact ⟨List.nodup_nil, fun _ h => absurd h List.not_mem_nil⟩
          · exact (h.entries key old hbefore).2
        refine ⟨hevent, nodup_addItem hold.1 participantId, fun other hother => ?_⟩
        rcases mem_addItem.mp hother with hother | rfl
        · exact hold.2 other hother
        · exact ⟨hid, hthere⟩

theorem sound_addEntries (h : Sound record plan) {eventIds : List String}
    (hevents : ∀ eventId ∈ eventIds, eventId ≠ "") {participantId : String}
    (hid : participantId ≠ "") :
    Sound record
      (eventIds.foldl (fun plan eventId => addEntry plan eventId participantId) plan) := by
  induction eventIds generalizing plan with
  | nil => exact h
  | cons eventId rest ih =>
    exact ih (sound_addEntry h (hevents eventId List.mem_cons_self) hid)
      fun other hother => hevents other (List.mem_cons_of_mem _ hother)

/-- Events resolve to ids that are no empty texts. -/
theorem resolveAcceptedEventIds_ne {requested : List String} {eventId : String}
    (h : eventId ∈ resolveAcceptedEventIds record requested) : eventId ≠ "" := by
  have hidentified : ∀ entry ∈ record.events.filterMap (fun event =>
      (truthy event.eventId).map fun eventId => (truthy event.eventName, eventId)),
        entry.2 ≠ "" := by
    intro entry hentry
    obtain ⟨event, -, hevent⟩ := List.mem_filterMap.mp hentry
    obtain ⟨eventId, hid, rfl⟩ := Option.map_eq_some_iff.mp hevent
    exact (truthy_eq_some.mp hid).2
  unfold resolveAcceptedEventIds at h
  dsimp only at h
  obtain ⟨r, -, hresolved⟩ := List.mem_filterMap.mp (mem_setOf.mp h)
  split_ifs at hresolved with hid
  · obtain ⟨entry, hentry, rfl⟩ := List.mem_map.mp hid
    rw [← Option.some.inj hresolved]
    exact hidentified entry hentry
  · obtain ⟨entry, hentry, hname⟩ := List.mem_filterMap.mp (mem_of_lastOf hresolved)
    obtain ⟨name, -, hpair⟩ := Option.map_eq_some_iff.mp hname
    rw [← (Prod.mk.inj hpair).2]
    exact hidentified entry hentry

variable {ctx : BulkAcceptContext}

/-- What a complete pair is made of. -/
theorem invitedPair_reads {moment : ℕ} {reg : RegistrationSnapshot} {pair : InvitedPair}
    (h : invitedPair ctx moment reg = .ok (some pair)) :
    (∃ key, pair.partnerReg = ctx.byPersonAndInvite key) ∧
      ∃ requested, pair.pairEventId =
        (resolveAcceptedEventIds ctx.tournamentRecord requested).head? := by
  unfold invitedPair at h
  cases hinvite : truthy reg.partnerInviteId with
  | none =>
    rw [hinvite] at h
    cases h
  | some inviteId =>
    rw [hinvite] at h
    dsimp only at h
    cases hstatus : ctx.reads.pairStatus moment inviteId with
    | error failure =>
      rw [hstatus] at h
      cases h
    | ok found =>
      rw [hstatus] at h
      cases found with
      | none => cases h
      | some status =>
        dsimp only at h
        split at h
        · cases h
          exact ⟨⟨_, rfl⟩, _, rfl⟩
        · cases h

theorem sound_foldIn (h : Sound record plan) (partnerReg : Option RegistrationSnapshot) :
    Sound record (foldIn plan partnerReg) := by
  cases partnerReg with
  | none => exact h
  | some partner =>
    exact ⟨h.individuals, h.pairs, h.invites, h.freshIndividuals, h.freshPairs, h.named,
      h.existing, h.events, h.entries⟩

theorem sound_enterPair (hmint : ∀ n, ctx.reads.mint n ≠ "") (h : Sound record plan)
    {pair : InvitedPair} (hevent : ∀ eventId, pair.pairEventId = some eventId → eventId ≠ "")
    (participantId partnerParticipantId : String) :
    Sound record (enterPair ctx pair participantId partnerParticipantId plan) := by
  have hensured := sound_ensurePair hmint h pair.inviteId participantId partnerParticipantId
  have hne := h.ensurePair_ne hmint pair.inviteId participantId partnerParticipantId
  unfold enterPair
  cases hpair : pair.pairEventId with
  | none => exact sound_foldIn hensured _
  | some eventId => exact sound_foldIn (sound_addEntry hensured (hevent eventId hpair) hne) _

theorem sound_planPair (hmint : ∀ n, ctx.reads.mint n ≠ "")
    (hpartners : ∀ key, Reserves (ctx.byPersonAndInvite key)) (h : Sound record plan)
    {moment : ℕ} {reg : RegistrationSnapshot} {participantId : String}
    {pairEventId : Option String} {later : AcceptancePlan}
    (hplan : planPair ctx moment reg participantId plan = .ok (pairEventId, later)) :
    Sound record later := by
  unfold planPair at hplan
  cases hinvited : invitedPair ctx moment reg with
  | error failure =>
    rw [hinvited] at hplan
    cases hplan
  | ok found =>
    rw [hinvited] at hplan
    cases found with
    | none =>
      cases hplan
      exact h
    | some pair =>
      dsimp only at hplan
      obtain ⟨⟨key, hkey⟩, requested, hrequested⟩ := invitedPair_reads hinvited
      have hensured := sound_ensureIndividual hmint h moment pair.partnerPersonId
        (hkey ▸ hpartners key)
      generalize ensureIndividual ctx moment pair.partnerPersonId pair.partnerReg plan = ensured
        at hplan hensured
      cases hpartner : truthy ensured.1 with
      | none =>
        rw [hpartner] at hplan
        cases hplan
        exact hensured
      | some partnerId =>
        rw [hpartner] at hplan
        cases hplan
        refine sound_enterPair hmint hensured (fun eventId hevent => ?_) participantId partnerId
        rw [hrequested] at hevent
        exact resolveAcceptedEventIds_ne (List.mem_of_head? hevent)

/-- What one turn preserves. -/
theorem sound_planNext (hmint : ∀ n, ctx.reads.mint n ≠ "")
    (hpartners : ∀ key, Reserves (ctx.byPersonAndInvite key)) {reg : RegistrationSnapshot}
    (hreg : reg.participantId ≠ some "") {batch b : Batch} (h : Sound record batch.plan)
    (hnext : planNext ctx (.ok batch) reg = .ok b) : Sound record b.plan := by
  unfold planNext at hnext
  dsimp only at hnext
  by_cases hhandled : reg.declarationId ∈ batch.plan.handled
  · rw [if_pos hhandled] at hnext
    cases hnext
    exact h
  rw [if_neg hhandled] at hnext
  unfold planOne at hnext
  cases hrefusal : refusal ctx reg with
  | some result =>
    rw [hrefusal] at hnext
    cases hnext
    exact h
  | none =>
    rw [hrefusal] at hnext
    dsimp only at hnext
    have hreserves : Reserves (some reg) := by
      rintro other heq
      rw [← Option.some.inj heq]
      exact hreg
    have hensured := sound_ensureIndividual hmint h batch.results.length reg.personId hreserves
    generalize ensureIndividual ctx batch.results.length reg.personId (some reg) batch.plan =
      ensured at hnext hensured
    cases hid : truthy ensured.1 with
    | none =>
      rw [hid] at hnext
      cases hnext
      exact hensured
    | some participantId =>
      rw [hid] at hnext
      dsimp only at hnext
      cases hpair : planPair ctx batch.results.length reg participantId ensured.2 with
      | error failure =>
        rw [hpair] at hnext
        cases hnext
      | ok paired =>
        obtain ⟨pairEventId, paired⟩ := paired
        rw [hpair] at hnext
        cases hnext
        have hpaired := sound_planPair hmint hpartners hensured hpair
        have hentered := sound_addEntries hpaired
          (fun eventId hin => resolveAcceptedEventIds_ne (List.mem_of_mem_filter hin) :
            ∀ eventId ∈ (resolveAcceptedEventIds ctx.tournamentRecord reg.eventIds).filter
              fun eventId => some eventId ≠ pairEventId, eventId ≠ "")
          (truthy_eq_some.mp hid).2
        exact ⟨hentered.individuals, hentered.pairs, hentered.invites, hentered.freshIndividuals,
          hentered.freshPairs, hentered.named, hentered.existing, hentered.events,
          hentered.entries⟩

/-- What the turns of a batch preserve. -/
theorem sound_loop (hmint : ∀ n, ctx.reads.mint n ≠ "")
    (hpartners : ∀ key, Reserves (ctx.byPersonAndInvite key)) {targets : List RegistrationSnapshot}
    (htargets : ∀ reg ∈ targets, reg.participantId ≠ some "") {start : Except String Batch}
    (hstart : ∀ b, start = .ok b → Sound record b.plan) :
    ∀ b, targets.foldl (planNext ctx) start = .ok b → Sound record b.plan := by
  induction targets generalizing start with
  | nil => exact hstart
  | cons reg rest ih =>
    refine ih (fun other hother => htargets other (List.mem_cons_of_mem _ hother)) fun b hb => ?_
    cases start with
    | error failure => cases hb
    | ok batch =>
      exact sound_planNext hmint hpartners (htargets reg List.mem_cons_self) (hstart batch rfl) hb

/-- What a batch plans is sound. -/
theorem sound_planBatch (hmint : ∀ n, ctx.reads.mint n ≠ "")
    (hpartners : ∀ key, Reserves (ctx.byPersonAndInvite key))
    (hnamed : Named ctx.tournamentRecord.participants) {targets : List RegistrationSnapshot}
    (htargets : ∀ reg ∈ targets, reg.participantId ≠ some "") {batch : Batch}
    (hbatch : planBatch ctx targets = .ok batch) : Sound ctx.tournamentRecord batch.plan :=
  sound_loop hmint hpartners htargets
    (fun _ hb => Except.ok.inj hb ▸ sound_newPlan hnamed) batch hbatch

end FactoryServer.AcceptancePlans
