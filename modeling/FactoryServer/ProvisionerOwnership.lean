import FactoryServer.RequestIdentity

/-!
# Owner-only provisioner operations

A provisioner manages providers as owner or subsidiary. The owner guard tests
the relationship to the provider of the `X-Provider-Id` header, which a
middleware computed, while the subsidiary handlers act on the provider of the
path. This module states when the two agree, for one request and for whole
sequences of requests, since a granted relationship enables the next request.
-/

namespace FactoryServer.ProvisionerOwnership

open JsonValue TournamentAccess RequestIdentity

/-- The columns of a provider row that the provisioner operations write. -/
structure ProviderRow where
  /-- Abbreviation, unique over all providers. -/
  organisationAbbreviation : String
  /-- Display name. -/
  organisationName : Option String
  /-- Provisioner-controlled configuration. -/
  providerConfigCaps : Json
  /-- Provider-controlled configuration. -/
  providerConfigSettings : Json
  /-- Inactive flag. -/
  inactive : Bool

/-- The tables the provisioner controller works on. -/
structure ProvisionerStore where
  /-- Identity tables, the associations among them. -/
  identity : IdentityStore
  /-- `providers`, by id. -/
  providers : List (String × ProviderRow)

/-- Body of `PUT providers/:providerId`. -/
structure ProviderUpdate where
  /-- Legacy single configuration blob, read as caps. -/
  providerConfig : Option Json
  /-- Caps. -/
  providerConfigCaps : Option Json
  /-- Settings. -/
  providerConfigSettings : Option Json
  /-- Display name. -/
  organisationName : Option String
  /-- Inactive flag. -/
  inactive : Option Bool

/-- The operations of the provisioner controller that read or write providers
and associations. `createProvider` carries the id `randomUUID` returned. -/
inductive ProvisionerCall where
  | createProvider (newId abbreviation : String) (name : Option String) (caps settings : Json)
  | updateProvider (pathId : String) (update : ProviderUpdate)
  | updateProviderCaps (pathId : String) (caps : Json)
  | grantSubsidiary (pathId target : String)
  | listSubsidiaries (pathId : String)
  | revokeSubsidiary (pathId target : String)

/-- Methods behind the owner guard. -/
def ProvisionerCall.ownerOnly : ProvisionerCall → Bool
  | .createProvider .. => false
  | _ => true

/-- Every call but the listing uses a write method. -/
def ProvisionerCall.isWrite : ProvisionerCall → Bool
  | .listSubsidiaries _ => false
  | _ => true

/-- `associate`: insert, or overwrite the row of the same pair. -/
def associate (associations : List Association) (row : Association) : List Association :=
  if associations.any (fun a => a.provisionerId == row.provisionerId &&
      a.providerId == row.providerId) then
    associations.map fun a =>
      if a.provisionerId == row.provisionerId && a.providerId == row.providerId then row else a
  else associations ++ [row]

/-- `disassociate`. -/
def disassociate (associations : List Association) (provisionerId providerId : String) :
    List Association :=
  associations.filter fun a => !(a.provisionerId == provisionerId && a.providerId == providerId)

/-- `setProvider`: insert, or overwrite the row of the same id. -/
def setProvider (providers : List (String × ProviderRow)) (providerId : String)
    (row : ProviderRow) : List (String × ProviderRow) :=
  if providers.any (fun p => p.1 == providerId) then
    providers.map fun p => if p.1 == providerId then (providerId, row) else p
  else providers ++ [(providerId, row)]

/-- The rows of one provider. -/
def associationsOf (associations : List Association) (providerId : String) : List Association :=
  associations.filter fun a => a.providerId == providerId

/-- Replace the association table. -/
def ProvisionerStore.withAssociations (store : ProvisionerStore) (rows : List Association) :
    ProvisionerStore :=
  { store with identity := { store.identity with associations := rows } }

/-- `createProvider`: the abbreviation must be new; the creator becomes owner. -/
def createProvider (store : ProvisionerStore) (caller newId abbreviation : String)
    (name : Option String) (caps settings : Json) : ProvisionerStore :=
  if store.providers.any (fun p => p.2.organisationAbbreviation == abbreviation) then store else
  let row : ProviderRow := ⟨abbreviation, name, caps, settings, false⟩
  { store with providers := setProvider store.providers newId row }.withAssociations
    (associate store.identity.associations ⟨caller, newId, .owner, none⟩)

/-- `updateProviderConfig`. -/
def updateProviderConfig (store : ProvisionerStore) (providerId : String)
    (update : ProviderUpdate) : ProvisionerStore :=
  match store.providers.lookup providerId with
  | none => store
  | some row =>
    let updated : ProviderRow :=
      { row with
        providerConfigCaps := (update.providerConfigCaps.or update.providerConfig).getD
          row.providerConfigCaps
        providerConfigSettings := update.providerConfigSettings.getD row.providerConfigSettings
        organisationName := update.organisationName.or row.organisationName
        inactive := update.inactive.getD row.inactive }
    { store with providers := setProvider store.providers providerId updated }

/-- `updateProviderCaps`, where `validateCaps` answers whether there are no issues. -/
def updateProviderCaps (validateCaps : Json → Bool) (store : ProvisionerStore)
    (providerId : String) (caps : Json) : ProvisionerStore :=
  match store.providers.lookup providerId with
  | none => store
  | some row =>
    if validateCaps caps then
      { store with
        providers :=
          setProvider store.providers providerId { row with providerConfigCaps := caps } }
    else store

/-- Run a handler: the new tables, and the provider whose associations or
configuration the handler read or changed. -/
def perform (validateCaps : Json → Bool) (store : ProvisionerStore) (caller : String)
    (header : Option String) : ProvisionerCall → ProvisionerStore × Option String
  | .createProvider newId abbreviation name caps settings =>
    (createProvider store caller newId abbreviation name caps settings, none)
  | .updateProvider pathId update =>
    let providerId := header.getD pathId
    (updateProviderConfig store providerId update, some providerId)
  | .updateProviderCaps pathId caps =>
    let providerId := header.getD pathId
    (updateProviderCaps validateCaps store providerId caps, some providerId)
  | .grantSubsidiary pathId target =>
    if store.identity.provisioners.any (fun p => p.provisionerId == target) then
      (store.withAssociations
        (associate store.identity.associations ⟨target, pathId, .subsidiary, some caller⟩),
        some pathId)
    else (store, none)
  | .listSubsidiaries pathId => (store, some pathId)
  | .revokeSubsidiary pathId target =>
    (store.withAssociations (disassociate store.identity.associations target pathId), some pathId)

/-- The provisioner a request is authenticated as. -/
def callerOf (verifier : TokenVerifier) (store : ProvisionerStore) (request : HttpRequest) :
    Option String :=
  (runMiddlewares verifier store.identity request).provisioner.map
    ProvisionerIdentity.provisionerId

/-- `ProvisionerOwnerGuard.canActivate`. -/
def ownerGuard (state : RequestState) : Bool :=
  state.provisioner.isSome && state.provisionerRelationship == some .owner

/-- The guards of the controller in order, then the handler; `none` is a refusal. -/
def handle (verifier : TokenVerifier) (validateCaps : Json → Bool) (moved : Bool)
    (store : ProvisionerStore) (request : HttpRequest) (call : ProvisionerCall) :
    Option (ProvisionerStore × Option String) :=
  let state := runMiddlewares verifier store.identity request
  if moved && call.isWrite then none else
  match state.provisioner with
  | none => none
  | some provisioner =>
    if call.ownerOnly && !ownerGuard state then none
    else some (perform validateCaps store provisioner.provisionerId request.xProviderId call)

/-- `p` owns `providerId` in the association table. -/
def Owns (store : ProvisionerStore) (p providerId : String) : Prop :=
  getRelationship store.identity.associations p providerId = some .owner

instance (store : ProvisionerStore) (p providerId : String) : Decidable (Owns store p providerId) :=
  inferInstanceAs (Decidable (_ = _))

/-- An owner-only operation touches only a provider its caller owns. -/
def OwnerOnly (verifier : TokenVerifier) (validateCaps : Json → Bool) (moved : Bool)
    (store : ProvisionerStore) (request : HttpRequest) (call : ProvisionerCall) : Prop :=
  ∀ store' providerId caller, call.ownerOnly = true →
    handle verifier validateCaps moved store request call = some (store', some providerId) →
    callerOf verifier store request = some caller → Owns store caller providerId

/-- The provider named by the path of a subsidiary operation is the header's,
or one the caller owns as well; a grant to an unknown provisioner does nothing. -/
def PathAgrees (store : ProvisionerStore) (caller : String) (request : HttpRequest) :
    ProvisionerCall → Prop
  | .grantSubsidiary pathId target =>
    request.xProviderId = some pathId ∨ Owns store caller pathId ∨
      store.identity.provisioners.any (fun p => p.provisionerId == target) = false
  | .listSubsidiaries pathId => request.xProviderId = some pathId ∨ Owns store caller pathId
  | .revokeSubsidiary pathId _ => request.xProviderId = some pathId ∨ Owns store caller pathId
  | _ => True

/-- The guards refuse the request, or its path agrees with its header. -/
def MeetsCondition (verifier : TokenVerifier) (validateCaps : Json → Bool) (moved : Bool)
    (store : ProvisionerStore) (request : HttpRequest) (call : ProvisionerCall) : Prop :=
  handle verifier validateCaps moved store request call = none ∨
    ∀ caller, callerOf verifier store request = some caller →
      PathAgrees store caller request call

section Request

variable {verifier : TokenVerifier} {validateCaps : Json → Bool} {moved : Bool}
  {store : ProvisionerStore} {request : HttpRequest} {call : ProvisionerCall}

/-- An admitted request is performed by its caller; an owner-only one names in
its header a provider the caller owns. -/
theorem handle_eq_some {out : ProvisionerStore × Option String} {caller : String}
    (h : handle verifier validateCaps moved store request call = some out)
    (hc : callerOf verifier store request = some caller) :
    out = perform validateCaps store caller request.xProviderId call ∧
      (call.ownerOnly = true →
        ∃ providerId, request.xProviderId = some providerId ∧ Owns store caller providerId) := by
  unfold handle at h
  unfold callerOf at hc
  obtain ⟨provisioner, hp, rfl⟩ := Option.map_eq_some_iff.mp hc
  simp only [hp] at h
  by_cases hmoved : (moved && call.isWrite) = true
  · rw [if_pos hmoved] at h; cases h
  rw [if_neg hmoved] at h
  by_cases hg :
      (call.ownerOnly && !ownerGuard (runMiddlewares verifier store.identity request)) = true
  · rw [if_pos hg] at h; cases h
  · rw [if_neg hg] at h
    refine ⟨(Option.some.inj h).symm, fun hown => ?_⟩
    have hrel : (runMiddlewares verifier store.identity request).provisionerRelationship =
        some .owner := by
      simp only [hown, Bool.true_and, Bool.not_eq_true, Bool.not_eq_false', ownerGuard,
        Bool.and_eq_true, beq_iff_eq] at hg
      exact hg.2
    obtain ⟨provisioner', providerId, hp', hx, hr⟩ :=
      runMiddlewares_verified verifier store.identity request _ hrel
    rw [hp] at hp'
    cases hp'
    exact ⟨providerId, (nonEmpty_eq_some.mp hx).1, hr⟩

/-- One request: the operation is about an owned provider exactly when the
guards refuse it or its path agrees with its header. -/
theorem ownerOnly_iff :
    OwnerOnly verifier validateCaps moved store request call ↔
      MeetsCondition verifier validateCaps moved store request call := by
  constructor
  · intro h
    cases hh : handle verifier validateCaps moved store request call with
    | none => exact Or.inl hh
    | some out =>
      refine Or.inr fun caller hc => ?_
      obtain ⟨rfl, -⟩ := handle_eq_some hh hc
      cases call with
      | grantSubsidiary pathId target =>
        cases ht : store.identity.provisioners.any (fun p => p.provisionerId == target) with
        | false => exact Or.inr (Or.inr ht)
        | true =>
          have hh' : handle verifier validateCaps moved store request
              (.grantSubsidiary pathId target) = some ((perform validateCaps store caller
                request.xProviderId (.grantSubsidiary pathId target)).1, some pathId) := by
            rw [hh]
            simp only [perform, ht, if_true]
          exact Or.inr (Or.inl (h _ pathId caller rfl hh' hc))
      | listSubsidiaries pathId => exact Or.inr (h _ pathId caller rfl hh hc)
      | revokeSubsidiary pathId target => exact Or.inr (h _ pathId caller rfl hh hc)
      | _ => trivial
  · intro h store' providerId caller hown hh hc
    obtain ⟨hout, howner⟩ := handle_eq_some hh hc
    obtain ⟨owned, hx, ho⟩ := howner hown
    rcases h with hn | h
    · rw [hn] at hh; cases hh
    have hp := h caller hc
    cases call with
    | createProvider => cases hown
    | updateProvider pathId update =>
      simp only [perform, hx, Option.getD_some, Prod.mk.injEq, Option.some.injEq] at hout
      exact hout.2 ▸ ho
    | updateProviderCaps pathId caps =>
      simp only [perform, hx, Option.getD_some, Prod.mk.injEq, Option.some.injEq] at hout
      exact hout.2 ▸ ho
    | grantSubsidiary pathId target =>
      simp only [perform] at hout
      split_ifs at hout with ht
      · simp only [Prod.mk.injEq, Option.some.injEq] at hout
        obtain ⟨-, rfl⟩ := hout
        rcases hp with hp | hp | hp
        · rw [hx, Option.some.injEq] at hp; exact hp ▸ ho
        · exact hp
        · rw [ht] at hp; cases hp
      · simp at hout
    | listSubsidiaries pathId =>
      simp only [perform, Prod.mk.injEq, Option.some.injEq] at hout
      obtain ⟨-, rfl⟩ := hout
      rcases hp with hp | hp
      · rw [hx, Option.some.injEq] at hp; exact hp ▸ ho
      · exact hp
    | revokeSubsidiary pathId target =>
      simp only [perform, Prod.mk.injEq, Option.some.injEq] at hout
      obtain ⟨-, rfl⟩ := hout
      rcases hp with hp | hp
      · rw [hx, Option.some.injEq] at hp; exact hp ▸ ho
      · exact hp

end Request

/-- A provider the tables know. -/
def Known (store : ProvisionerStore) (providerId : String) : Prop :=
  providerId ∈ store.providers.map Prod.fst ∨
    ∃ a ∈ store.identity.associations, a.providerId = providerId

/-- `randomUUID` returns an id the tables do not know. -/
def FreshId (store : ProvisionerStore) : ProvisionerCall → Prop
  | .createProvider newId .. => ¬ Known store newId
  | _ => True

/-- Rows of other providers are not touched by an association. -/
theorem associationsOf_associate {associations : List Association} {row : Association}
    {providerId : String} (h : row.providerId ≠ providerId) :
    associationsOf (associate associations row) providerId =
      associationsOf associations providerId := by
  have hmap : ∀ l : List Association,
      associationsOf (l.map fun a =>
        if a.provisionerId == row.provisionerId && a.providerId == row.providerId then row else a)
        providerId = associationsOf l providerId := by
    intro l
    induction l with
    | nil => rfl
    | cons a tail ih =>
      simp only [associationsOf] at ih ⊢
      rw [List.map_cons, List.filter_cons, List.filter_cons, ih]
      by_cases hc : (a.provisionerId == row.provisionerId && a.providerId == row.providerId) = true
      · have ha : a.providerId = row.providerId := by
          simp only [Bool.and_eq_true, beq_iff_eq] at hc
          exact hc.2
        rw [if_pos hc, ha, if_neg (by simpa using h), if_neg (by simpa using h)]
      · rw [if_neg hc]
  unfold associate
  split_ifs
  · exact hmap _
  · simp [associationsOf, h]

/-- Rows of other providers are not touched by a disassociation. -/
theorem associationsOf_disassociate {associations : List Association}
    {provisionerId other providerId : String} (h : other ≠ providerId) :
    associationsOf (disassociate associations provisionerId other) providerId =
      associationsOf associations providerId := by
  unfold associationsOf disassociate
  rw [List.filter_filter]
  apply List.filter_congr
  intro a _
  by_cases ha : a.providerId = providerId
  · simp [ha, Ne.symm h]
  · simp [ha]

/-- A relationship is decided by the rows of its provider. -/
theorem getRelationship_associationsOf (associations : List Association)
    (provisionerId providerId : String) :
    getRelationship (associationsOf associations providerId) provisionerId providerId =
      getRelationship associations provisionerId providerId := by
  unfold getRelationship associationsOf
  rw [List.find?_filter]
  congr 2
  funext a
  cases a.provisionerId == provisionerId <;> cases a.providerId == providerId <;> rfl

/-- A handler leaves the associations of every known provider that it does not
touch as they were. -/
theorem perform_frame (validateCaps : Json → Bool) {store : ProvisionerStore} {caller : String}
    {header : Option String} {call : ProvisionerCall} {providerId : String}
    (hk : Known store providerId) (hf : FreshId store call)
    (ht : (perform validateCaps store caller header call).2 ≠ some providerId) :
    associationsOf (perform validateCaps store caller header call).1.identity.associations
      providerId = associationsOf store.identity.associations providerId := by
  cases call with
  | createProvider newId abbreviation name caps settings =>
    have hne : newId ≠ providerId := by rintro rfl; exact hf hk
    simp only [perform, createProvider]
    split_ifs
    · rfl
    · exact associationsOf_associate hne
  | updateProvider pathId update =>
    simp only [perform, updateProviderConfig]
    cases store.providers.lookup (header.getD pathId) <;> rfl
  | updateProviderCaps pathId caps =>
    simp only [perform, updateProviderCaps]
    cases store.providers.lookup (header.getD pathId) with
    | none => rfl
    | some row => dsimp only; split_ifs <;> rfl
  | grantSubsidiary pathId target =>
    simp only [perform] at ht ⊢
    split_ifs at ht ⊢
    · exact associationsOf_associate fun h => ht (congrArg some h)
    · rfl
  | listSubsidiaries pathId => rfl
  | revokeSubsidiary pathId target =>
    exact associationsOf_disassociate fun h => ht (congrArg some h)

/-- Known providers stay known. -/
theorem known_of_associationsOf {store store' : ProvisionerStore} {providerId : String}
    (hp : ∀ id, id ∈ store.providers.map Prod.fst → id ∈ store'.providers.map Prod.fst)
    (ha : associationsOf store'.identity.associations providerId =
      associationsOf store.identity.associations providerId)
    (hk : Known store providerId) : Known store' providerId := by
  rcases hk with hk | ⟨a, hm, rfl⟩
  · exact Or.inl (hp _ hk)
  · right
    have : a ∈ associationsOf store'.identity.associations a.providerId := by
      rw [ha]; simp [associationsOf, hm]
    exact ⟨a, (List.mem_filter.mp this).1, rfl⟩

/-- Writing a provider row forgets no provider. -/
theorem mem_setProvider {providers : List (String × ProviderRow)} {providerId id : String}
    {row : ProviderRow} (h : id ∈ providers.map Prod.fst) :
    id ∈ (setProvider providers providerId row).map Prod.fst := by
  unfold setProvider
  split_ifs
  · rw [List.map_map]
    obtain ⟨p, hp, rfl⟩ := List.mem_map.mp h
    refine List.mem_map.mpr ⟨p, hp, ?_⟩
    simp only [Function.comp_apply]
    split_ifs with he
    · exact (beq_iff_eq.mp he).symm
    · rfl
  · simp only [List.map_append, List.mem_append]
    exact Or.inl h

/-- No operation removes a provider row. -/
theorem mem_perform (validateCaps : Json → Bool) {store : ProvisionerStore} {caller : String}
    {header : Option String} {call : ProvisionerCall} {id : String}
    (h : id ∈ store.providers.map Prod.fst) :
    id ∈ (perform validateCaps store caller header call).1.providers.map Prod.fst := by
  cases call with
  | createProvider newId abbreviation name caps settings =>
    simp only [perform, createProvider]
    split_ifs
    · exact h
    · exact mem_setProvider h
  | updateProvider pathId update =>
    simp only [perform, updateProviderConfig]
    cases store.providers.lookup (header.getD pathId) with
    | none => exact h
    | some row => exact mem_setProvider h
  | updateProviderCaps pathId caps =>
    simp only [perform, updateProviderCaps]
    cases store.providers.lookup (header.getD pathId) with
    | none => exact h
    | some row =>
      dsimp only
      split_ifs
      · exact mem_setProvider h
      · exact h
  | grantSubsidiary pathId target =>
    simp only [perform]
    split_ifs <;> exact h
  | listSubsidiaries pathId => exact h
  | revokeSubsidiary pathId target => exact h

section Run

variable (verifier : TokenVerifier) (validateCaps : Json → Bool) (moved : Bool)

/-- The tables after one request. -/
def step (store : ProvisionerStore) (r : HttpRequest × ProvisionerCall) : ProvisionerStore :=
  match handle verifier validateCaps moved store r.1 r.2 with
  | none => store
  | some out => out.1

/-- The tables after a sequence of requests. -/
def run (store : ProvisionerStore) (requests : List (HttpRequest × ProvisionerCall)) :
    ProvisionerStore :=
  requests.foldl (step verifier validateCaps moved) store

/-- Every request is authenticated as `caller` and meets the condition in the
tables it finds, and `createProvider` gets fresh ids. -/
def RunBy (caller : String) :
    ProvisionerStore → List (HttpRequest × ProvisionerCall) → Prop
  | _, [] => True
  | store, r :: rest =>
    callerOf verifier store r.1 = some caller ∧
    MeetsCondition verifier validateCaps moved store r.1 r.2 ∧ FreshId store r.2 ∧
    RunBy caller (step verifier validateCaps moved store r) rest

variable {verifier validateCaps moved}

/-- One step by a provisioner that does not own a known provider leaves that
provider's associations, and so its ownership, as they were. -/
theorem step_frame {caller providerId : String} {store : ProvisionerStore}
    {r : HttpRequest × ProvisionerCall} (hc : callerOf verifier store r.1 = some caller)
    (hm : MeetsCondition verifier validateCaps moved store r.1 r.2) (hf : FreshId store r.2)
    (hk : Known store providerId) (hn : ¬ Owns store caller providerId) :
    associationsOf (step verifier validateCaps moved store r).identity.associations providerId =
        associationsOf store.identity.associations providerId ∧
      Known (step verifier validateCaps moved store r) providerId := by
  unfold step
  cases hh : handle verifier validateCaps moved store r.1 r.2 with
  | none => exact ⟨rfl, hk⟩
  | some out =>
    obtain ⟨rfl, -⟩ := handle_eq_some hh hc
    have htouched :
        (perform validateCaps store caller r.1.xProviderId r.2).2 ≠ some providerId := by
      intro ht
      have hown : r.2.ownerOnly = true := by
        cases hr : r.2 with
        | createProvider => rw [hr] at ht; simp [perform] at ht
        | _ => rfl
      have hh' : handle verifier validateCaps moved store r.1 r.2 =
          some ((perform validateCaps store caller r.1.xProviderId r.2).1, some providerId) := by
        rw [hh, ← ht]
      exact hn (ownerOnly_iff.mpr hm _ providerId caller hown hh' hc)
    have ha := perform_frame validateCaps hk hf htouched
    exact ⟨ha, known_of_associationsOf (fun _ => mem_perform validateCaps) ha hk⟩

/-- A whole run by such a provisioner leaves the provider's associations as
they were. -/
theorem run_frame {caller providerId : String} {store : ProvisionerStore}
    {requests : List (HttpRequest × ProvisionerCall)}
    (hr : RunBy verifier validateCaps moved caller store requests)
    (hk : Known store providerId) (hn : ¬ Owns store caller providerId) :
    associationsOf (run verifier validateCaps moved store requests).identity.associations
      providerId = associationsOf store.identity.associations providerId := by
  induction requests generalizing store with
  | nil => rfl
  | cons r rest ih =>
    obtain ⟨hc, hm, hf, hrest⟩ := hr
    obtain ⟨ha, hk'⟩ := step_frame hc hm hf hk hn
    have hn' : ¬ Owns (step verifier validateCaps moved store r) caller providerId := by
      unfold Owns at hn ⊢
      rwa [← getRelationship_associationsOf, ha, getRelationship_associationsOf]
    exact (ih hrest hk' hn').trans ha

end Run

/-- A request touches only providers its caller owns exactly when the guards
refuse it or its path agrees with its header. In a run of such requests by one
provisioner no association of a provider it does not own changes, for it or for
any other provisioner. -/
theorem owner_only_operations_iff (verifier : TokenVerifier) (validateCaps : Json → Bool)
    (moved : Bool) :
    (∀ (store : ProvisionerStore) (request : HttpRequest) (call : ProvisionerCall),
      OwnerOnly verifier validateCaps moved store request call ↔
        MeetsCondition verifier validateCaps moved store request call) ∧
    (∀ (store : ProvisionerStore) (requests : List (HttpRequest × ProvisionerCall))
        (caller providerId : String),
      RunBy verifier validateCaps moved caller store requests → Known store providerId →
        ¬ Owns store caller providerId →
        associationsOf (run verifier validateCaps moved store requests).identity.associations
            providerId = associationsOf store.identity.associations providerId ∧
          ∀ other, getRelationship
              (run verifier validateCaps moved store requests).identity.associations other
              providerId = getRelationship store.identity.associations other providerId) := by
  refine ⟨fun _ _ _ => ownerOnly_iff, fun store requests caller providerId hr hk hn => ?_⟩
  have ha := run_frame hr hk hn
  refine ⟨ha, fun other => ?_⟩
  rw [← getRelationship_associationsOf, ha, getRelationship_associationsOf]

/-- Verifies no JWT: the sample callers use API keys. -/
def keysOnlyVerifier : TokenVerifier where
  verifyJwt _ := none
  hashApiKey key := key
  prov_rejected _ _ := rfl
  pkey_rejected _ _ := rfl

/-- Provisioner `p-a` owns `A` and holds the key `prov_a`, `p-b` owns `B`. -/
def twoOwners : ProvisionerStore where
  identity :=
    { findUser := fun _ => none
      userProviders := fun _ => []
      userProvisioners := fun _ => []
      associations := [⟨"p-a", "A", .owner, none⟩, ⟨"p-b", "B", .owner, none⟩]
      provisioners := [⟨"p-a", "First", true⟩, ⟨"p-b", "Second", true⟩]
      provisionerKey := fun hash => if hash = "prov_a" then some ⟨"p-a", "First", "k-1"⟩ else none
      providerKey := fun _ => none }
  providers := []

/-- A key request of `p-a` with its own provider in the header. -/
def keyRequest : HttpRequest :=
  ⟨"/provisioner/providers", some ["Bearer", "prov_a"], some "A", none⟩

/-- With its own provider `A` in the header, `p-a` makes itself a subsidiary of
`B` and then takes ownership of `B` away from `p-b`. -/
theorem owner_only_operations_violated :
    ¬ OwnerOnly keysOnlyVerifier (fun _ => true) false twoOwners keyRequest
        (.grantSubsidiary "B" "p-a") ∧
    getRelationship (run keysOnlyVerifier (fun _ => true) false twoOwners
        [(keyRequest, .grantSubsidiary "B" "p-a"),
          (keyRequest, .revokeSubsidiary "B" "p-b")]).identity.associations "p-a" "B" =
      some .subsidiary ∧
    getRelationship (run keysOnlyVerifier (fun _ => true) false twoOwners
        [(keyRequest, .grantSubsidiary "B" "p-a"),
          (keyRequest, .revokeSubsidiary "B" "p-b")]).identity.associations "p-b" "B" = none := by
  refine ⟨fun h => ?_, by decide, by decide⟩
  exact absurd (h _ "B" "p-a" rfl rfl rfl) (by decide)

theorem owner_only_operations_sample :
    RunBy keysOnlyVerifier (fun _ => true) false "p-a" twoOwners
        [(keyRequest, .grantSubsidiary "A" "p-b")] ∧
    getRelationship (run keysOnlyVerifier (fun _ => true) false twoOwners
        [(keyRequest, .grantSubsidiary "A" "p-b")]).identity.associations "p-a" "B" = none := by
  have hr : RunBy keysOnlyVerifier (fun _ => true) false "p-a" twoOwners
      [(keyRequest, .grantSubsidiary "A" "p-b")] :=
    ⟨rfl, Or.inr fun _ _ => Or.inl rfl, trivial, trivial⟩
  have hk : Known twoOwners "B" :=
    Or.inr ⟨⟨"p-b", "B", .owner, none⟩, by decide, rfl⟩
  exact ⟨hr, ((owner_only_operations_iff _ _ _).2 twoOwners _ "p-a" "B" hr hk
    (by decide)).2 "p-a"⟩

end FactoryServer.ProvisionerOwnership
