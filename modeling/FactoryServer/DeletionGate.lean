import FactoryServer.SubsidiaryScope

/-!
# Who may delete a tournament

`removeTournamentRecords` deletes one tournament after another and ends at the first refusal.
Its rule admits a member of the owning provider who created the tournament or was assigned
to it, and the helper takes the set of assigned tournaments for that. The call site never
supplies the set, so an assignment counts for nothing.
-/

namespace FactoryServer.DeletionGate

open JsonValue TournamentAccess RequestIdentity TournamentWrites

/-! ## The deletes of a request -/

/-- How the deletion of one tournament ends. -/
inductive DeleteOutcome where
  /-- There is nothing to delete. -/
  | missing
  /-- `ERR_DELETE_FORBIDDEN`. -/
  | forbidden
  /-- The end date is not in the past. -/
  | notEnded
  /-- The tournament goes on to be archived and removed. -/
  | removed
  deriving DecidableEq, Repr

/-- The result carries an error. -/
def DeleteOutcome.isError : DeleteOutcome → Bool
  | .forbidden | .notEnded => true
  | .missing | .removed => false

/-- The deletion got past the authorization of its caller. -/
def DeleteOutcome.pastAuthorization : DeleteOutcome → Bool
  | .notEnded | .removed => true
  | .missing | .forbidden => false

variable (s : WriteState) (state : RequestState)

/-- `deleteSingleTournament` up to the archive. -/
def deleteSingleTournament (id : Json) : DeleteOutcome :=
  match s.stored (s.external.pg.text id) with
  | none => .missing
  | some record =>
    if !isDeleteAuthorized state record then .forbidden
    else if !isDeletableByEndDate s record then .notEnded
    else .removed

/-- The deletions that the loop of `removeTournamentRecords` gets to. -/
def deletions : List Json → List (Json × DeleteOutcome)
  | [] => []
  | id :: rest =>
    let outcome := deleteSingleTournament s state id
    (id, outcome) :: if outcome.isError then [] else deletions rest

/-- The removed ids are those whose deletion goes on. -/
theorem removedIds_eq (ids : List Json) :
    removedIds s state ids = (deletions s state ids).flatMap fun d =>
      if d.2 = .removed then (s.external.pg.textArray (.arr [d.1])).getD [] else [] := by
  induction ids with
  | nil => rfl
  | cons id rest ih =>
    cases hs : s.stored (s.external.pg.text id) with
    | none =>
      have hmissing : deleteSingleTournament s state id = .missing := by
        simp only [deleteSingleTournament, hs]
      simp [removedIds, deletions, hs, hmissing, DeleteOutcome.isError, ih]
    | some record =>
      cases ha : isDeleteAuthorized state record with
      | false =>
        have hforbidden : deleteSingleTournament s state id = .forbidden := by
          simp only [deleteSingleTournament, hs, ha, Bool.not_false, if_true]
        simp [removedIds, deletions, hs, ha, hforbidden, DeleteOutcome.isError]
      | true =>
        cases hd : isDeletableByEndDate s record with
        | false =>
          have hended : deleteSingleTournament s state id = .notEnded := by
            simp [deleteSingleTournament, hs, ha, hd]
          simp [removedIds, deletions, hs, ha, hd, hended, DeleteOutcome.isError]
        | true =>
          have hremoved : deleteSingleTournament s state id = .removed := by
            simp [deleteSingleTournament, hs, ha, hd]
          simp [removedIds, deletions, hs, ha, hd, hremoved, DeleteOutcome.isError, ih]

/-- Every deletion that is gotten to is that of one tournament. -/
theorem outcome_of_mem {ids : List Json} {id : Json} {outcome : DeleteOutcome}
    (h : (id, outcome) ∈ deletions s state ids) : outcome = deleteSingleTournament s state id := by
  induction ids with
  | nil => cases h
  | cons first rest ih =>
    rw [deletions] at h
    obtain heq | hrest := List.mem_cons.mp h
    · obtain ⟨rfl, rfl⟩ := Prod.mk.inj heq
      rfl
    · split at hrest
      · cases hrest
      · exact ih hrest

/-- The deletion of a stored tournament gets past the gate when its caller is authorized. -/
theorem pastAuthorization_iff {id : Json} {record : TournamentRecord}
    (hs : s.stored (s.external.pg.text id) = some record) :
    (deleteSingleTournament s state id).pastAuthorization = true ↔
      isDeleteAuthorized state record = true := by
  simp only [deleteSingleTournament, hs]
  cases isDeleteAuthorized state record with
  | false => simp [DeleteOutcome.pastAuthorization]
  | true =>
    cases isDeletableByEndDate s record <;> simp [DeleteOutcome.pastAuthorization]

/-! ## The rule -/

/-- The user runs the provider: through a provisioner, or as its administrator. -/
def RunsProvider (ctx : UserContext) (providerId : String) : Prop :=
  providerId ∈ ctx.provisionerProviderIds ∨ ctx.roleAt providerId = some PROVIDER_ADMIN

/-- The user holds an assignment on the tournament whose role classifies as full. -/
def FullyAssigned (ctx : UserContext) (tournamentId : String) : Prop :=
  ∃ role, (s.assignedRoles ctx.userId).lookup tournamentId = some role ∧
    classifyAssignmentRole (some role) = .full

/-- The user created the tournament. -/
def Created (ctx : UserContext) (record : TournamentRecord) : Prop :=
  isCreator (getCreatedByUserId record) ctx.userId = true

/-- The caller is a super-admin; without a context the roles of the user say so. -/
def IsSuperAdmin (state : RequestState) : Prop :=
  match state.userContext with
  | some ctx => ctx.isSuperAdmin = true
  | none => hasRole state.user SUPER_ADMIN = true

/-- Who may delete the tournament of a row. -/
def MayDelete (tournamentId : String) (record : TournamentRecord) : Prop :=
  IsSuperAdmin state ∨ ∃ ctx providerId, state.userContext = some ctx ∧
    getTournamentProviderId record = some providerId ∧
    (RunsProvider ctx providerId ∨ (ctx.roleAt providerId).isSome = true ∧
      (Created ctx record ∨ FullyAssigned s ctx tournamentId))

/-- A member of the owning provider who has nothing but a full assignment to go by. -/
def OnlyAssigned (tournamentId : String) (record : TournamentRecord) : Prop :=
  ∃ ctx providerId, state.userContext = some ctx ∧ ctx.isSuperAdmin = false ∧
    getTournamentProviderId record = some providerId ∧ ¬ RunsProvider ctx providerId ∧
    (ctx.roleAt providerId).isSome = true ∧ ¬ Created ctx record ∧ FullyAssigned s ctx tournamentId

/-- Every deletion that a request gets to passes the gate exactly when the rule says so. -/
def GateDecides (ids : List Json) : Prop :=
  ∀ id outcome record, (id, outcome) ∈ deletions s state ids →
    s.stored (s.external.pg.text id) = some record →
      (outcome.pastAuthorization = true ↔ MayDelete s state (s.external.pg.text id) record)

/-! ## What the gate decides -/

/-- A context is admitted when it runs the owning provider, or is of a member who created
the tournament. -/
theorem canDelete_iff {ctx : UserContext} {record : TournamentRecord} :
    canDeleteTournament record (some ctx) [] = true ↔ ctx.isSuperAdmin = true ∨
      ∃ providerId, getTournamentProviderId record = some providerId ∧
        (RunsProvider ctx providerId ∨
          (ctx.roleAt providerId).isSome = true ∧ Created ctx record) := by
  rw [canDeleteTournament]
  cases hs : ctx.isSuperAdmin with
  | true => simp
  | false =>
    cases hp : getTournamentProviderId record with
    | none => simp
    | some providerId =>
      simp only [Bool.false_eq_true, if_false, false_or, Option.some.injEq, exists_eq_left',
        RunsProvider]
      by_cases hin : providerId ∈ ctx.provisionerProviderIds
      · simp [hin]
      · cases hr : ctx.roleAt providerId with
        | none => simp [hin]
        | some role =>
          by_cases hadmin : role = PROVIDER_ADMIN
          · simp [hadmin]
          · have hnone : (tournamentIdOf record).any ([] : List String).contains = false := by
              cases tournamentIdOf record <;> rfl
            rw [hnone]
            simp [hin, hadmin, Created]

/-- The gate follows the rule but for those who have nothing but an assignment. -/
theorem authorized_iff (tournamentId : String) (record : TournamentRecord) :
    (isDeleteAuthorized state record = true ↔ MayDelete s state tournamentId record) ↔
      ¬ OnlyAssigned s state tournamentId record := by
  cases hctx : state.userContext with
  | none =>
    have hgate : isDeleteAuthorized state record = hasRole state.user SUPER_ADMIN := by
      simp only [isDeleteAuthorized, hctx]
    have hrule : MayDelete s state tournamentId record ↔
        hasRole state.user SUPER_ADMIN = true := by
      simp [MayDelete, IsSuperAdmin, hctx]
    have hnot : ¬ OnlyAssigned s state tournamentId record := by
      rintro ⟨ctx, -, hsome, -⟩
      rw [hctx] at hsome
      cases hsome
    exact iff_of_true (by rw [hgate, hrule]) hnot
  | some ctx =>
    have hgate : isDeleteAuthorized state record = canDeleteTournament record (some ctx) [] := by
      simp only [isDeleteAuthorized, hctx]
    have hsuper : IsSuperAdmin state ↔ ctx.isSuperAdmin = true := by
      simp only [IsSuperAdmin, hctx]
    rw [hgate, canDelete_iff, MayDelete, OnlyAssigned, hsuper, hctx]
    constructor
    · rintro h ⟨found, providerId, hfound, hsa, hp, hruns, hrole, hcreated, hassigned⟩
      obtain rfl := Option.some.inj hfound
      obtain htrue | ⟨other, hother, hruns' | ⟨-, hcreated'⟩⟩ :=
        h.mpr (.inr ⟨ctx, providerId, rfl, hp, .inr ⟨hrole, .inr hassigned⟩⟩)
      · rw [hsa] at htrue
        cases htrue
      · obtain rfl := Option.some.inj (hp.symm.trans hother)
        exact hruns hruns'
      · exact hcreated hcreated'
    · intro h
      constructor
      · rintro (hsa | ⟨providerId, hp, hruns | ⟨hrole, hcreated⟩⟩)
        · exact .inl hsa
        · exact .inr ⟨ctx, providerId, rfl, hp, .inl hruns⟩
        · exact .inr ⟨ctx, providerId, rfl, hp, .inr ⟨hrole, .inl hcreated⟩⟩
      · rintro (hsa | ⟨found, providerId, hfound, hp, hruns | ⟨hrole, hcreated | hassigned⟩⟩)
        · exact .inl hsa
        · obtain rfl := Option.some.inj hfound
          exact .inr ⟨providerId, hp, .inl hruns⟩
        · obtain rfl := Option.some.inj hfound
          exact .inr ⟨providerId, hp, .inr ⟨hrole, hcreated⟩⟩
        · obtain rfl := Option.some.inj hfound
          cases hsa : ctx.isSuperAdmin with
          | true => exact .inl rfl
          | false =>
            by_cases hbasis : RunsProvider ctx providerId ∨ Created ctx record
            · exact .inr ⟨providerId, hp, hbasis.imp_right fun hcreated => ⟨hrole, hcreated⟩⟩
            · rw [not_or] at hbasis
              exact absurd ⟨ctx, providerId, rfl, hsa, hp, hbasis.1, hrole, hbasis.2, hassigned⟩ h

/-- The deletion gate decides as its rule says exactly when no deletion that the request
gets to is asked for by a member who has nothing but a full assignment to go by. -/
theorem deletion_decides_iff (ids : List Json) :
    GateDecides s state ids ↔
      ∀ id outcome record, (id, outcome) ∈ deletions s state ids →
        s.stored (s.external.pg.text id) = some record →
          ¬ OnlyAssigned s state (s.external.pg.text id) record := by
  have hstep : ∀ id outcome record, (id, outcome) ∈ deletions s state ids →
      s.stored (s.external.pg.text id) = some record →
        ((outcome.pastAuthorization = true ↔ MayDelete s state (s.external.pg.text id) record) ↔
          ¬ OnlyAssigned s state (s.external.pg.text id) record) := by
    intro id outcome record hmem hs
    rw [outcome_of_mem s state hmem, pastAuthorization_iff s state hs]
    exact authorized_iff s state (s.external.pg.text id) record
  constructor
  · intro h id outcome record hmem hs
    exact (hstep id outcome record hmem hs).mp (h id outcome record hmem hs)
  · intro h id outcome record hmem hs
    exact (hstep id outcome record hmem hs).mpr (h id outcome record hmem hs)

/-- A director of `A`. -/
def director : UserContext where
  userId := "d"
  email := "d@a"
  isSuperAdmin := false
  globalRoles := []
  providerRoles := [("A", "DIRECTOR")]
  providerIds := ["A"]
  provisionerProviderIds := []
  actingProviderId := some "A"
  providerSelectionPending := false

/-- The director is assigned to `t`, which somebody else created. -/
def assignedToT : WriteState :=
  { SubsidiaryScope.subsidiaryOfA with assignedRoles := fun _ => [("t", "DIRECTOR")] }

/-- A request of the director. -/
def directorState : RequestState := { anonymous with userContext := some director }

/-- An assigned director is refused. -/
theorem assigned_director_refused :
    deletions assignedToT directorState [.str "t"] = [(.str "t", .forbidden)] ∧
      ¬ GateDecides assignedToT directorState [.str "t"] := by
  have hdeletions : deletions assignedToT directorState [.str "t"] =
      [(.str "t", .forbidden)] := by
    have hsingle : deleteSingleTournament assignedToT directorState (.str "t") = .forbidden := by
      decide
    simp [deletions, hsingle, DeleteOutcome.isError]
  refine ⟨hdeletions, fun h => ?_⟩
  have hdecides := h (.str "t") .forbidden { DurableSave.plainRecord "t" (some "A") with
    isMock := true } (by rw [hdeletions]; exact List.mem_singleton_self _) rfl
  have hallowed : MayDelete assignedToT directorState "t"
      { DurableSave.plainRecord "t" (some "A") with isMock := true } :=
    .inr ⟨director, "A", rfl, by decide, .inr ⟨by decide, .inr ⟨"DIRECTOR", rfl, by decide⟩⟩⟩
  exact absurd (hdecides.mpr hallowed) (by decide)

end FactoryServer.DeletionGate
