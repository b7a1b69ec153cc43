import FactoryServer.GuardedRuns
import FactoryServer.PrimaryKeys
import FactoryServer.TournamentAccess
import Mathlib.Logic.Function.Basic

/-!
# The last administrator of a provider

Requests that change who may administer a provider: each reads the row it is about,
counts the administrators when that row is one of them, and then writes, and every one
of these statements is an await of its own. A request that takes an administrator away
must find another one, which may be gone by the time it writes.
-/

namespace FactoryServer.LastAdministrator

open TournamentAccess PrimaryKeys GuardedRuns

/-! ## Requests -/

/-- The editor of a request. -/
structure Editor where
  /-- `req.userContext`. -/
  userContext : Option UserContext
  /-- `user?.provisionerIds`. -/
  provisionerIds : List String
  /-- `!!req?.provisioner`. -/
  isProvisioner : Bool

/-- What a request does to a row. -/
inductive Change where
  /-- `PUT`, with `body?.providerRole`. -/
  | upsert (providerRole : Option String)
  /-- `DELETE`. -/
  | remove

/-- A request on `provisioner/users/:userId/providers/:providerId`. -/
structure EditRequest where
  /-- Who sends it. -/
  editor : Editor
  /-- Whose row it is about. -/
  userId : String
  /-- At which provider. -/
  providerId : String
  /-- What is to be done. -/
  change : Change

/-- The user's row at the provider. -/
def EditRequest.key (request : EditRequest) : String × String :=
  (request.userId, request.providerId)

/-- The role that runs tournaments only. -/
def DIRECTOR : String := "DIRECTOR"

/-- The change may take an administrator away. -/
def EditRequest.demotes (request : EditRequest) : Bool :=
  match request.change with
  | .upsert providerRole => providerRole == some DIRECTOR
  | .remove => true

/-- `assertProviderEditor`, over `provisioner_providers`. -/
def assertProviderEditor (related : String → String → Bool) (editor : Editor)
    (providerId : String) : Bool :=
  editor.userContext.any fun ctx =>
    ctx.isSuperAdmin ||
      (!editor.isProvisioner && ctx.providerRoles.lookup providerId == some PROVIDER_ADMIN) ||
      editor.provisionerIds.any fun provisionerId => related provisionerId providerId

/-! ## The table -/

/-- `user_providers`: the role of a user at a provider. -/
abbrev UserProviders : Type := Table (String × String) String

/-- The administrators among `findByProviderId`. -/
def adminRows (table : UserProviders) (providerId : String) :
    List ((String × String) × String) :=
  (table.rows.filter fun row => row.1.2 = providerId).filter fun row => row.2 = PROVIDER_ADMIN

/-- The statement that writes. -/
def EditRequest.write (request : EditRequest) (table : UserProviders) : UserProviders :=
  match request.change with
  | .upsert providerRole => table.upsert request.key (providerRole.getD "")
  | .remove => table.deleteWhere fun key => key = request.key

/-- The user is an administrator of the provider. -/
def IsAdmin (table : UserProviders) (userId providerId : String) : Prop :=
  table.find (userId, providerId) = some PROVIDER_ADMIN

instance (table : UserProviders) (userId providerId : String) :
    Decidable (IsAdmin table userId providerId) :=
  inferInstanceAs (Decidable (_ = _))

/-- The provider has an administrator. -/
def HasAdmin (table : UserProviders) (providerId : String) : Prop :=
  ∃ userId, IsAdmin table userId providerId

/-- The user is the provider's only administrator. -/
def OnlyAdmin (table : UserProviders) (userId providerId : String) : Prop :=
  IsAdmin table userId providerId ∧ ∀ other, IsAdmin table other providerId → other = userId

/-! ## Steps -/

/-- What a request answers. -/
inductive Answer where
  /-- 403. -/
  | forbidden
  /-- 409: an unknown role, or the last administrator. -/
  | conflict
  /-- The row as it is read back. -/
  | row (providerRole : Option String)
  /-- `{ success: true }`. -/
  | success
  /-- A statement was rejected. -/
  | failed

/-- The await a request has reached. -/
inductive Stage where
  | idle
  /-- `assertProviderEditor`. -/
  | authorizing (request : EditRequest)
  /-- `findOne` of `assertNotLastAdmin`. -/
  | finding (request : EditRequest)
  /-- `findByProviderId` of `assertNotLastAdmin`. -/
  | counting (request : EditRequest)
  /-- `upsert` or `remove`. -/
  | writing (request : EditRequest)
  /-- `findOne` after an upsert. -/
  | reading (request : EditRequest)
  | ended (answer : Answer)

/-- The request waits for a statement. -/
def Stage.isPending : Stage → Bool
  | .idle => false
  | .ended _ => false
  | _ => true

/-- The database and the requests on it. -/
structure State (ι : Type) where
  /-- `user_providers`. -/
  table : UserProviders
  /-- `provisioner_providers`: the provisioner has a relationship to the provider. -/
  related : String → String → Bool
  /-- The requests. -/
  calls : ι → Stage

variable {ι : Type} [DecidableEq ι]

/-- A request goes on. -/
def State.setCall (s : State ι) (c : ι) (stage : Stage) : State ι :=
  { s with calls := Function.update s.calls c stage }

/-- The first await of an authorized request. -/
def authorized (request : EditRequest) : Stage :=
  match request.change with
  | .remove => .finding request
  | .upsert providerRole =>
    if providerRole ≠ some PROVIDER_ADMIN ∧ providerRole ≠ some DIRECTOR then .ended .conflict
    else if providerRole = some DIRECTOR then .finding request
    else .writing request

/-- What follows the write. -/
def written (request : EditRequest) : Stage :=
  match request.change with
  | .upsert _ => .reading request
  | .remove => .ended .success

/-- The pending await of a request is answered. -/
def advance (s : State ι) (c : ι) : State ι :=
  match s.calls c with
  | .idle => s
  | .authorizing request =>
    s.setCall c (if assertProviderEditor s.related request.editor request.providerId then
      authorized request else .ended .forbidden)
  | .finding request =>
    s.setCall c (if s.table.find request.key = some PROVIDER_ADMIN then .counting request
      else .writing request)
  | .counting request =>
    s.setCall c (if (adminRows s.table request.providerId).length ≤ 1 then .ended .conflict
      else .writing request)
  | .writing request => { s with table := request.write s.table }.setCall c (written request)
  | .reading request => s.setCall c (.ended (.row (s.table.find request.key)))
  | .ended _ => s

/-- What happens next. -/
inductive EditAction (ι : Type) where
  /-- A request arrives. -/
  | arrive (c : ι) (request : EditRequest)
  /-- The pending await of a request is answered. -/
  | advance (c : ι)
  /-- It is rejected, and was not executed. -/
  | reject (c : ι)
  /-- It is rejected after it was executed. -/
  | lose (c : ι)
  /-- The relationships of provisioners change. -/
  | relate (related : String → String → Bool)

/-- One step. -/
def step (s : State ι) : EditAction ι → State ι
  | .arrive c request =>
    match s.calls c with
    | .idle => s.setCall c (.authorizing request)
    | _ => s
  | .advance c => advance s c
  | .reject c => if (s.calls c).isPending then s.setCall c (.ended .failed) else s
  | .lose c =>
    if (s.calls c).isPending then (advance s c).setCall c (.ended .failed) else s
  | .relate related => { s with related := related }

/-- No request, and these rows. -/
def State.start (table : UserProviders) (related : String → String → Bool) : State ι :=
  ⟨table, related, fun _ => .idle⟩

/-- The action executes the write of a request. -/
def Writes (s : State ι) (a : EditAction ι) (c : ι) (request : EditRequest) : Prop :=
  (a = .advance c ∨ a = .lose c) ∧ s.calls c = .writing request

/-- A provider with an administrator keeps one. -/
def AdminKept (s : State ι) (a : EditAction ι) : Prop :=
  ∀ providerId, HasAdmin s.table providerId → HasAdmin (step s a).table providerId

/-- No write makes the user of another request its provider's only administrator, once that
request has passed the check and is about to take the role away. -/
def Spares (s : State ι) (a : EditAction ι) : Prop :=
  ∀ c request, Writes s a c request → ∀ d waiting, d ≠ c → s.calls d = .writing waiting →
    waiting.demotes = true →
    ¬ OnlyAdmin (request.write s.table) waiting.userId waiting.providerId

/-! ## What a write does -/

/-- A write decides the row it is about, and no other one. -/
theorem find_write (request : EditRequest) (table : UserProviders) (key : String × String) :
    (request.write table).find key =
      if key = request.key then
        match request.change with
        | .upsert providerRole => some (providerRole.getD "")
        | .remove => none
      else table.find key := by
  unfold EditRequest.write
  cases request.change with
  | upsert providerRole => exact find_upsert table request.key _ key
  | remove =>
    rw [find_deleteWhere]
    simp only [decide_eq_true_eq]

/-- A change that may take an administrator away makes none. -/
theorem not_isAdmin_write {request : EditRequest} (hd : request.demotes = true)
    (table : UserProviders) :
    ¬ IsAdmin (request.write table) request.userId request.providerId := by
  unfold IsAdmin
  rw [find_write, if_pos (show (request.userId, request.providerId) = request.key from rfl)]
  unfold EditRequest.demotes at hd
  cases hc : request.change with
  | remove => simp
  | upsert providerRole =>
    rw [hc] at hd
    rw [eq_of_beq hd]
    decide

/-- The administrators that a write is not about stay. -/
theorem isAdmin_write_of_ne {request : EditRequest} {table : UserProviders}
    {userId providerId : String} (hne : (userId, providerId) ≠ request.key) :
    IsAdmin (request.write table) userId providerId ↔ IsAdmin table userId providerId := by
  unfold IsAdmin
  rw [find_write, if_neg hne]

/-- A change that may take an administrator away empties exactly a provider whose only
administrator it is about. -/
theorem onlyAdmin_iff_emptied {request : EditRequest} (hd : request.demotes = true)
    {table : UserProviders} (hadmin : HasAdmin table request.providerId) :
    OnlyAdmin table request.userId request.providerId ↔
      ¬ HasAdmin (request.write table) request.providerId := by
  constructor
  · rintro ⟨-, honly⟩ ⟨other, hother⟩
    by_cases hsame : other = request.userId
    · subst hsame
      exact not_isAdmin_write hd table hother
    · have hne : (other, request.providerId) ≠ request.key := fun h => hsame (congrArg Prod.fst h)
      exact hsame (honly other ((isAdmin_write_of_ne hne).mp hother))
  · intro hnone
    have honly : ∀ other, IsAdmin table other request.providerId → other = request.userId := by
      intro other hother
      by_contra hsame
      have hne : (other, request.providerId) ≠ request.key := fun h => hsame (congrArg Prod.fst h)
      exact hnone ⟨other, (isAdmin_write_of_ne hne).mpr hother⟩
    obtain ⟨first, hfirst⟩ := hadmin
    have hthis := honly first hfirst
    subst hthis
    exact ⟨hfirst, honly⟩

/-- Every other write keeps an administrator where there is one. -/
theorem hasAdmin_write {request : EditRequest} {table : UserProviders} {providerId : String}
    (hsafe : request.demotes = false → request.change = .upsert (some PROVIDER_ADMIN))
    (hother : request.demotes = true → ¬ OnlyAdmin table request.userId request.providerId)
    (hadmin : HasAdmin table providerId) : HasAdmin (request.write table) providerId := by
  by_cases hp : providerId = request.providerId
  · subst hp
    cases hd : request.demotes with
    | true =>
      by_contra hnone
      exact hother hd ((onlyAdmin_iff_emptied hd hadmin).mpr hnone)
    | false =>
      refine ⟨request.userId, ?_⟩
      unfold IsAdmin
      rw [find_write, if_pos (show (request.userId, request.providerId) = request.key from rfl),
        hsafe hd]
      rfl
  · obtain ⟨userId, huser⟩ := hadmin
    have hne : (userId, providerId) ≠ request.key := fun h => hp (congrArg Prod.snd h)
    exact ⟨userId, (isAdmin_write_of_ne hne).mpr huser⟩

/-- Of two counted administrators one is another user. -/
theorem not_only_of_counted {table : UserProviders} {userId providerId : String}
    (hcount : ¬ (adminRows table providerId).length ≤ 1) :
    ¬ OnlyAdmin table userId providerId := by
  rintro ⟨-, honly⟩
  have hall : ∀ row ∈ adminRows table providerId, row = ((userId, providerId), PROVIDER_ADMIN) := by
    intro row hrow
    obtain ⟨hrow, hrole⟩ := List.mem_filter.mp hrow
    obtain ⟨hrow, hprovider⟩ := List.mem_filter.mp hrow
    have hprovider : row.1.2 = providerId := by simpa using hprovider
    have hrole : row.2 = PROVIDER_ADMIN := by simpa using hrole
    have hfound := (mem_rows_iff table row).mp hrow
    have huser := honly row.1.1 (by
      unfold IsAdmin
      rw [← hprovider, ← hrole]
      exact hfound)
    exact Prod.ext (Prod.ext huser hprovider) hrole
  have hnodup : (adminRows table providerId).Nodup :=
    ((List.Nodup.of_map _ table.keys_nodup).filter _).filter _
  refine hcount ?_
  rw [List.eq_replicate_of_mem hall] at hnodup
  exact List.nodup_replicate.mp hnodup

/-! ## Runs -/

/-- The request has passed the check, and what the check has found still holds. -/
def Passed (table : UserProviders) (request : EditRequest) : Prop :=
  (request.demotes = false → request.change = .upsert (some PROVIDER_ADMIN)) ∧
    (request.demotes = true → ¬ OnlyAdmin table request.userId request.providerId)

/-- What holds of a request at each of its awaits. -/
def StageHolds (table : UserProviders) : Stage → Prop
  | .finding request => request.demotes = true
  | .counting request => request.demotes = true
  | .writing request => Passed table request
  | _ => True

/-- What holds of every request. -/
def Inv (s : State ι) : Prop := ∀ c, StageHolds s.table (s.calls c)

/-- An authorized request asks for the check, or gives the role of an administrator. -/
theorem holds_authorized (table : UserProviders) (request : EditRequest) :
    StageHolds table (authorized request) := by
  unfold authorized
  cases hc : request.change with
  | remove =>
    simp only [StageHolds, EditRequest.demotes, hc]
  | upsert providerRole =>
    dsimp only
    split_ifs with hunknown hdirector
    · trivial
    · simp [StageHolds, EditRequest.demotes, hc, hdirector]
    · have hrole : providerRole = some PROVIDER_ADMIN := by
        by_contra hne
        exact hunknown ⟨hne, hdirector⟩
      subst hrole
      refine ⟨fun _ => hc, fun hd => ?_⟩
      rw [EditRequest.demotes, hc] at hd
      exact absurd hd (by decide)

/-- A request whose await is answered holds what it must at the next one. -/
theorem holds_advance {s : State ι} {c : ι} (hs : StageHolds s.table (s.calls c)) :
    StageHolds (advance s c).table ((advance s c).calls c) := by
  have hset : ∀ (s' : State ι) (stage : Stage), StageHolds s'.table stage →
      StageHolds (s'.setCall c stage).table ((s'.setCall c stage).calls c) := by
    intro s' stage hstage
    simp only [State.setCall, Function.update_self]
    exact hstage
  unfold advance
  cases hstage : s.calls c with
  | idle =>
    dsimp only
    rw [hstage]
    trivial
  | ended answer =>
    dsimp only
    rw [hstage]
    trivial
  | authorizing request =>
    refine hset s _ ?_
    split_ifs
    · exact holds_authorized s.table request
    · trivial
  | finding request =>
    rw [hstage] at hs
    refine hset s _ ?_
    split_ifs with hadmin
    · exact hs
    · exact ⟨fun hd => absurd (hs.symm.trans hd) (by decide), fun _ honly => hadmin honly.1⟩
  | counting request =>
    rw [hstage] at hs
    refine hset s _ ?_
    split_ifs with hcount
    · trivial
    · exact ⟨fun hd => absurd (hs.symm.trans hd) (by decide), fun _ => not_only_of_counted hcount⟩
  | writing request =>
    refine hset _ _ ?_
    unfold written
    cases request.change <;> trivial
  | reading request => exact hset s _ trivial

/-- The table changes by the write of a request only. -/
theorem table_step (s : State ι) (a : EditAction ι) :
    (step s a).table = s.table ∨
      ∃ c request, Writes s a c request ∧ (step s a).table = request.write s.table := by
  have hadvance : ∀ c, (advance s c).table = s.table ∨
      ∃ request, s.calls c = .writing request ∧
        (advance s c).table = request.write s.table := by
    intro c
    unfold advance
    cases hstage : s.calls c with
    | writing request => exact Or.inr ⟨request, rfl, rfl⟩
    | _ => exact Or.inl rfl
  cases a with
  | arrive c request =>
    simp only [step]
    cases s.calls c <;> exact Or.inl rfl
  | advance c =>
    rcases hadvance c with hsame | ⟨request, hstage, hwrite⟩
    · exact Or.inl hsame
    · exact Or.inr ⟨c, request, ⟨Or.inl rfl, hstage⟩, hwrite⟩
  | reject c =>
    simp only [step]
    split_ifs <;> exact Or.inl rfl
  | lose c =>
    simp only [step]
    split_ifs
    · rcases hadvance c with hsame | ⟨request, hstage, hwrite⟩
      · exact Or.inl hsame
      · exact Or.inr ⟨c, request, ⟨Or.inr rfl, hstage⟩, hwrite⟩
    · exact Or.inl rfl
  | relate related => exact Or.inl rfl

/-- The write of a request is executed. -/
theorem table_of_writes {s : State ι} {a : EditAction ι} {c : ι} {request : EditRequest}
    (hwrites : Writes s a c request) : (step s a).table = request.write s.table := by
  obtain ⟨rfl | rfl, hstage⟩ := hwrites
  · simp only [step, advance, hstage, State.setCall]
  · simp only [step, advance, hstage, State.setCall, Stage.isPending, if_true]

/-- The request an action belongs to. -/
def EditAction.call? : EditAction ι → Option ι
  | .arrive c _ => some c
  | .advance c => some c
  | .reject c => some c
  | .lose c => some c
  | .relate _ => none

/-- An action leaves the other requests where they are. -/
theorem calls_step_other {s : State ι} {a : EditAction ι} {d : ι} (hd : a.call? ≠ some d) :
    (step s a).calls d = s.calls d := by
  have hset : ∀ (s' : State ι) (c : ι) (stage : Stage), some c ≠ some d →
      (s'.setCall c stage).calls d = s'.calls d := fun s' c stage hc =>
    Function.update_of_ne (fun heq => hc (by rw [heq])) _ _
  have hadvance : ∀ c, some c ≠ some d → (advance s c).calls d = s.calls d := by
    intro c hc
    unfold advance
    cases s.calls c with
    | idle => rfl
    | ended answer => rfl
    | _ => exact hset _ _ _ hc
  cases a with
  | arrive c request =>
    simp only [step]
    cases s.calls c with
    | idle => exact hset _ _ _ hd
    | _ => rfl
  | advance c => exact hadvance c hd
  | reject c =>
    simp only [step]
    split_ifs
    · exact hset _ _ _ hd
    · rfl
  | lose c =>
    simp only [step]
    split_ifs
    · exact (hset _ _ _ hd).trans (hadvance c hd)
    · rfl
  | relate related => rfl

/-- An action that spares the waiting requests keeps the invariant. -/
theorem inv_step (s : State ι) (a : EditAction ι) (hspares : Spares s a) (hi : Inv s) :
    Inv (step s a) := by
  intro d
  by_cases hd : a.call? = some d
  · cases a with
    | arrive c request =>
      cases hd
      have hs := hi d
      simp only [step]
      generalize hstage : s.calls d = stage at hs
      cases stage with
      | idle =>
        simp only [State.setCall, Function.update_self]
        trivial
      | _ =>
        dsimp only
        rw [hstage]
        exact hs
    | advance c =>
      cases hd
      exact holds_advance (hi d)
    | reject c =>
      cases hd
      simp only [step]
      split_ifs
      · simp only [State.setCall, Function.update_self]
        trivial
      · exact hi d
    | lose c =>
      cases hd
      simp only [step]
      split_ifs
      · simp only [State.setCall, Function.update_self]
        trivial
      · exact hi d
    | relate related => cases hd
  · rw [calls_step_other hd]
    rcases table_step s a with hsame | ⟨c, request, hwrites, htable⟩
    · rw [hsame]
      exact hi d
    · have hother : d ≠ c := by
        rintro rfl
        obtain ⟨rfl | rfl, -⟩ := hwrites <;> exact hd rfl
      rw [htable]
      have hs := hi d
      cases hstage : s.calls d with
      | writing waiting =>
        rw [hstage] at hs
        exact ⟨hs.1, hspares c request hwrites d waiting hother hstage⟩
      | finding waiting =>
        rw [hstage] at hs
        exact hs
      | counting waiting =>
        rw [hstage] at hs
        exact hs
      | _ => trivial

/-- Where every waiting request has passed the check, any action keeps the administrators. -/
theorem adminKept_of_inv (s : State ι) (a : EditAction ι) (hi : Inv s) : AdminKept s a := by
  intro providerId hadmin
  rcases table_step s a with hsame | ⟨c, request, ⟨-, hstage⟩, htable⟩
  · rw [hsame]
    exact hadmin
  · have hpassed := hi c
    rw [hstage] at hpassed
    rw [htable]
    exact hasAdmin_write hpassed.1 hpassed.2 hadmin

/-- A request that finds its user to be the only administrator when it writes leaves none. -/
theorem emptied_by_waiting {s : State ι} {d : ι} {waiting : EditRequest}
    (hstage : s.calls d = .writing waiting) (hdemotes : waiting.demotes = true)
    (honly : OnlyAdmin s.table waiting.userId waiting.providerId) :
    ¬ AdminKept s (.advance d) := by
  intro hkept
  have hadmin : HasAdmin s.table waiting.providerId := ⟨waiting.userId, honly.1⟩
  refine (onlyAdmin_iff_emptied hdemotes hadmin).mp honly ?_
  have hafter := hkept waiting.providerId hadmin
  simpa only [step, advance, hstage, State.setCall] using hafter

/-- Over every run: no provider that has an administrator loses all of them, whichever request
writes next, exactly when no write makes the user of a request that has passed its check the
only administrator before that request takes the role away. -/
theorem admin_kept_iff (table : UserProviders) (related : String → String → Bool)
    (actions : List (EditAction ι)) :
    (∀ past next, past <+: actions →
        RunMeets step AdminKept (State.start table related) (past ++ [.advance next])) ↔
      RunMeets step Spares (State.start table related) actions := by
  have hstart : Inv (State.start table related : State ι) := fun _ => trivial
  constructor
  · intro hkept
    refine runMeets_iff.mpr fun past a hpast => ?_
    intro c request hwrites d waiting hother hstage hdemotes honly
    have hlast := runMeets_last (hkept (past ++ [a]) d hpast)
    rw [run_concat] at hlast
    have hcall : a.call? ≠ some d := by
      obtain ⟨rfl | rfl, -⟩ := hwrites <;> exact fun heq => hother (Option.some.inj heq).symm
    have hwaiting : (step (run step (State.start table related) past) a).calls d =
        .writing waiting := (calls_step_other hcall).trans hstage
    refine emptied_by_waiting hwaiting hdemotes ?_ hlast
    rw [table_of_writes hwrites]
    exact honly
  · intro hspares past next hpast
    refine runMeets_iff.mpr fun earlier a hearlier => adminKept_of_inv _ a ?_
    have hbefore : earlier <+: past := by
      rcases List.prefix_concat_iff.mp hearlier with heq | hin
      · have hsame : earlier = past := (List.append_inj' heq rfl).1
        exact hsame ▸ List.prefix_refl earlier
      · exact (List.prefix_append earlier [a]).trans hin
    exact run_keeps inv_step (runMeets_initial hspares (hbefore.trans hpast)) hstart

/-- An editor without restriction. -/
def superAdmin : Editor where
  userContext := some
    { userId := "root"
      email := ""
      isSuperAdmin := true
      globalRoles := []
      providerRoles := []
      providerIds := []
      provisionerProviderIds := []
      actingProviderId := none
      providerSelectionPending := false }
  provisionerIds := []
  isProvisioner := false

/-- The removal of a user's row at the provider. -/
def removal (userId : String) : EditRequest := ⟨superAdmin, userId, "p", .remove⟩

/-- The provider has the administrators `a` and `b`. -/
def twoAdmins : UserProviders where
  rows := [(("a", "p"), PROVIDER_ADMIN), (("b", "p"), PROVIDER_ADMIN)]
  keys_nodup := by decide

/-- Both removals count two administrators before one of them writes. -/
def twoRemovals : List (EditAction Bool) :=
  [.arrive true (removal "a"), .arrive false (removal "b"), .advance true, .advance false,
    .advance true, .advance false, .advance true, .advance false, .advance true, .advance false]

/-- Each of two concurrent removals sees the other's administrator, and none is left. -/
theorem both_removed :
    ¬ ∀ (table : UserProviders) (related : String → String → Bool)
      (actions : List (EditAction Bool)),
      RunMeets step AdminKept (State.start table related) actions := by
  intro h
  have hrun := h twoAdmins (fun _ _ => false) twoRemovals
  have hsplit : twoRemovals = twoRemovals.dropLast ++ [.advance false] := rfl
  rw [hsplit] at hrun
  have hlast := runMeets_last hrun
  have hbefore : HasAdmin (run step (State.start twoAdmins fun _ _ => false)
      twoRemovals.dropLast).table "p" := ⟨"b", by decide⟩
  have hrows : (step (run step (State.start twoAdmins fun _ _ => false) twoRemovals.dropLast)
      (.advance false)).table.rows = [] := by decide
  obtain ⟨userId, huser⟩ := hlast "p" hbefore
  rw [IsAdmin, Table.find, hrows] at huser
  cases huser

end FactoryServer.LastAdministrator
