import FactoryServer.InsertionMaps
import FactoryServer.PrimaryKeys
import FactoryServer.SqlConditions
import FactoryServer.StorageTables

/-!
# Calendar scoping in memory and in SQL

Which tournaments of a calendar a user sees is decided three times: on a record, on a
calendar entry, and by a scope that the calendar storage compiles into a `WHERE`
clause. The three agree where the id and the creator of a record are texts; the driver
stores any other value under its text, which the comparison in memory does not.
-/

namespace FactoryServer.CalendarScopes

open JsonValue TournamentAccess InsertionMaps PrimaryKeys SqlConditions StorageTables

/-! ## In memory -/

/-- A calendar entry, as far as scoping reads it. -/
structure CalendarEntry where
  /-- `tournamentId`. -/
  tournamentId : Option String
  /-- `providerId`. -/
  providerId : Option String
  /-- `createdByUserId`. -/
  createdByUserId : Option Json

/-- The test that `scopeCalendarForUser` makes of one entry. -/
def entryVisible (ctx : UserContext) (assignedTournamentIds : List String)
    (entry : CalendarEntry) : Bool :=
  match nonEmpty entry.providerId with
  | none => true
  | some providerId =>
    if ctx.provisionerProviderIds.contains providerId then true else
    match ctx.roleAt providerId with
    | none => false
    | some role =>
      if role == PROVIDER_ADMIN then true else
      if isCreator entry.createdByUserId ctx.userId then true else
      if (nonEmpty entry.tournamentId).any assignedTournamentIds.contains then true else
      isProvisionerCreated entry.createdByUserId

/-- `scopeCalendarForUser`. -/
def scopeCalendarForUser (scoping : Bool) (tournaments : List CalendarEntry)
    (userContext : Option UserContext) (assignedTournamentIds : List String) :
    List CalendarEntry :=
  if !scoping then tournaments else
  match userContext with
  | none => []
  | some ctx =>
    if ctx.isSuperAdmin then tournaments
    else tournaments.filter (entryVisible ctx assignedTournamentIds)

/-! ## As data -/

/-- What the calendar read is scoped by. -/
structure CalendarScope where
  /-- Every calendar row is visible. -/
  unrestricted : Bool
  /-- Every row of these providers is visible. -/
  fullAccessProviderIds : List String
  /-- The caller's own rows of these providers are visible. -/
  directorProviderIds : List String
  /-- `userId`. -/
  userId : Option String
  /-- The tournaments assigned to the caller. -/
  assignedTournamentIds : List String

/-- `Object.entries(userContext.providerRoles)`: a property is there once. -/
def roleEntries (ctx : UserContext) : List (String × String) := distinctOn [] ctx.providerRoles

/-- One role, added to the full access or to the director's providers. -/
def addRole (found : List String × List String) (entry : String × String) :
    List String × List String :=
  if entry.1 ∈ found.1 then found
  else if entry.2 = PROVIDER_ADMIN then (addItem found.1 entry.1, found.2)
  else if entry.2 ≠ "" then (found.1, addItem found.2 entry.1)
  else found

/-- `buildCalendarScope`. -/
def buildCalendarScope (scoping : Bool) (userContext : Option UserContext)
    (assignedTournamentIds : List String) : CalendarScope :=
  if !scoping then ⟨true, [], [], none, []⟩ else
  match userContext with
  | none => ⟨false, [], [], none, []⟩
  | some ctx =>
    if ctx.isSuperAdmin then ⟨true, [], [], none, []⟩ else
    let found := (roleEntries ctx).foldl addRole (setOf ctx.provisionerProviderIds, [])
    ⟨false, found.1, found.2, some ctx.userId, setOf assignedTournamentIds⟩

/-! ## As a clause -/

/-- The text columns that a calendar query compares. -/
inductive CalendarColumn where
  | tournamentId
  | providerId
  | createdByUserId
  deriving DecidableEq

/-- The boolean column of a calendar row. -/
inductive CalendarFlag where
  | published
  deriving DecidableEq

/-- A calendar query, less its page. -/
structure CalendarQuery where
  /-- The providers that are read. -/
  providerIds : List String
  /-- The visibility of the caller. -/
  scope : CalendarScope
  /-- Only published tournaments. -/
  publishedOnly : Bool

/-- A condition on calendar rows. -/
abbrev CalendarCondition := Condition CalendarColumn CalendarFlag

/-- Conditions that are built with their parameters. -/
abbrev CalendarPiece := Piece CalendarColumn CalendarFlag

/-- The providers with full access. -/
def fullAccessRung (scope : CalendarScope) (params : List SqlParam) : CalendarPiece :=
  if scope.fullAccessProviderIds = [] then ([], params)
  else
    let pushed := params ++ [.array scope.fullAccessProviderIds]
    ([.eqAny .providerId pushed.length], pushed)

/-- `created_by_user_id = $n` for the caller. -/
def creatorRung (scope : CalendarScope) (params : List SqlParam) : CalendarPiece :=
  match nonEmpty scope.userId with
  | none => ([], params)
  | some userId =>
    let pushed := params ++ [.text userId]
    ([.eq .createdByUserId pushed.length], pushed)

/-- `tournament_id = ANY($n)` for the assignments. -/
def assignedRung (scope : CalendarScope) (params : List SqlParam) : CalendarPiece :=
  if scope.assignedTournamentIds = [] then ([], params)
  else
    let pushed := params ++ [.array scope.assignedTournamentIds]
    ([.eqAny .tournamentId pushed.length], pushed)

/-- `created_by_user_id LIKE $n` for the provisioners. -/
def provisionerRung (params : List SqlParam) : CalendarPiece :=
  let pushed := params ++ [.text (PROVISIONER_ACTOR_PREFIX ++ "%")]
  ([.like .createdByUserId pushed.length], pushed)

/-- What a director owns. -/
def ownershipRungs (scope : CalendarScope) (params : List SqlParam) : CalendarPiece :=
  let created := creatorRung scope params
  let assigned := assignedRung scope created.2
  let provisioned := provisionerRung assigned.2
  (created.1 ++ assigned.1 ++ provisioned.1, provisioned.2)

/-- The providers of a director, with what the director owns there. -/
def directorRung (scope : CalendarScope) (params : List SqlParam) : CalendarPiece :=
  if scope.directorProviderIds = [] then ([], params)
  else
    let pushed := params ++ [.array scope.directorProviderIds]
    let ownership := ownershipRungs scope pushed
    ([.and (.eqAny .providerId pushed.length) (joinOr ownership.1)], ownership.2)

/-- What the caller may see. -/
def visibilityRungs (scope : CalendarScope) (params : List SqlParam) : CalendarPiece :=
  let full := fullAccessRung scope params
  let director := directorRung scope full.2
  (full.1 ++ director.1, director.2)

/-- `buildWhere`. -/
def buildWhere (query : CalendarQuery) : CalendarCondition × List SqlParam :=
  let params := [SqlParam.array query.providerIds]
  let visible : CalendarPiece :=
    if query.scope.unrestricted then ([], params)
    else
      let visibility := visibilityRungs query.scope params
      ([joinOr visibility.1], visibility.2)
  (joinAnd (.eqAny .providerId 1)
    (visible.1 ++ if query.publishedOnly then [.flag .published] else []), visible.2)

/-! ## Rows -/

/-- The columns of a calendar row that a query compares. -/
structure CalendarColumns where
  /-- `tournament_id`. -/
  tournamentId : String
  /-- `provider_id`. -/
  providerId : String
  /-- `created_by_user_id`. -/
  createdByUserId : Option String
  /-- `published`. -/
  published : Bool

/-- The row as a condition reads it. -/
def CalendarColumns.sqlRow (row : CalendarColumns) : SqlRow CalendarColumn CalendarFlag where
  text
    | .tournamentId => some row.tournamentId
    | .providerId => some row.providerId
    | .createdByUserId => row.createdByUserId
  flag
    | .published => row.published

/-- `fromRow`, as far as scoping reads it. -/
def CalendarColumns.entry (row : CalendarColumns) : CalendarEntry where
  tournamentId := some row.tournamentId
  providerId := some row.providerId
  createdByUserId := row.createdByUserId.map .str

/-- The query selects the row. -/
def Selected (query : CalendarQuery) (row : CalendarColumns) : Prop :=
  Satisfied row.sqlRow (buildWhere query).2 (buildWhere query).1

instance (query : CalendarQuery) (row : CalendarColumns) : Decidable (Selected query row) :=
  inferInstanceAs (Decidable (Satisfied _ _ _))

/-- `queryGovernor.getTournamentCalendarEntry`, which keeps the id of the record. -/
structure CalendarGovernor where
  /-- `tournamentId` of the entry. -/
  entryId : TournamentRecord → Option Json
  /-- Whether the record is published. -/
  published : TournamentRecord → Bool
  /-- The entry is that of its record. -/
  entryId_eq : ∀ record, entryId record = record.tournamentId

/-- A text column of a value: `null` and a missing value are `NULL`. -/
def textColumn (pg : PgBinding) (value : Option Json) : Option String :=
  if nullish value then none else value.map pg.text

/-- `toRow(getCalendarEntry(record))` for the provider of the record. -/
def rowOfRecord (governor : CalendarGovernor) (pg : PgBinding) (record : TournamentRecord)
    (providerId : String) : CalendarColumns where
  tournamentId := (textColumn pg (governor.entryId record)).getD ""
  providerId := providerId
  createdByUserId := textColumn pg (getCreatedByUserId record)
  published := governor.published record

/-! ## What the scope says -/

/-- The rows a scope admits. -/
def Admits (scope : CalendarScope) (row : CalendarColumns) : Prop :=
  scope.unrestricted = true ∨ row.providerId ∈ scope.fullAccessProviderIds ∨
    row.providerId ∈ scope.directorProviderIds ∧
      ((∃ userId, nonEmpty scope.userId = some userId ∧ row.createdByUserId = some userId) ∨
        row.tournamentId ∈ scope.assignedTournamentIds ∨
        ∃ creator, row.createdByUserId = some creator ∧
          startsWith creator PROVISIONER_ACTOR_PREFIX = true)

theorem builds_eqAny (row : CalendarColumns) (params : List SqlParam) (column : CalendarColumn)
    (values : List String) {text : String} (htext : row.sqlRow.text column = some text) :
    Builds row.sqlRow params
      ([.eqAny column (params ++ [SqlParam.array values]).length],
        params ++ [SqlParam.array values]) (text ∈ values) := by
  refine Builds.single fun later => ?_
  rw [satisfied_eqAny (param_pushed params _ later), htext]
  simp

theorem builds_fullAccess (row : CalendarColumns) (params : List SqlParam) (scope : CalendarScope) :
    Builds row.sqlRow params (fullAccessRung scope params)
      (row.providerId ∈ scope.fullAccessProviderIds) := by
  unfold fullAccessRung
  split_ifs with hempty
  · rw [hempty]
    simpa using Builds.none params
  · exact builds_eqAny row params .providerId _ rfl

theorem builds_creator (row : CalendarColumns) (params : List SqlParam) (scope : CalendarScope) :
    Builds row.sqlRow params (creatorRung scope params)
      (∃ userId, nonEmpty scope.userId = some userId ∧ row.createdByUserId = some userId) := by
  unfold creatorRung
  cases huser : nonEmpty scope.userId with
  | none => simpa using Builds.none params
  | some userId =>
    refine Builds.single fun later => ?_
    rw [satisfied_eq (param_pushed params _ later)]
    simp [CalendarColumns.sqlRow]

theorem builds_assigned (row : CalendarColumns) (params : List SqlParam) (scope : CalendarScope) :
    Builds row.sqlRow params (assignedRung scope params)
      (row.tournamentId ∈ scope.assignedTournamentIds) := by
  unfold assignedRung
  split_ifs with hempty
  · rw [hempty]
    simpa using Builds.none params
  · exact builds_eqAny row params .tournamentId _ rfl

/-- The pattern of the provisioners selects the creators that start with their prefix. -/
theorem builds_provisioner (row : CalendarColumns) (params : List SqlParam) :
    Builds row.sqlRow params (provisionerRung params)
      (∃ creator, row.createdByUserId = some creator ∧
        startsWith creator PROVISIONER_ACTOR_PREFIX = true) := by
  refine Builds.single fun later => ?_
  rw [satisfied_like (param_pushed params _ later)]
  have hall : PROVISIONER_ACTOR_PREFIX.toList.all
      (fun c => decide (c ≠ '%' ∧ c ≠ '_' ∧ c ≠ '\\')) = true := by decide
  have hplain : ∀ c ∈ PROVISIONER_ACTOR_PREFIX.toList, c ≠ '%' ∧ c ≠ '_' ∧ c ≠ '\\' :=
    fun c hc => of_decide_eq_true (List.all_eq_true.mp hall c hc)
  have hpattern : (PROVISIONER_ACTOR_PREFIX ++ "%").toList =
      PROVISIONER_ACTOR_PREFIX.toList ++ ['%'] := by rw [String.toList_append]; rfl
  simp only [hpattern, likeMatches_front hplain]
  rfl

theorem builds_ownership (row : CalendarColumns) (params : List SqlParam) (scope : CalendarScope) :
    Builds row.sqlRow params (ownershipRungs scope params)
      (((∃ userId, nonEmpty scope.userId = some userId ∧ row.createdByUserId = some userId) ∨
        row.tournamentId ∈ scope.assignedTournamentIds) ∨
        ∃ creator, row.createdByUserId = some creator ∧
          startsWith creator PROVISIONER_ACTOR_PREFIX = true) :=
  ((builds_creator row _ scope).append (builds_assigned row _ scope)).append
    (builds_provisioner row _)

theorem builds_director (row : CalendarColumns) (params : List SqlParam) (scope : CalendarScope) :
    Builds row.sqlRow params (directorRung scope params)
      (row.providerId ∈ scope.directorProviderIds ∧
        (((∃ userId, nonEmpty scope.userId = some userId ∧ row.createdByUserId = some userId) ∨
          row.tournamentId ∈ scope.assignedTournamentIds) ∨
          ∃ creator, row.createdByUserId = some creator ∧
            startsWith creator PROVISIONER_ACTOR_PREFIX = true)) := by
  unfold directorRung
  split_ifs with hempty
  · rw [hempty]
    simpa using Builds.none params
  · obtain ⟨⟨more, hmore⟩, hmeans⟩ :=
      builds_ownership row (params ++ [SqlParam.array scope.directorProviderIds]) scope
    refine ⟨⟨[SqlParam.array scope.directorProviderIds] ++ more,
      by rw [hmore, List.append_assoc]⟩, fun later => ?_⟩
    have hprovider := (builds_eqAny row params .providerId scope.directorProviderIds rfl).means
      (more ++ later)
    rw [← List.append_assoc, ← hmore] at hprovider
    simp only [List.mem_singleton, exists_eq_left] at hprovider
    simp only [List.mem_singleton, exists_eq_left, satisfied_and, satisfied_joinOr, hmeans later,
      hprovider]

theorem builds_visibility (row : CalendarColumns) (params : List SqlParam) (scope : CalendarScope) :
    Builds row.sqlRow params (visibilityRungs scope params)
      (row.providerId ∈ scope.fullAccessProviderIds ∨
        row.providerId ∈ scope.directorProviderIds ∧
        (((∃ userId, nonEmpty scope.userId = some userId ∧ row.createdByUserId = some userId) ∨
          row.tournamentId ∈ scope.assignedTournamentIds) ∨
          ∃ creator, row.createdByUserId = some creator ∧
            startsWith creator PROVISIONER_ACTOR_PREFIX = true)) :=
  (builds_fullAccess row _ scope).append (builds_director row _ scope)

/-- The clause selects the rows of the targeted providers that the scope admits. -/
theorem selected_iff (query : CalendarQuery) (row : CalendarColumns) :
    Selected query row ↔ row.providerId ∈ query.providerIds ∧ Admits query.scope row ∧
      (query.publishedOnly = true → row.published = true) := by
  have htarget : ∀ later : List SqlParam,
      Satisfied row.sqlRow ([.array query.providerIds] ++ later) (.eqAny .providerId 1) ↔
        row.providerId ∈ query.providerIds := by
    intro later
    have hparam : param ([.array query.providerIds] ++ later) 1 =
      some (.array query.providerIds) := rfl
    rw [satisfied_eqAny hparam]
    simp [CalendarColumns.sqlRow]
  have hpublished : ∀ params, (∀ c ∈ (if query.publishedOnly then [.flag .published] else [] :
      List CalendarCondition), Satisfied row.sqlRow params c) ↔
        (query.publishedOnly = true → row.published = true) := by
    intro params
    cases query.publishedOnly <;> simp [CalendarColumns.sqlRow]
  unfold Selected buildWhere
  by_cases hopen : query.scope.unrestricted = true
  · simp only [if_pos hopen, List.nil_append, satisfied_joinAnd, List.forall_mem_cons,
      hpublished]
    rw [show [SqlParam.array query.providerIds] = [.array query.providerIds] ++ [] from rfl,
      htarget]
    simp [Admits, hopen]
  · obtain ⟨⟨more, hmore⟩, hmeans⟩ :=
      builds_visibility row [.array query.providerIds] query.scope
    have hvisible := hmeans []
    rw [List.append_nil] at hvisible
    simp only [if_neg hopen, satisfied_joinAnd, List.cons_append, List.nil_append,
      List.forall_mem_cons, hpublished, satisfied_joinOr, hvisible]
    rw [hmore, htarget]
    simp only [Admits, hopen, Bool.false_eq_true, false_or, or_assoc]

/-! ## What the scope of a user is -/

/-- One role gives full access where it is the administrator's. -/
theorem mem_full_addRole (found : List String × List String) (entry : String × String)
    (p : String) :
    p ∈ (addRole found entry).1 ↔ p ∈ found.1 ∨ (p, PROVIDER_ADMIN) = entry := by
  obtain ⟨q, role⟩ := entry
  unfold addRole
  simp only [Prod.mk.injEq]
  split_ifs with hin hadmin hrole
  · exact ⟨Or.inl, fun h => h.elim id fun he => he.1 ▸ hin⟩
  · rw [mem_addItem, hadmin]
    simp
  · exact ⟨Or.inl, fun h => h.elim id fun he => absurd he.2.symm hadmin⟩
  · exact ⟨Or.inl, fun h => h.elim id fun he => absurd he.2.symm hadmin⟩

/-- One role makes a director only where it is a role. -/
theorem mem_director_addRole {found : List String × List String} {entry : String × String}
    {p : String} (h : p ∈ (addRole found entry).2) :
    p ∈ found.2 ∨ entry.1 = p ∧ entry.2 ≠ "" := by
  unfold addRole at h
  split_ifs at h with hin hadmin hrole
  · exact Or.inl h
  · exact Or.inl h
  · exact (mem_addItem.mp h).imp id fun he => ⟨he.symm, hrole⟩
  · exact Or.inl h

/-- One role leaves no provider out. -/
theorem addRole_covers {found : List String × List String} {entry : String × String} {p : String}
    (h : p ∈ found.2 ∨ entry.1 = p ∧ entry.2 ≠ "") :
    p ∈ (addRole found entry).1 ∨ p ∈ (addRole found entry).2 := by
  unfold addRole
  split_ifs with hin hadmin hrole
  · rcases h with h | h
    · exact Or.inr h
    · exact Or.inl (h.1 ▸ hin)
  · rcases h with h | h
    · exact Or.inr h
    · exact Or.inl (mem_addItem.mpr (Or.inr h.1.symm))
  · exact Or.inr (mem_addItem.mpr (h.imp id fun he => he.1.symm))
  · exact Or.inr (h.resolve_right fun he => he.2 (not_not.mp hrole))

/-- The providers with full access: those there were, and those of an administrator. -/
theorem mem_full_addRoles (entries : List (String × String)) (found : List String × List String)
    (p : String) :
    p ∈ (entries.foldl addRole found).1 ↔ p ∈ found.1 ∨ (p, PROVIDER_ADMIN) ∈ entries := by
  induction entries generalizing found with
  | nil => simp
  | cons entry rest ih =>
    rw [List.foldl_cons, ih, mem_full_addRole, List.mem_cons, or_assoc]

theorem mem_director_addRoles {entries : List (String × String)}
    {found : List String × List String} {p : String}
    (h : p ∈ (entries.foldl addRole found).2) :
    p ∈ found.2 ∨ ∃ role, role ≠ "" ∧ (p, role) ∈ entries := by
  induction entries generalizing found with
  | nil => exact Or.inl h
  | cons entry rest ih =>
    rcases ih h with hfound | ⟨role, hrole, hmem⟩
    · rcases mem_director_addRole hfound with hold | ⟨rfl, hrole⟩
      · exact Or.inl hold
      · exact Or.inr ⟨entry.2, hrole, List.mem_cons_self⟩
    · exact Or.inr ⟨role, hrole, List.mem_cons_of_mem _ hmem⟩

theorem addRoles_cover {entries : List (String × String)} {found : List String × List String}
    {p role : String} (hrole : role ≠ "") (hmem : (p, role) ∈ entries) :
    p ∈ (entries.foldl addRole found).1 ∨ p ∈ (entries.foldl addRole found).2 := by
  have hkeep : ∀ (rest : List (String × String)) (found : List String × List String),
      p ∈ found.1 ∨ p ∈ found.2 →
        p ∈ (rest.foldl addRole found).1 ∨ p ∈ (rest.foldl addRole found).2 := by
    intro rest
    induction rest with
    | nil => exact fun _ h => h
    | cons entry rest ih =>
      intro found h
      refine ih _ (h.elim (fun hfull => Or.inl ?_) fun hdirector => addRole_covers (Or.inl hdirector))
      exact (mem_full_addRole found entry p).mpr (Or.inl hfull)
  induction entries generalizing found with
  | nil => exact absurd hmem List.not_mem_nil
  | cons entry rest ih =>
    rcases List.mem_cons.mp hmem with rfl | hmem
    · exact hkeep rest _ (addRole_covers (Or.inr ⟨rfl, hrole⟩))
    · exact ih hmem

/-- The role at a provider, as an entry of the object. -/
theorem roleAt_eq_some {ctx : UserContext} {p role : String} :
    ctx.roleAt p = some role ↔ role ≠ "" ∧ (p, role) ∈ roleEntries ctx := by
  have hlookup := lookup_distinctOn [] ctx.providerRoles p
  rw [if_neg List.not_mem_nil] at hlookup
  have hmem := mem_iff_lookup (distinctOn_keys [] ctx.providerRoles).1 (p, role)
  rw [hlookup] at hmem
  rw [UserContext.roleAt, nonEmpty_eq_some, ← hmem]
  exact And.comm

/-! ## The three agree -/

/-- The test that `scopeCalendarForUser` makes of one entry, for any caller. -/
def entryKept (scoping : Bool) (userContext : Option UserContext)
    (assignedTournamentIds : List String) (entry : CalendarEntry) : Bool :=
  if !scoping then true else
  match userContext with
  | none => false
  | some ctx => ctx.isSuperAdmin || entryVisible ctx assignedTournamentIds entry

theorem scopeCalendarForUser_eq (scoping : Bool) (tournaments : List CalendarEntry)
    (userContext : Option UserContext) (assignedTournamentIds : List String) :
    scopeCalendarForUser scoping tournaments userContext assignedTournamentIds =
      tournaments.filter (entryKept scoping userContext assignedTournamentIds) := by
  unfold scopeCalendarForUser entryKept
  cases scoping with
  | false => simp
  | true =>
    cases userContext with
    | none => simp
    | some ctx => by_cases hsuper : ctx.isSuperAdmin = true <;> simp [hsuper]

/-- The creator of a row is the caller. -/
theorem isCreator_text (creator : Option String) (userId : String) :
    isCreator (creator.map .str) userId = true ↔
      ∃ user, nonEmpty (some userId) = some user ∧ creator = some user := by
  cases creator with
  | none => simp [isCreator]
  | some text =>
    simp only [isCreator, Option.map_some, Bool.and_eq_true, bne_iff_ne, beq_iff_eq,
      nonEmpty_eq_some, Option.some.injEq]
    constructor
    · rintro ⟨hne, rfl⟩
      exact ⟨text, ⟨rfl, hne⟩, rfl⟩
    · rintro ⟨user, ⟨rfl, hne⟩, rfl⟩
      exact ⟨hne, rfl⟩

/-- The creator of a row is a provisioner. -/
theorem isProvisionerCreated_text (creator : Option String) :
    isProvisionerCreated (creator.map .str) = true ↔
      ∃ text, creator = some text ∧ startsWith text PROVISIONER_ACTOR_PREFIX = true := by
  cases creator <;> simp [isProvisionerCreated]

/-- The scope of a caller admits the rows whose entries the filter keeps. -/
theorem admits_iff_kept (scoping : Bool) (userContext : Option UserContext)
    (assignedTournamentIds : List String) {row : CalendarColumns} (hprovider : row.providerId ≠ "")
    (hid : row.tournamentId ≠ "") :
    Admits (buildCalendarScope scoping userContext assignedTournamentIds) row ↔
      entryKept scoping userContext assignedTournamentIds row.entry = true := by
  cases scoping with
  | false => simp [Admits, buildCalendarScope, entryKept]
  | true =>
    cases userContext with
    | none => simp [Admits, buildCalendarScope, entryKept]
    | some ctx =>
      cases hsuper : ctx.isSuperAdmin with
      | true => simp [Admits, buildCalendarScope, entryKept, hsuper]
      | false =>
        have hown : nonEmpty (some row.providerId) = some row.providerId :=
          nonEmpty_eq_some.mpr ⟨rfl, hprovider⟩
        have hnamed : nonEmpty (some row.tournamentId) = some row.tournamentId :=
          nonEmpty_eq_some.mpr ⟨rfl, hid⟩
        have hfull := mem_full_addRoles (roleEntries ctx) (setOf ctx.provisionerProviderIds, [])
          row.providerId
        simp only [mem_setOf] at hfull
        have howned := isCreator_text row.createdByUserId ctx.userId
        have hmade := isProvisionerCreated_text row.createdByUserId
        simp only [Admits, buildCalendarScope, Bool.not_true, Bool.false_eq_true, if_false,
          hsuper, false_or, hfull, mem_setOf, ← howned, ← hmade, entryKept,
          Bool.false_or, entryVisible, CalendarColumns.entry, hown,
          hnamed, Option.any_some, List.contains_iff_mem]
        have hdirector : row.providerId ∈ ((roleEntries ctx).foldl addRole
            (setOf ctx.provisionerProviderIds, [])).2 → (ctx.roleAt row.providerId).isSome := by
          intro hin
          obtain ⟨role, hrole⟩ := (mem_director_addRoles hin).resolve_left List.not_mem_nil
          rw [roleAt_eq_some.mpr hrole, Option.isSome_some]
        by_cases hprovisioned : row.providerId ∈ ctx.provisionerProviderIds
        · simp [hprovisioned]
        · cases hrole : ctx.roleAt row.providerId with
          | none =>
            simp only [hrole, Option.isSome_none, Bool.false_eq_true, imp_false] at hdirector
            have hadmin : (row.providerId, PROVIDER_ADMIN) ∉ roleEntries ctx := by
              intro hin
              rw [roleAt_eq_some.mpr ⟨by decide, hin⟩] at hrole
              cases hrole
            simp [hprovisioned, hadmin, hdirector]
          | some role =>
            obtain ⟨hne, hmem⟩ := roleAt_eq_some.mp hrole
            by_cases hadmin : role = PROVIDER_ADMIN
            · simp [hprovisioned, hadmin, hadmin ▸ hmem]
            · have hnot : (row.providerId, PROVIDER_ADMIN) ∉ roleEntries ctx := by
                intro hin
                rw [roleAt_eq_some.mpr ⟨by decide, hin⟩] at hrole
                exact hadmin (Option.some.inj hrole).symm
              have hin := (addRoles_cover hne hmem).resolve_left
                fun h => (hfull.mp h).elim hprovisioned hnot
              simp only [hprovisioned, hnot, hin, hadmin, false_or, true_and, if_false, beq_iff_eq]
              split_ifs <;> simp [*]

/-- The id and the creator of a record, where it has them, are texts. -/
structure Texts (record : TournamentRecord) (tournamentId providerId : String) : Prop where
  /-- The id. -/
  id : record.tournamentId = some (.str tournamentId)
  /-- It is not empty. -/
  id_ne : tournamentId ≠ ""
  /-- The provider. -/
  provider : record.organisationId = some providerId
  /-- It is not empty. -/
  provider_ne : providerId ≠ ""
  /-- The creator. -/
  creator : ∀ value, getCreatedByUserId record = some value →
    value = .null ∨ ∃ userId, value = .str userId

/-- The row of a record is tested as the record is. -/
theorem entryKept_rowOfRecord (governor : CalendarGovernor) (pg : PgBinding) (scoping : Bool)
    (userContext : Option UserContext) (assignedTournamentIds : List String)
    {record : TournamentRecord} {tournamentId providerId : String}
    (htexts : Texts record tournamentId providerId) :
    entryKept scoping userContext assignedTournamentIds
        (rowOfRecord governor pg record providerId).entry =
      canViewTournament scoping record userContext assignedTournamentIds := by
  have hown : getTournamentProviderId record = some providerId := by
    rw [getTournamentProviderId, htexts.provider]
    exact nonEmpty_eq_some.mpr ⟨rfl, htexts.provider_ne⟩
  have hid : tournamentIdOf record = nonEmpty (some tournamentId) := by
    rw [tournamentIdOf, htexts.id]
    rfl
  have hrowId : (rowOfRecord governor pg record providerId).tournamentId = tournamentId := by
    simp [rowOfRecord, governor.entryId_eq, htexts.id, textColumn, nullish, pg.text_str]
  have hcreator : ∀ userId,
      isCreator ((rowOfRecord governor pg record providerId).createdByUserId.map .str) userId =
          isCreator (getCreatedByUserId record) userId ∧
        isProvisionerCreated
            ((rowOfRecord governor pg record providerId).createdByUserId.map .str) =
          isProvisionerCreated (getCreatedByUserId record) := by
    intro userId
    cases hvalue : getCreatedByUserId record with
    | none => simp [rowOfRecord, hvalue, textColumn, nullish]
    | some value =>
      rcases htexts.creator value hvalue with rfl | ⟨creator, rfl⟩
      · simp [rowOfRecord, hvalue, textColumn, nullish, isCreator, isProvisionerCreated]
      · simp [rowOfRecord, hvalue, textColumn, nullish, pg.text_str]
  have hprovider : (rowOfRecord governor pg record providerId).providerId = providerId := rfl
  have hvisible : nonEmpty (some providerId) = some providerId :=
    nonEmpty_eq_some.mpr ⟨rfl, htexts.provider_ne⟩
  unfold entryKept canViewTournament
  cases scoping with
  | false => rfl
  | true =>
    cases userContext with
    | none => rfl
    | some ctx =>
      simp only [Bool.not_true, Bool.false_eq_true, if_false, entryVisible,
        CalendarColumns.entry, hprovider, hvisible, hown, hrowId, hid, (hcreator ctx.userId).1,
        (hcreator ctx.userId).2]
      cases ctx.isSuperAdmin <;> rfl

/-- Where the targets include all providers of the rows and ids are not empty, the clause of a
caller's scope selects the rows whose entries the filter keeps; of the rows of records whose id
and creator are texts, it selects those whose record the caller may view. -/
theorem scoped_alike (governor : CalendarGovernor) (pg : PgBinding) (scoping : Bool)
    (userContext : Option UserContext) (assignedTournamentIds providerIds : List String) :
    let query : CalendarQuery :=
      ⟨providerIds, buildCalendarScope scoping userContext assignedTournamentIds, false⟩
    (∀ rows : List CalendarColumns,
      (∀ row ∈ rows, row.providerId ∈ providerIds ∧ row.providerId ≠ "" ∧ row.tournamentId ≠ "") →
      (rows.filter fun row => Selected query row).map CalendarColumns.entry =
        scopeCalendarForUser scoping (rows.map CalendarColumns.entry) userContext
          assignedTournamentIds) ∧
    ∀ (record : TournamentRecord) (tournamentId providerId : String),
      Texts record tournamentId providerId → providerId ∈ providerIds →
      (Selected query (rowOfRecord governor pg record providerId) ↔
        canViewTournament scoping record userContext assignedTournamentIds = true) := by
  intro query
  have hselected : ∀ row : CalendarColumns, row.providerId ∈ providerIds → row.providerId ≠ "" →
      row.tournamentId ≠ "" → (Selected query row ↔
        entryKept scoping userContext assignedTournamentIds row.entry = true) := by
    intro row htarget hprovider hid
    rw [selected_iff, ← admits_iff_kept scoping userContext assignedTournamentIds hprovider hid]
    exact ⟨fun h => h.2.1, fun h => ⟨htarget, h, fun hpublished => (nomatch hpublished)⟩⟩
  constructor
  · intro rows hrows
    rw [scopeCalendarForUser_eq, List.filter_map]
    congr 1
    apply List.filter_congr
    intro row hrow
    obtain ⟨htarget, hprovider, hid⟩ := hrows row hrow
    rw [Function.comp_apply, Bool.eq_iff_iff, decide_eq_true_eq]
    exact hselected row htarget hprovider hid
  · intro record tournamentId providerId htexts htarget
    have hrowId : (rowOfRecord governor pg record providerId).tournamentId = tournamentId := by
      simp [rowOfRecord, governor.entryId_eq, htexts.id, textColumn, nullish, pg.text_str]
    rw [← entryKept_rowOfRecord governor pg scoping userContext assignedTournamentIds htexts]
    exact hselected _ htarget htexts.provider_ne (hrowId ▸ htexts.id_ne)

/-! ## Values that are no texts -/

/-- A director of one provider. -/
def sampleDirector : UserContext where
  userId := "5"
  email := "director"
  isSuperAdmin := false
  globalRoles := ["client"]
  providerRoles := [("provider", "DIRECTOR")]
  providerIds := ["provider"]
  provisionerProviderIds := []
  actingProviderId := none
  providerSelectionPending := false

/-- A record of the provider. -/
def sampleRecord (tournamentId creator : Json) : TournamentRecord where
  tournamentId := some tournamentId
  organisationId := some "provider"
  extensions := [⟨CREATED_BY_USER_ID, creator⟩]
  tournamentName := none
  startDate := none
  endDate := none
  isMock := false
  content := .null

/-- The entry of a record carries its id. -/
def sampleGovernor : CalendarGovernor where
  entryId := TournamentRecord.tournamentId
  published _ := false
  entryId_eq _ := rfl

/-- The rows a director of the provider reads. -/
def sampleQuery (assignedTournamentIds : List String) : CalendarQuery :=
  ⟨["provider"], buildCalendarScope true (some sampleDirector) assignedTournamentIds, false⟩

/-- Two rows of the provider: the director's own one and another one. -/
def sampleRows : List CalendarColumns :=
  [⟨"mine", "provider", some "5", false⟩, ⟨"other", "provider", some "6", false⟩]

/-- The director sees the own tournament, and not another one. -/
theorem scoped_alike_director :
    (sampleRows.filter fun row => Selected (sampleQuery []) row).map CalendarColumns.entry =
        scopeCalendarForUser true (sampleRows.map CalendarColumns.entry) (some sampleDirector) [] ∧
      Selected (sampleQuery []) (rowOfRecord sampleGovernor plainBinding
        (sampleRecord (.str "mine") (.str "5")) "provider") ∧
      ¬Selected (sampleQuery []) (rowOfRecord sampleGovernor plainBinding
        (sampleRecord (.str "other") (.str "6")) "provider") := by
  have htexts : ∀ tournamentId creator : String, tournamentId ≠ "" →
      Texts (sampleRecord (.str tournamentId) (.str creator)) tournamentId "provider" := by
    intro tournamentId creator hne
    refine ⟨rfl, hne, rfl, by decide, fun value hvalue => Or.inr ⟨creator, ?_⟩⟩
    exact (Option.some.inj hvalue).symm
  obtain ⟨hrows, halike⟩ := scoped_alike sampleGovernor plainBinding true (some sampleDirector) []
    ["provider"]
  refine ⟨hrows sampleRows (by decide), ?_, ?_⟩
  · exact (halike _ _ _ (htexts "mine" "5" (by decide)) (by decide)).mpr (by decide)
  · intro hselected
    have hview := (halike _ _ _ (htexts "other" "6" (by decide)) (by decide)).mp hselected
    exact absurd hview (by decide)

/-- A row without an id that an assignment names, a creator that is the number of the caller's
id and an id that is the number an assignment names: SQL shows what the other tests hide. -/
theorem scoping_differs :
    (Selected (sampleQuery [""]) ⟨"", "provider", none, false⟩ ∧
      (scopeCalendarForUser true [(⟨"", "provider", none, false⟩ : CalendarColumns).entry]
        (some sampleDirector) [""]).length = 0) ∧
    (Selected (sampleQuery []) (rowOfRecord sampleGovernor plainBinding
        (sampleRecord (.str "theirs") (.num 5)) "provider") ∧
      canViewTournament true (sampleRecord (.str "theirs") (.num 5)) (some sampleDirector) [] =
        false) ∧
    Selected (sampleQuery ["7"]) (rowOfRecord sampleGovernor plainBinding
        (sampleRecord (.num 7) (.str "6")) "provider") ∧
      canViewTournament true (sampleRecord (.num 7) (.str "6")) (some sampleDirector) ["7"] =
        false := by
  refine ⟨⟨?_, by decide⟩, ⟨?_, by decide⟩, ?_, by decide⟩
  all_goals decide

end FactoryServer.CalendarScopes
