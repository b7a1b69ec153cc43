import FactoryServer.JsonText
import FactoryServer.ProjectedViews

/-!
# Where the projected record decides as the whole one

The decisions read three things of a record: its provider's id, its creator and its own id. The
projection keeps the extensions as they are, so the creator is the same and fails to be read on
the same records. The provider's id is projected as a text, which is the id itself where it is
a string or missing, and another value everywhere else.
-/

namespace FactoryServer.ViewAgreement

open JsonValue JsonbValues RecordShards ProjectedViews
open TournamentAccess (UserContext RequestUser nonEmpty nonEmpty_eq_some requestProviderIds
  hasRole SUPER_ADMIN checkUser)
open MutationGate (GateState NOT_AUTHORIZED_TO_MODIFY)

variable (texts : Texts)

/-! ## What the decisions read -/

/-- Two records of which the decisions read the same. -/
structure SameGates (record other : Jsonb) : Prop where
  /-- The provider. -/
  provider : providerOf record = providerOf other
  /-- The creator. -/
  creator : getCreatedByUserId record = getCreatedByUserId other
  /-- The id. -/
  id : tournamentIdOf record = tournamentIdOf other

/-- Every caller gets the same decisions on two records. -/
structure DecidesAlike (record other : Jsonb) : Prop where
  /-- `canViewTournament`. -/
  view : ∀ scoping userContext assigned,
    canViewTournament texts scoping record userContext assigned =
      canViewTournament texts scoping other userContext assigned
  /-- `canMutateTournament`. -/
  mutate : ∀ scoping userContext roles methods,
    canMutateTournament texts scoping record userContext roles methods =
      canMutateTournament texts scoping other userContext roles methods
  /-- `checkProvider`. -/
  provider : ∀ user userContext write,
    checkProvider [record] user userContext write =
      checkProvider [other] user userContext write
  /-- `actingProviderAllows`, as the gate asks it. -/
  session : ∀ ctx,
    withinSession ctx record = withinSession ctx other

variable {texts} {record other : Jsonb}

/-- The provider decides about the membership. -/
theorem SameGates.membership (h : SameGates record other) (user : Option RequestUser)
    (userContext : Option UserContext) (write : Bool) :
    checkProvider [record] user userContext write =
      checkProvider [other] user userContext write := by
  simp only [checkProvider, List.all_cons, checkProviderOf, h.provider]

/-- The provider decides about the session. -/
theorem SameGates.session (h : SameGates record other) (ctx : UserContext) :
    withinSession ctx record = withinSession ctx other := by
  simp only [withinSession, h.provider]

/-- What is read decides. -/
theorem SameGates.decides (h : SameGates record other) : DecidesAlike texts record other where
  view scoping userContext assigned := by
    simp only [canViewTournament, h.provider, h.creator, h.id]
  mutate scoping userContext roles methods := by
    simp only [canMutateTournament, canViewTournament, h.provider,
      h.creator, h.id]
  provider := h.membership
  session := h.session

/-- The four checks of the gate read no more. -/
theorem SameGates.check (h : SameGates record other) (s : GateState) (ctx : UserContext)
    (requested methods : List Json) (events : List TournamentTree.Event) :
    checkTournament texts s ctx requested methods record events =
      checkTournament texts s ctx requested methods other events := by
  have hscopes : checkScopes texts s ctx requested methods record events =
      checkScopes texts s ctx requested methods other events := by
    simp only [checkScopes, checkProviderPermissionGate, h.provider, h.id]
  simp only [checkTournament, h.session, h.decides.mutate, hscopes]

/-! ## The gates -/

/-- Two readings of a tournament find nothing, or records of which the decisions read the
same. -/
def SameAt (read read' : Reading) (id : String) : Prop :=
  Option.Rel SameGates (read id) (read' id)

/-- The gate decides the same. -/
theorem gate_congr {read read' : Reading} {s : GateState} {tournamentIds : List Json}
    (h : ∀ tid ∈ tournamentIds, SameAt read read' (s.external.pg.text tid))
    (userContext : Option UserContext) (requested methods : List Json) :
    gate texts s read userContext tournamentIds requested methods =
      gate texts s read' userContext tournamentIds requested methods := by
  cases userContext with
  | none => rfl
  | some ctx =>
    unfold gate
    dsimp only
    induction tournamentIds with
    | nil => rfl
    | cons tid rest ih =>
      have hrest := ih fun id hin => h id (List.mem_cons_of_mem _ hin)
      have hsame := h tid List.mem_cons_self
      unfold SameAt at hsame
      rw [firstDenial, firstDenial]
      generalize read (s.external.pg.text tid) = found at hsame ⊢
      generalize read' (s.external.pg.text tid) = found' at hsame ⊢
      cases truthy (some tid) with
      | false => exact hrest
      | true =>
        simp only [if_true]
        cases hsame with
        | none => exact hrest
        | some hgates =>
          dsimp only
          rw [hgates.check, hrest]

/-- The gate of a wholesale save decides and stamps the same. -/
theorem gateWholesaleSave_congr {read read' : Reading} {tids : List String}
    (h : ∀ tid ∈ tids, SameAt read read' tid) (scoping : Bool) (ctx : UserContext)
    (roles : List (String × String)) (stamped : List (String × Option Jsonb)) :
    gateWholesaleSave texts read scoping ctx roles tids stamped =
      gateWholesaleSave texts read' scoping ctx roles tids stamped := by
  induction tids generalizing stamped with
  | nil => rfl
  | cons tid rest ih =>
    have hrest := ih fun id hin => h id (List.mem_cons_of_mem _ hin)
    have hsame := h tid List.mem_cons_self
    unfold SameAt at hsame
    rw [gateWholesaleSave, gateWholesaleSave]
    generalize read tid = found at hsame ⊢
    generalize read' tid = found' at hsame ⊢
    by_cases hempty : tid = ""
    · simp only [if_pos hempty]
      exact hrest _
    · simp only [if_neg hempty]
      cases hsame with
      | none => exact hrest _
      | some hgates =>
        dsimp only
        rw [hgates.decides.mutate, hgates.creator]
        simp only [hrest]

/-- The staleness probe decides the same. -/
theorem stalenessProbe_congr {read read' : Reading} {tournamentId : Option String}
    (h : ∀ id, tournamentId = some id → SameAt read read' id) (scoping : Bool)
    (user : Option RequestUser) (userContext : Option UserContext) (assigned : List String) :
    stalenessProbe texts read scoping user userContext assigned tournamentId =
      stalenessProbe texts read' scoping user userContext assigned tournamentId := by
  unfold stalenessProbe
  cases hid : nonEmpty tournamentId with
  | none => rfl
  | some id =>
    have hsame := h id (nonEmpty_eq_some.mp hid).1
    unfold SameAt at hsame
    dsimp only
    generalize read id = found at hsame ⊢
    generalize read' id = found' at hsame ⊢
    cases hsame with
    | none => rfl
    | some hgates =>
      dsimp only
      rw [hgates.membership]
      simp only [hgates.decides.view]

/-! ## The records that are built -/

/-- A builder puts the id, the extensions and the provider's id of a projection in place. -/
def Builds (build : String → UpdatedAt → Jsonb) : Prop :=
  ∀ (id : String) (view : UpdatedAt), view.tournamentId = id →
    (build id view).get "tournamentId" = some (.str id) ∧
    (build id view).get "extensions" = some view.extensions ∧
    (build id view).get "parentOrganisation" =
      (nonEmpty view.providerId).map fun providerId => .obj [("organisationId", .str providerId)]

/-- The minimal fields are in place whatever else follows them, unless that is a provider. -/
theorem builds_minimalFields (rest : UpdatedAt → List (String × Jsonb))
    (hrest : ∀ view, (rest view).lookup "parentOrganisation" = none) :
    Builds fun id view => .obj (minimalFields id view ++ rest view) := by
  rintro id view -
  refine ⟨rfl, rfl, ?_⟩
  cases hprovider : nonEmpty view.providerId with
  | none => simpa [minimalFields, Jsonb.get, hprovider, List.lookup_cons] using hrest view
  | some providerId => simp [minimalFields, Jsonb.get, hprovider, List.lookup_cons]

theorem builds_storedRecord : Builds storedRecord := by
  have hbuilds := builds_minimalFields (fun _ => []) fun _ => rfl
  simp only [List.append_nil] at hbuilds
  exact hbuilds

theorem builds_authorizationView : Builds fun _ view => authorizationView view := by
  rintro id view rfl
  exact builds_storedRecord _ view rfl

theorem builds_minimalRecord : Builds minimalRecord :=
  builds_minimalFields (fun view => [("updatedAt", (view.updatedAt.map Jsonb.str).getD .null)])
    fun _ => rfl

/-- The provider's id is a string, `null` or missing. -/
def TextOrganisation (record : Jsonb) : Prop :=
  ∀ value, getTournamentProviderId record = some value →
    value = .null ∨ ∃ s, value = .str s

/-- A shell that reads as the record does outside of its participants and events. -/
structure ShellOf (shell data : Jsonb) : Prop where
  /-- The organisation. -/
  organisation : shell.get "parentOrganisation" = data.get "parentOrganisation"
  /-- The extensions. -/
  extensions : shell.get "extensions" = data.get "extensions"

/-- The data of a row is its shell, and so is what the shards keep of it. -/
theorem shellOf_reads {d : Document} {shell : Jsonb}
    (h : shell = tournamentShell d.value ∨ shell = shellOf d.value) : ShellOf shell d.value := by
  rcases h with rfl | rfl
  · exact ⟨rfl, rfl⟩
  · constructor
    · rw [get_shellOf d.object, if_neg (by simp), if_neg (by simp)]
    · rw [get_shellOf d.object, if_neg (by simp), if_neg (by simp)]

/-- `null` is no extensions. -/
theorem extensionsOf_ne_null (record : Jsonb) : extensionsOf record ≠ .null := by
  unfold extensionsOf
  split
  · exact nofun
  · exact nofun
  · next hnull _ =>
    rintro rfl
    exact hnull rfl

/-- Extensions that were projected are read as they are. -/
theorem extensionsOf_of_get {record extensions : Jsonb}
    (h : record.get "extensions" = some extensions) (hne : extensions ≠ .null) :
    extensionsOf record = extensions := by
  unfold extensionsOf
  rw [h]
  cases extensions with
  | null => exact absurd rfl hne
  | _ => rfl

section Built

variable {build : String → UpdatedAt → Jsonb} {id : String} {shell data : Jsonb}

/-- The provider of a built record is the projected text. -/
theorem providerOf_built (hbuild : Builds build) (hshell : ShellOf shell data) :
    providerOf (build id (fetchTournamentUpdatedAt texts id shell)) =
      (nonEmpty ((data.get "parentOrganisation").bind fun o =>
        o.getText texts.render "organisationId")).map .str := by
  have hget := (hbuild id (fetchTournamentUpdatedAt texts id shell) rfl).2.2
  rw [providerOf, getTournamentProviderId, hget]
  simp only [fetchTournamentUpdatedAt, hshell.organisation]
  cases hprovider : nonEmpty ((data.get "parentOrganisation").bind fun o =>
      o.getText texts.render "organisationId") with
  | none => rfl
  | some providerId =>
    have hne := (nonEmpty_eq_some.mp hprovider).2
    simp [Jsonb.get, isTruthy, hne]

/-- On a textual id a built record reads as the whole one. -/
theorem sameGates_of_text (hbuild : Builds build) (hshell : ShellOf shell data)
    (hid : data.get "tournamentId" = some (.str id)) (htext : TextOrganisation data) :
    SameGates data (build id (fetchTournamentUpdatedAt texts id shell)) := by
  obtain ⟨hnamed, hextensions, -⟩ :=
    hbuild id (fetchTournamentUpdatedAt texts id shell) rfl
  have hread : (fetchTournamentUpdatedAt texts id shell).extensions =
      extensionsOf data := by
    simp only [fetchTournamentUpdatedAt, extensionsOf, hshell.extensions]
  rw [hread] at hextensions
  refine ⟨?_, ?_, ?_⟩
  · rw [providerOf_built hbuild hshell, providerOf, getTournamentProviderId]
    unfold TextOrganisation getTournamentProviderId at htext
    cases horganisation : data.get "parentOrganisation" with
    | none => rfl
    | some organisation =>
      rw [horganisation] at htext
      simp only [Option.bind_some, Jsonb.getText] at htext ⊢
      cases hvalue : organisation.get "organisationId" with
      | none => rfl
      | some value =>
        obtain rfl | ⟨s, rfl⟩ := htext value hvalue
        · rfl
        · by_cases hs : s = ""
          · subst hs
            rfl
          · have htruthy : isTruthy (.str s) = true := decide_eq_true hs
            have hgiven : nonEmpty (some s) = some s := nonEmpty_eq_some.mpr ⟨rfl, hs⟩
            rw [hgiven, Option.filter_some, if_pos htruthy]
            rfl
  · unfold getCreatedByUserId
    rw [extensionsOf_of_get hextensions (extensionsOf_ne_null data)]
  · unfold tournamentIdOf
    rw [hid, hnamed]

/-- A caller of some providers, without a context. -/
def memberOf (providerIds : List String) : RequestUser where
  userId := none
  sub := none
  email := none
  roles := none
  providerIds := providerIds
  providerId := none

/-- On another id some caller is decided on differently. -/
theorem text_of_decides (hbuild : Builds build) (hshell : ShellOf shell data)
    (h : DecidesAlike texts data
      (build id (fetchTournamentUpdatedAt texts id shell))) :
    TextOrganisation data := by
  intro value hvalue
  by_contra hother
  obtain ⟨hnull, hstr⟩ := not_or.mp hother
  have hrendered : ((data.get "parentOrganisation").bind fun o =>
      o.getText texts.render "organisationId") = some (texts.render value) := by
    obtain ⟨organisation, horganisation, hget⟩ := Option.bind_eq_some_iff.mp hvalue
    rw [horganisation, Option.bind_some, Jsonb.getText, hget]
    cases value with
    | null => exact absurd rfl hnull
    | str s => exact absurd ⟨s, rfl⟩ hstr
    | _ => rfl
  have hprovider : providerOf (build id (fetchTournamentUpdatedAt texts id shell)) =
      some (.str (texts.render value)) := by
    rw [providerOf_built hbuild hshell, hrendered,
      nonEmpty_eq_some.mpr ⟨rfl, texts.render_ne value⟩]
    rfl
  cases htruthy : isTruthy value with
  | true =>
    -- the whole record names a provider that no caller belongs to
    have hwhole : providerOf data = some value := by
      rw [providerOf, hvalue, Option.filter_some, if_pos htruthy]
    have hexcluded : includes [texts.render value] value = false := by
      cases value with
      | str s => exact absurd ⟨s, rfl⟩ hstr
      | _ => rfl
    have hrefused : checkProvider [data] (some (memberOf [texts.render value])) none false =
        false := by
      simp [checkProvider, checkProviderOf, hwhole, requestProviderIds, memberOf, hexcluded,
        hasRole]
    have hsame := h.provider (some (memberOf [texts.render value])) none false
    rw [hrefused] at hsame
    simp [checkProvider, checkProviderOf, hprovider, requestProviderIds, memberOf, includes,
      actingProviderAllows, hasRole] at hsame
  | false =>
    -- the whole record names no provider, which every caller may read
    have hwhole : providerOf data = none := by
      rw [providerOf, hvalue, Option.filter_some, htruthy]
      rfl
    have hsame := h.provider (some (memberOf [])) none false
    simp [checkProvider, checkProviderOf, hwhole, hprovider, requestProviderIds,
      memberOf, includes, hasRole] at hsame

/-- A built record decides as the whole one exactly where the provider's id is textual. -/
theorem decides_iff (hbuild : Builds build) (hshell : ShellOf shell data)
    (hid : data.get "tournamentId" = some (.str id)) :
    DecidesAlike texts data
        (build id (fetchTournamentUpdatedAt texts id shell)) ↔
      TextOrganisation data :=
  ⟨text_of_decides hbuild hshell, fun htext => (sameGates_of_text hbuild hshell hid htext).decides⟩

end Built

/-! ## Stored tournaments -/

/-- Every row is keyed by the id of its record. -/
def Keyed (db : Database) : Prop :=
  ∀ id d, db.data id = some d → d.value.get "tournamentId" = some (.str id)

/-- The provider's id of a stored tournament is textual. -/
def TextAt (db : Database) (id : String) : Prop :=
  ∀ d, db.data id = some d → TextOrganisation d.value

/-- On a textual id the projection reads as the whole record does. -/
theorem sameAt_projected {db : Database} (hkeyed : Keyed db) {id : String} (htext : TextAt db id)
    {build : String → UpdatedAt → Jsonb} (hbuild : Builds build) :
    SameAt (wholeRecord db) (projectedRecord texts db build) id := by
  unfold SameAt wholeRecord projectedRecord
  cases hdata : db.data id with
  | none => exact Option.Rel.none
  | some d =>
    have hshell : ShellOf (tournamentShell d.value) d.value := shellOf_reads (Or.inl rfl)
    exact Option.Rel.some (sameGates_of_text hbuild hshell (hkeyed id d hdata) (htext d hdata))

/-- The records that the three callers build of a projection decide as the whole record does,
for every caller, exactly where the provider's id is a string, `null` or missing, whether the
projection is read off the data or off the shards' shell. On such ids the gate, the gate of a
wholesale save, the staleness probe and the public route decide as if they read the record. -/
theorem projected_decisions_iff (texts : Texts) {db : Database} (hkeyed : Keyed db) :
    (∀ id d shell build, db.data id = some d →
      (shell = tournamentShell d.value ∨ shell = shellOf d.value) →
      build ∈ [fun _ view => authorizationView view, storedRecord, minimalRecord] →
      (DecidesAlike texts d.value (build id (fetchTournamentUpdatedAt texts id shell)) ↔
        TextOrganisation d.value)) ∧
    (∀ s tournamentIds, (∀ tid ∈ tournamentIds, TextAt db (s.external.pg.text tid)) →
      ∀ userContext requested methods,
        gate texts s (wholeRecord db) userContext tournamentIds requested methods =
          gate texts s (projectedRecord texts db fun _ view => authorizationView view)
            userContext tournamentIds requested methods) ∧
    (∀ tids, (∀ tid ∈ tids, TextAt db tid) → ∀ scoping ctx roles,
      gateWholesaleSave texts (wholeRecord db) scoping ctx roles tids [] =
        gateWholesaleSave texts (projectedRecord texts db storedRecord) scoping ctx roles
          tids []) ∧
    ∀ id, TextAt db id → ∀ scoping user userContext assigned,
      stalenessProbe texts (wholeRecord db) scoping user userContext assigned (some id) =
        stalenessProbe texts (projectedRecord texts db minimalRecord) scoping user userContext
          assigned (some id) ∧
      canReadUnpublishedTournament texts (wholeRecord db) scoping user userContext assigned id =
        canReadUnpublishedTournament texts (projectedRecord texts db minimalRecord) scoping user
          userContext assigned id := by
  have hbuilders : ∀ build ∈ [fun _ view => authorizationView view, storedRecord, minimalRecord],
      Builds build := by
    simp only [List.forall_mem_cons, List.not_mem_nil, false_imp_iff, implies_true, and_true]
    exact ⟨builds_authorizationView, builds_storedRecord, builds_minimalRecord⟩
  refine ⟨?_, ?_, ?_, ?_⟩
  · intro id d shell build hdata hshell hbuild
    exact decides_iff (hbuilders build hbuild) (shellOf_reads hshell) (hkeyed id d hdata)
  · intro s tournamentIds htext
    exact gate_congr fun tid hin => sameAt_projected hkeyed (htext tid hin) builds_authorizationView
  · intro tids htext scoping ctx roles
    exact gateWholesaleSave_congr
      (fun tid hin => sameAt_projected hkeyed (htext tid hin) builds_storedRecord) scoping ctx
      roles []
  · intro id htext scoping user userContext assigned
    have hsame : SameAt (wholeRecord db) (projectedRecord texts db minimalRecord) id :=
      sameAt_projected hkeyed htext builds_minimalRecord
    have hprobe : stalenessProbe texts (wholeRecord db) scoping user userContext assigned
        (some id) = stalenessProbe texts (projectedRecord texts db minimalRecord) scoping user
          userContext assigned (some id) := by
      refine stalenessProbe_congr (fun other hother => ?_) scoping user userContext assigned
      rw [← Option.some.inj hother]
      exact hsame
    refine ⟨hprobe, ?_⟩
    rw [canReadUnpublishedTournament, canReadUnpublishedTournament, hprobe]

/-! ## Sample tournaments -/

/-- The texts of truth values and of whole numbers. -/
def wholeTexts : Texts where
  render
    | .num q => String.ofList (TextCodes.jsonNumber q.num)
    | .bool b => if b then "true" else "false"
    | _ => "{}"
  render_ne value := by
    have hbraces : "{}" ≠ "" := by decide
    cases value with
    | num q => exact fun h => JsonText.jsonNumber_ne_nil q.num (String.ofList_injective h)
    | bool b => cases b <;> decide
    | _ => exact hbraces
  numberText q := String.ofList (TextCodes.jsonNumber q.num)
  bind
    | .num q => String.ofList (TextCodes.jsonNumber q.num)
    | _ => ""

/-- The keys of the sample are in order. -/
theorem sampleKeys_ordered : ["tournamentId", "parentOrganisation"].Pairwise keyLt := by decide

/-- A tournament of a provider with the given id. -/
def tournamentOf (organisationId : Jsonb) (h : organisationId.Canonical) : Document where
  value := .obj [("tournamentId", .str "t"),
    ("parentOrganisation", .obj [("organisationId", organisationId)])]
  object := ⟨_, rfl, sampleKeys_ordered⟩
  canonical := ⟨sampleKeys_ordered, trivial, ⟨List.pairwise_singleton _ _, h, trivial⟩, trivial⟩

/-- A database of one tournament. -/
def oneTournament (d : Document) : Database where
  data id := if id = "t" then some d else none
  layout _ := none
  shards _ := .none

/-- Its row is keyed by its id. -/
theorem keyed_oneTournament {organisationId : Jsonb} (h : organisationId.Canonical) :
    Keyed (oneTournament (tournamentOf organisationId h)) := by
  intro id d hdata
  simp only [oneTournament] at hdata
  split_ifs at hdata with hid
  rw [← Option.some.inj hdata, hid]
  rfl

/-- A tournament of provider `p` is decided on alike. -/
theorem projected_decisions_p :
    DecidesAlike wholeTexts (tournamentOf (.str "p") trivial).value
      (authorizationView
        (fetchTournamentUpdatedAt wholeTexts "t" (tournamentOf (.str "p") trivial).value)) := by
  have htext : Jsonb.Canonical (.str "p") := trivial
  have hdecisions := projected_decisions_iff wholeTexts (keyed_oneTournament htext)
  refine (hdecisions.1 "t" _ _ (fun _ view => authorizationView view) rfl (Or.inl rfl)
    List.mem_cons_self).mpr ?_
  intro value hvalue
  exact Or.inr ⟨"p", (Option.some.inj hvalue).symm⟩

/-- The provider's id is the number `5`, and the caller belongs to provider `5`. -/
theorem numbered_provider_probed :
    ¬∀ (db : Database), Keyed db → ∀ id user,
      stalenessProbe wholeTexts (wholeRecord db) true user none [] (some id) =
        stalenessProbe wholeTexts (projectedRecord wholeTexts db minimalRecord) true user none []
          (some id) := by
  intro hclaim
  have hnumber : Jsonb.Canonical (.num 5) := trivial
  have hwrong := hclaim (oneTournament (tournamentOf (.num 5) hnumber))
    (keyed_oneTournament hnumber) "t" (some (memberOf ["5"]))
  have hrefused : stalenessProbe wholeTexts
      (wholeRecord (oneTournament (tournamentOf (.num 5) trivial))) true (some (memberOf ["5"]))
      none [] (some "t") = .ok .refused := rfl
  have hallowed : stalenessProbe wholeTexts
      (projectedRecord wholeTexts (oneTournament (tournamentOf (.num 5) trivial)) minimalRecord)
      true (some (memberOf ["5"])) none [] (some "t") = .ok .success := by
    rfl
  rw [hrefused, hallowed] at hwrong
  exact absurd (Except.ok.inj hwrong) (by decide)

end FactoryServer.ViewAgreement
