import FactoryServer.IdentityClaims

/-!
# Attribution without the claims

The gate reads nothing of a request that a claim of identity stands in, and stamping reads
no more of a claim than its type. So what a request is attributed to is computed of the
request without its claims, up to the email where the token has none and, for a score, up to
the properties that the route passes on.
-/

namespace FactoryServer.SenderIndependence

open JsonValue TournamentAccess TournamentTree CommandTransaction ExecutionQueue MutationGate
  ScopedGrants TournamentWrites OperatorAttribution IdentityClaims
open QueueGating (field_entries methodsOf)

/-! ## A directive without its claims -/

section Directives

/-- The params have nothing to drop, or both are objects. -/
def Reshaped (before after : Json) : Prop :=
  after = before ∨ ∃ fields fields', before = .obj fields ∧ after = .obj fields'

theorem Reshaped.trans {a b c : Json} (hab : Reshaped a b) (hbc : Reshaped b c) :
    Reshaped a c := by
  obtain rfl | ⟨fields, fields', rfl, rfl⟩ := hbc
  · exact hab
  · obtain hsame | ⟨first, second, rfl, -⟩ := hab
    · exact .inr ⟨fields, fields', hsame.symm, rfl⟩
    · exact .inr ⟨first, fields', rfl, rfl⟩

theorem reshaped_without (params : Json) (key : String) : Reshaped params (without params key) := by
  cases params with
  | obj fields => exact .inr ⟨fields, _, rfl, rfl⟩
  | _ => exact .inl rfl

/-- A `USER` attestation stands in an object. -/
theorem obj_of_userAttestation {params : Json}
    (h : (userAttestation (some params)).isSome = true) :
    ∃ fields attributedTo, params = .obj fields ∧
      params.field? "attributedTo" = some attributedTo ∧
      isUserAttestation attributedTo = true := by
  obtain ⟨attributedTo, hfound⟩ := Option.isSome_iff_exists.mp h
  obtain ⟨hchain, huser⟩ := Option.filter_eq_some_iff.mp hfound
  obtain ⟨fields, rfl⟩ := Json.obj_of_field hchain
  exact ⟨fields, attributedTo, rfl, hchain, huser⟩

theorem reshaped_unattested (params : Json) : Reshaped params (unattested params) := by
  unfold unattested
  split_ifs with hattested
  · obtain ⟨fields, -, rfl, -⟩ := obj_of_userAttestation hattested
    exact .inr ⟨fields, _, rfl, rfl⟩
  · exact .inl rfl

/-- Dropping an attestation leaves the other params. -/
theorem field_unattested {key : String} (h : key ≠ "attributedTo") (params : Json) :
    (unattested params).field? key = params.field? key := by
  unfold unattested
  split_ifs with hattested
  · obtain ⟨fields, -, rfl, -⟩ := obj_of_userAttestation hattested
    exact field_spread_obj fields (by simpa using h)
  · rfl

/-- An attestation keeps its type. -/
theorem isSome_unattested (params : Json) :
    (userAttestation (some (unattested params))).isSome =
      (userAttestation (some params)).isSome := by
  by_cases hattested : (userAttestation (some params)).isSome = true
  · have hfield : (unattested params).field? "attributedTo" =
        some (.obj [("attributionType", .str USER_ATTRIBUTION)]) := by
      rw [unattested, if_pos hattested]
      exact field_spread_assigned _ [] _ (by simp)
    have hfound : userAttestation (some (unattested params)) =
        some (.obj [("attributionType", .str USER_ATTRIBUTION)]) := by
      rw [userAttestation, chain, Option.bind_some, hfield]
      rfl
    rw [hfound, hattested]
    rfl
  · rw [unattested, if_neg hattested]

/-- The params that a directive is left with. -/
def unclaimedParams (directive params : Json) : Json :=
  unattested (if isSettlement directive then without params "recordedBy" else params)

variable (directive : Json)

theorem reshaped_unclaimedParams (params : Json) :
    Reshaped params (unclaimedParams directive params) := by
  unfold unclaimedParams
  split_ifs
  · exact (reshaped_without params _).trans (reshaped_unattested _)
  · exact reshaped_unattested params

theorem params_unclaimed :
    (unclaimed directive).field? "params" =
      (directive.field? "params").map (unclaimedParams directive) := by
  unfold unclaimed
  cases hparams : directive.field? "params" with
  | none => exact hparams
  | some params => exact field_withParams directive _

/-- Claims stand in the params alone. -/
theorem field_unclaimed {key : String} (h : key ≠ "params") :
    (unclaimed directive).field? key = directive.field? key := by
  unfold unclaimed
  cases hparams : directive.field? "params" with
  | none => rfl
  | some params =>
    exact field_withParams_of_ne _ (by rw [hparams, Option.isSome_some]) h

@[simp] theorem isSettlement_unclaimed :
    isSettlement (unclaimed directive) = isSettlement directive := by
  rw [isSettlement, isSettlement, field_unclaimed directive (by decide)]

/-- The other params stay. -/
theorem field_unclaimedParams {key : String} (h : key ∉ ["attributedTo", "recordedBy"])
    (params : Json) : (unclaimedParams directive params).field? key = params.field? key := by
  have hkeys : key ≠ "attributedTo" ∧ key ≠ "recordedBy" := by simpa using h
  rw [unclaimedParams, field_unattested hkeys.1]
  split_ifs
  · exact field_without_of_ne hkeys.2 params
  · rfl

theorem isSome_attestation_unclaimed :
    (attestationOf (unclaimed directive)).isSome = (attestationOf directive).isSome := by
  rw [attestationOf, attestationOf, params_unclaimed]
  cases directive.field? "params" with
  | none => rfl
  | some params =>
    rw [Option.map_some, unclaimedParams, isSome_unattested]
    split_ifs
    · have hfield : (without params "recordedBy").field? "attributedTo" =
          params.field? "attributedTo" := field_without_of_ne (by decide) params
      simp only [userAttestation, chain, Option.bind_some, hfield]
    · rfl

/-- Params of another shape are as assignable as before. -/
theorem Reshaped.assignable {before after : Json} (h : Reshaped before after) :
    assignable (some after) = assignable (some before) ∧
      isObject (some after) = isObject (some before) ∧
      nullish (some after) = nullish (some before) := by
  obtain rfl | ⟨fields, fields', rfl, rfl⟩ := h
  · exact ⟨rfl, rfl, rfl⟩
  · exact ⟨rfl, rfl, rfl⟩

/-- Stamping leaves the same claims of a directive without its own. -/
theorem stampedClaims_unclaimed (user : Option VerifiedUser) :
    stampedClaims user (unclaimed directive) = stampedClaims user directive := by
  have hshape : assignable ((unclaimed directive).field? "params") =
        assignable (directive.field? "params") ∧
      isObject ((unclaimed directive).field? "params") =
        isObject (directive.field? "params") := by
    rw [params_unclaimed]
    cases directive.field? "params" with
    | none => exact ⟨rfl, rfl⟩
    | some params =>
      have hreshaped := (reshaped_unclaimedParams directive params).assignable
      exact ⟨hreshaped.1, hreshaped.2.1⟩
  unfold stampedClaims
  rw [isSettlement_unclaimed, hshape.1, hshape.2, isSome_attestation_unclaimed]

/-! ## The gate -/

/-- The gate reads the other params. -/
theorem chain_paramsOf_unclaimed {key : String} (h : key ∉ ["attributedTo", "recordedBy"]) :
    chain (paramsOf (unclaimed directive)) key = chain (paramsOf directive) key := by
  simp only [paramsOf, chain, Option.bind_some, params_unclaimed]
  cases directive.field? "params" with
  | none => rfl
  | some params =>
    have hnullish := (reshaped_unclaimedParams directive params).assignable.2.2
    rw [Option.map_some, coalesce, coalesce, hnullish]
    split_ifs
    · rfl
    · exact field_unclaimedParams directive h params

theorem targetFromParams_unclaimed :
    targetFromParams (unclaimed directive) = targetFromParams directive := by
  have hread : ∀ key, key ∉ ["attributedTo", "recordedBy"] →
      chain (paramsOf (unclaimed directive)) key = chain (paramsOf directive) key :=
    fun _ => chain_paramsOf_unclaimed directive
  funext dimension
  cases dimension with
  | matchUpId =>
    simp only [targetFromParams, matchUpIdOf, hread "matchUpId" (by decide),
      hread "matchUpIds" (by decide)]
  | drawId => exact hread "drawId" (by decide)
  | eventId => exact hread "eventId" (by decide)
  | structureId => exact hread "structureId" (by decide)
  | venueId => exact hread "venueId" (by decide)
  | courtId => exact hread "courtId" (by decide)
  | scheduledDate =>
    simp only [targetFromParams, hread "scheduledDate" (by decide), hread "date" (by decide)]

theorem nameOf_unclaimed : nameOf (unclaimed directive) = nameOf directive := by
  have hmethod : (unclaimed directive).field? "method" = directive.field? "method" :=
    field_unclaimed directive (by decide)
  simp only [nameOf, chain, Option.bind_some, hmethod]

end Directives

section Gate

variable (methods : List Json)

theorem requestedMethods_unclaimed :
    requestedMethods (methods.map unclaimed) = requestedMethods methods := by
  have hmethod : ∀ directive, (unclaimed directive).field? "method" = directive.field? "method" :=
    fun directive => field_unclaimed directive (by decide)
  simp only [requestedMethods, List.filterMap_map, Function.comp_def, hmethod]

/-- The grants are tested against the same names and targets. -/
theorem checkMethod_unclaimed (package : GrantPredicates) (live : List Grant)
    (events : List Event) (directive : Json) :
    checkMethod package live events (unclaimed directive) =
      checkMethod package live events directive := by
  have htarget : ∀ applicable, targetOf package applicable events (unclaimed directive) =
      targetOf package applicable events directive := by
    intro applicable
    rw [targetOf, targetOf, targetFromParams_unclaimed]
  rw [checkMethod, checkMethod, nameOf_unclaimed]
  simp only [htarget]

theorem checkGrantScope_unclaimed (package : GrantPredicates) (iso : Int → String)
    (ctx : UserContext) (tournamentId : String) (lookup : Option (List Grant)) (now : Int)
    (events : List Event) :
    checkGrantScope package iso ctx tournamentId lookup now events (methods.map unclaimed) =
      checkGrantScope package iso ctx tournamentId lookup now events methods := by
  simp only [checkGrantScope, List.isEmpty_map, List.head?_map, Option.map_map,
    List.findSome?_map, Function.comp_def, nameOf_unclaimed, checkMethod_unclaimed]

/-- The gate decides on the methods without their claims. -/
theorem gate_unclaimed (s : GateState) (userContext : Option UserContext) (tournamentIds : Json) :
    gate s userContext tournamentIds (requestedMethods (methods.map unclaimed))
        (methods.map unclaimed) =
      gate s userContext tournamentIds (requestedMethods methods) methods := by
  have htournament : ∀ ctx, gateTournament s ctx (requestedMethods methods)
      (methods.map unclaimed) = gateTournament s ctx (requestedMethods methods) methods := by
    intro ctx
    funext tid
    simp only [gateTournament, checkTournament, checkGrantScope_unclaimed]
  simp only [gate, requestedMethods_unclaimed, htournament]

end Gate

/-! ## Loops that may throw -/

section Loops

variable {α β γ : Type}

theorem mapM_map (f : α → Except Thrown β) (g : β → γ) (items : List α) :
    (items.mapM f).map (List.map g) = items.mapM fun item => (f item).map g := by
  induction items with
  | nil => rfl
  | cons item rest ih =>
    rw [List.mapM_cons, List.mapM_cons, ← ih]
    cases f item with
    | error thrown => rfl
    | ok value => cases rest.mapM f <;> rfl

/-- A loop goes through exactly where every turn does. -/
theorem isOk_mapM (f : α → Except Thrown β) (items : List α) :
    (items.mapM f).isOk = items.all fun item => (f item).isOk := by
  induction items with
  | nil => rfl
  | cons item rest ih =>
    rw [List.mapM_cons, List.all_cons, ← ih]
    cases f item with
    | error thrown => rfl
    | ok value => cases rest.mapM f <;> rfl

/-- What a loop yields, one of its turns has yielded. -/
theorem mem_mapM {f : α → Except Thrown β} {items : List α} {values : List β} {value : β}
    (h : items.mapM f = .ok values) (hvalue : value ∈ values) :
    ∃ item ∈ items, f item = .ok value := by
  induction items generalizing values with
  | nil =>
    rw [List.mapM_nil] at h
    cases h
    cases hvalue
  | cons item rest ih =>
    rw [List.mapM_cons] at h
    cases hitem : f item with
    | error thrown =>
      rw [hitem] at h
      cases h
    | ok first =>
      cases hrest : rest.mapM f with
      | error thrown =>
        rw [hitem, hrest] at h
        cases h
      | ok others =>
        rw [hitem, hrest] at h
        cases h
        obtain rfl | hlater := List.mem_cons.mp hvalue
        · exact ⟨item, List.mem_cons_self, hitem⟩
        · obtain ⟨found, hmem, hfound⟩ := ih hrest hlater
          exact ⟨found, List.mem_cons_of_mem _ hmem, hfound⟩

end Loops

/-! ## The queue -/

section Queue

variable (s : WriteState) (sender : Sender)

/-- The email that a mutation is audited under: the token's, or that of the body. -/
def auditEmail (body : Json) : Option Json :=
  ((verifiedEmail sender.user).map Json.str).orElse fun _ => body.field? "userEmail"

/-- The audit has one email where the token has one, or the bodies do. -/
theorem auditEmail_iff (first second : Json) :
    auditEmail sender first = auditEmail sender second ↔ EmailSettled sender first second := by
  unfold auditEmail EmailSettled
  cases verifiedEmail sender.user <;> simp

/-- What stamping leaves of the claims of the methods. -/
def stampedMethods (methods : Option Json) : Except Thrown (List (Option Json × Option Json)) :=
  match methods with
  | some (.arr methods) =>
    if methods.any isSettlement && !maySettle sender.user then
      .error (.http 403 "Authenticated actor required for settlement")
    else methods.mapM (stampedClaims sender.user)
  | _ => .ok []

/-- What `POST /factory` leaves of the claims of the methods. -/
def decided (body : Json) : Except Thrown (List (Option Json × Option Json)) :=
  if foreignCommand sender.requestUser body then
    .error (.http 403 "Durable command belongs to another user") else
  match methodList (body.field? "methods") with
  | none => .error typeError
  | some methods =>
    match gate s.toGateState sender.userContext (gateTournamentIds body)
      (requestedMethods methods) methods with
    | .error thrown => .error thrown
    | .ok (some denial) => .error (.http 403 denial)
    | .ok none => stampedMethods sender (body.field? "methods")

/-- The token's user with these attesters and recorders. -/
def attributedUser (email : Option Json) (claims : List (Option Json × Option Json)) :
    Attributed where
  auditUserId := some (verifiedText sender.user)
  auditUserEmail := email
  broadcastUserId := some (verifiedText sender.user)
  attestations := claims.map Prod.fst
  recorders := claims.map Prod.snd

/-- What the controller has put into the payload before the methods are stamped. -/
theorem fields_stamped (body : Json) :
    let base := assigned (enrichedQueue s sender body) ([("serverStamped", none)] ++
      ((verifiedEmail sender.user).toList.map fun email => ("userEmail", some (Json.str email))) ++
      [("userId", some (verifiedText sender.user))])
    (Json.obj base).field? "methods" = body.field? "methods" ∧
      (Json.obj base).field? "userId" = some (verifiedText sender.user) ∧
      (Json.obj base).field? "userEmail" = auditEmail sender body := by
  intro base
  have hbody : ∀ key, key.toList.any (fun c => !c.isDigit) = true →
      key ∉ ["auditSource", "commandActor", "commandFingerprint"] →
      (Json.obj (enrichedQueue s sender body)).field? key = body.field? key := by
    intro key hname hkey
    exact (field_assigned_of_not_mem (by simpa using hkey)).trans (field_entries hname body)
  refine ⟨?_, field_assigned_mid (by simp), ?_⟩
  · have hkept : (Json.obj base).field? "methods" =
        (Json.obj (enrichedQueue s sender body)).field? "methods" := by
      refine field_assigned_of_not_mem ?_
      simp
    exact hkept.trans (hbody "methods" (by decide) (by decide))
  · cases hemail : verifiedEmail sender.user with
    | none =>
      have hkept : (Json.obj base).field? "userEmail" =
          (Json.obj (enrichedQueue s sender body)).field? "userEmail" := by
        refine field_assigned_of_not_mem ?_
        simp [hemail]
      rw [hkept, hbody "userEmail" (by decide) (by decide), auditEmail, hemail]
      rfl
    | some email =>
      have hbase : base = assigned (enrichedQueue s sender body) ([("serverStamped", none)] ++
          ("userEmail", some (.str email)) :: [("userId", some (verifiedText sender.user))]) := by
        simp only [base, hemail]
        rfl
      have hread : (Json.obj base).field? "userEmail" = some (.str email) :=
        hbase ▸ field_assigned_mid (by simp)
      rw [hread, auditEmail, hemail]
      rfl

/-- New methods change nothing else that is attributed. -/
theorem attributed_methods (base : List (String × Json)) (directives : List Json)
    (extra : List (String × Option Json)) (h : ∀ key ∈ extra.map Prod.fst, key = "serverStamped") :
    attributed (.obj (assigned base ([("methods", some (.arr directives))] ++ extra))) =
      { auditUserId := (Json.obj base).field? "userId"
        auditUserEmail := (Json.obj base).field? "userEmail"
        broadcastUserId := (Json.obj base).field? "userId"
        attestations := directives.map attestationOf
        recorders := directives.map recorderOf } := by
  have hnot : ∀ key, key ≠ "serverStamped" → key ∉ extra.map Prod.fst :=
    fun key hne hmem => hne (h key hmem)
  have hkept : ∀ key, key ≠ "methods" → key ≠ "serverStamped" →
      (Json.obj (assigned base ([("methods", some (.arr directives))] ++ extra))).field? key =
        (Json.obj base).field? key := by
    intro key hmethod hstamp
    refine field_assigned_of_not_mem ?_
    rw [List.map_append, List.mem_append, not_or]
    exact ⟨by simpa using hmethod, hnot key hstamp⟩
  have hread : (Json.obj (assigned base ([("methods", some (.arr directives))] ++ extra))).field?
      "methods" = some (.arr directives) := by
    rw [List.singleton_append, ← List.nil_append (_ :: extra)]
    exact field_assigned_mid (hnot "methods" (by decide))
  simp only [attributed, methodsOf, hkept "userId" (by decide) (by decide),
    hkept "userEmail" (by decide) (by decide), hread, methodList, Option.getD_some]

/-- Stamping attributes the payload to the token's user, with the claims it leaves. -/
theorem attributed_stamped (body : Json) :
    (stampVerifiedIdentity sender.user sender.recordedAt (enrichedQueue s sender body)).map
        (fun stamped => attributed (.obj stamped.1)) =
      (stampedMethods sender (body.field? "methods")).map
        (attributedUser sender (auditEmail sender body)) := by
  obtain ⟨hmethods, huserId, huserEmail⟩ := fields_stamped s sender body
  unfold stampVerifiedIdentity
  revert hmethods huserId huserEmail
  generalize assigned (enrichedQueue s sender body) _ = base
  intro hmethods huserId huserEmail
  have hplain : methodsOf (.obj base) = [] → attributed (.obj base) =
      attributedUser sender (auditEmail sender body) [] := by
    intro hnone
    simp only [attributed, huserId, huserEmail, hnone, attributedUser, List.map_nil]
  unfold stampOperatorAttribution stampedMethods
  rw [hmethods]
  cases hbody : body.field? "methods" with
  | none => exact congrArg Except.ok (hplain (by rw [methodsOf, hmethods, hbody]; rfl))
  | some value =>
    cases value with
    | arr methods =>
      dsimp only
      split_ifs with hsettle
      · rfl
      · rw [← funext (stampDirective_claims sender.user sender.recordedAt), ← mapM_map]
        cases hstamped : methods.mapM (stampDirective sender.user sender.recordedAt) with
        | error thrown => rfl
        | ok stamped =>
          refine congrArg Except.ok ((attributed_methods base _ _ ?_).trans ?_)
          · split_ifs <;> simp
          · simp only [attributedUser, huserId, huserEmail, List.map_map, Function.comp_def]
    | _ => exact congrArg Except.ok (hplain (by rw [methodsOf, hmethods, hbody]; rfl))

/-- What `POST /factory` attributes a request to. -/
theorem handed_queue (body : Json) :
    handed s sender .queue body =
      (decided s sender body).map (attributedUser sender (auditEmail sender body)) := by
  unfold handed OperatorAttribution.executionQueue decided
  split_ifs
  · rfl
  · cases methodList (body.field? "methods") with
    | none => rfl
    | some methods =>
      dsimp only
      cases gate s.toGateState sender.userContext (gateTournamentIds body)
          (requestedMethods methods) methods with
      | error thrown => rfl
      | ok denial =>
        cases denial with
        | some reason => rfl
        | none =>
          refine Eq.trans ?_ (attributed_stamped s sender body)
          cases stampVerifiedIdentity sender.user sender.recordedAt
            (enrichedQueue s sender body) <;> rfl

/-- Stamping goes by the methods without their claims. -/
theorem stampedMethods_unclaimed (methods : Option Json) :
    stampedMethods sender (unclaimedMethods methods) = stampedMethods sender methods := by
  cases methods with
  | none => rfl
  | some value =>
    cases value with
    | arr methods =>
      have hany : (methods.map unclaimed).any isSettlement = methods.any isSettlement := by
        rw [List.any_map]
        simp only [Function.comp_def, isSettlement_unclaimed]
      have hloop : (methods.map unclaimed).mapM (stampedClaims sender.user) =
          methods.mapM (stampedClaims sender.user) := by
        rw [List.mapM_map]
        simp only [Function.comp_def, stampedClaims_unclaimed]
      simp only [unclaimedMethods, Option.map_some, stampedMethods, hany, hloop]
    | _ => rfl

/-- A body without its claims has the other fields, and its methods without theirs. -/
theorem field_unclaimedQueue (body : Json) :
    (unclaimedQueue body).field? "methods" = unclaimedMethods (body.field? "methods") ∧
      ∀ key, key ∉ ["userId", "userEmail", "methods"] →
        (unclaimedQueue body).field? key = body.field? key := by
  cases body with
  | obj fields =>
    refine ⟨?_, fun key hkey => field_assigned_of_not_mem (by simpa using hkey)⟩
    have hread : (Json.obj (assigned fields ([("userId", none), ("userEmail", none)] ++
        ("methods", unclaimedMethods ((Json.obj fields).field? "methods")) :: []))).field?
          "methods" = unclaimedMethods ((Json.obj fields).field? "methods") :=
      field_assigned_mid (by simp)
    exact hread
  | _ => exact ⟨rfl, fun _ _ => rfl⟩

/-- `POST /factory` decides on the body without its claims. -/
theorem decided_unclaimed (body : Json) :
    decided s sender (unclaimedQueue body) = decided s sender body := by
  obtain ⟨hmethods, hfields⟩ := field_unclaimedQueue body
  have hforeign : foreignCommand sender.requestUser (unclaimedQueue body) =
      foreignCommand sender.requestUser body := by
    rw [foreignCommand, foreignCommand, hfields "commandId" (by decide),
      hfields "commandUser" (by decide)]
  have hids : gateTournamentIds (unclaimedQueue body) = gateTournamentIds body := by
    rw [gateTournamentIds, gateTournamentIds, hfields "tournamentId" (by decide),
      hfields "tournamentIds" (by decide)]
  have hlist : methodList (unclaimedMethods (body.field? "methods")) =
      (methodList (body.field? "methods")).map (List.map unclaimed) := by
    cases body.field? "methods" with
    | none => rfl
    | some value => cases value <;> rfl
  unfold decided
  rw [hforeign, hids, hmethods, hlist, stampedMethods_unclaimed]
  split_ifs
  · rfl
  · cases methodList (body.field? "methods") with
    | none => rfl
    | some methods => simp only [Option.map_some, gate_unclaimed]

/-- A directive can be stamped unless it settles with params that take no property. -/
theorem isOk_stampedClaims (directive : Json) :
    (stampedClaims sender.user directive).isOk =
      (!isSettlement directive || assignable (directive.field? "params")) := by
  unfold stampedClaims
  cases isSettlement directive <;> cases assignable (directive.field? "params") <;> rfl

/-- The methods are stamped where they can be. -/
theorem isOk_stampedMethods {methods : Option Json} {directives : List Json}
    (h : methodList methods = some directives) :
    (stampedMethods sender methods).isOk = stampable sender directives := by
  have hempty : stampable sender [] = true := rfl
  cases methods with
  | none =>
    cases h
    exact hempty.symm
  | some value =>
    cases value with
    | null =>
      cases h
      exact hempty.symm
    | arr items =>
      cases h
      have hloop : (directives.mapM (stampedClaims sender.user)).isOk =
          directives.all fun directive =>
            !isSettlement directive || assignable (directive.field? "params") := by
        rw [isOk_mapM]
        simp only [isOk_stampedClaims]
      unfold stampedMethods stampable
      dsimp only
      rw [← hloop]
      cases directives.any isSettlement <;> cases maySettle sender.user <;> rfl
    | _ => cases h

/-- A body passes the checks where claims are decided on. -/
theorem isOk_decided (body : Json) : (decided s sender body).isOk = passes s sender body := by
  unfold decided passes
  cases foreignCommand sender.requestUser body with
  | true => rfl
  | false =>
    cases hlist : methodList (body.field? "methods") with
    | none => rfl
    | some methods =>
      have hstamped := isOk_stampedMethods sender hlist
      simp only [Bool.false_eq_true, if_false, Bool.not_false, Bool.true_and]
      cases gate s.toGateState sender.userContext (gateTournamentIds body)
          (requestedMethods methods) methods with
      | error thrown => rfl
      | ok denial =>
        cases denial with
        | some reason => rfl
        | none => exact hstamped

/-- The server's attester names the user. -/
theorem names_of_operatorAttribution {user : Option VerifiedUser} {attester : Json}
    (h : operatorAttribution user = some attester) : Names user attester := by
  obtain ⟨userId, hid, rfl⟩ := Option.map_eq_some_iff.mp h
  exact ⟨userId, (nonEmpty_eq_some.mp hid).1, rfl⟩

/-- An attester that is left names the user. -/
theorem names_of_stampedClaims {user : Option VerifiedUser} {directive attestation : Json}
    {claim : Option Json × Option Json} (h : stampedClaims user directive = .ok claim)
    (hattested : claim.1 = some attestation) : Names user attestation := by
  unfold stampedClaims at h
  split at h
  · cases h
  · obtain rfl := Except.ok.inj h
    dsimp only at hattested
    split_ifs at hattested
    exact names_of_operatorAttribution hattested

/-- Whatever the queue is handed names the user. -/
theorem named_of_decided {body : Json} {claims : List (Option Json × Option Json)}
    (h : decided s sender body = .ok claims) {attestation : Json}
    (hmem : some attestation ∈ claims.map Prod.fst) : Names sender.user attestation := by
  obtain ⟨claim, hclaim, hfst⟩ := List.mem_map.mp hmem
  have hmethods : stampedMethods sender (body.field? "methods") = .ok claims := by
    unfold decided at h
    split_ifs at h
    split at h
    · cases h
    · split at h
      · cases h
      · cases h
      · exact h
  unfold stampedMethods at hmethods
  split at hmethods
  · split_ifs at hmethods
    obtain ⟨directive, -, hstamped⟩ := mem_mapM hmethods hclaim
    exact names_of_stampedClaims hstamped hfst
  · cases hmethods
    cases hclaim

/-- Without its claims, a request to `POST /factory` is attributed alike up to the email. -/
theorem queue_attributed_iff {first second : Json}
    (h : unclaimedQueue first = unclaimedQueue second) :
    AttributedAlike s sender .queue first second ↔
      (passes s sender first = true → EmailSettled sender first second) := by
  have hdecided : decided s sender second = decided s sender first := by
    rw [← decided_unclaimed, ← h, decided_unclaimed]
  have hpasses := isOk_decided s sender first
  have hemail := auditEmail_iff sender first second
  constructor
  · rintro ⟨hsame, -⟩ hpass
    rw [handed_queue, handed_queue, hdecided] at hsame
    cases hclaims : decided s sender first with
    | error thrown =>
      rw [hclaims, hpass] at hpasses
      cases hpasses
    | ok claims =>
      rw [hclaims] at hsame
      exact hemail.mp (congrArg Attributed.auditUserEmail (Except.ok.inj hsame))
  · intro hsettled
    refine ⟨?_, fun a ha attestation hmem => ?_⟩
    · rw [handed_queue, handed_queue, hdecided]
      cases hclaims : decided s sender first with
      | error thrown => rfl
      | ok claims =>
        rw [hclaims] at hpasses
        rw [hemail.mpr (hsettled hpasses.symm)]
    · rw [handed_queue] at ha
      cases hclaims : decided s sender first with
      | error thrown =>
        rw [hclaims] at ha
        cases ha
      | ok claims =>
        rw [hclaims] at ha
        cases ha
        exact named_of_decided s sender hclaims hmem

end Queue

/-! ## The score -/

section Score

variable (s : WriteState) (sender : Sender)

/-- The user id that a score is audited and broadcast under. -/
def scoreUserId (body : Json) : Option Json :=
  if carriesId sender.user then some (verifiedText sender.user) else body.field? "userId"

/-- A `USER` attestation is what its property says. -/
theorem userAttestation_congr {params params' : Option Json}
    (h : chain params "attributedTo" = chain params' "attributedTo") :
    userAttestation params = userAttestation params' := by
  rw [userAttestation, userAttestation, h]

/-- What the route knows of a score stands beside what the client sent. -/
theorem fields_enrichedScore (body : Json) :
    (Json.obj (enrichedScore sender body)).field? "userId" = scoreUserId sender body ∧
      (Json.obj (enrichedScore sender body)).field? "userEmail" = auditEmail sender body ∧
      ∀ key, key ∉ ["auditSource", "source", "userEmail", "userId"] →
        key.toList.any (fun c => !c.isDigit) = true →
        (Json.obj (enrichedScore sender body)).field? key = body.field? key := by
  unfold enrichedScore
  refine ⟨?_, ?_, fun key hkey hname => ?_⟩
  · unfold scoreUserId
    split_ifs
    · exact field_assigned_mid (by simp)
    · exact (field_assigned_of_not_mem (by simp)).trans (field_entries (by decide) body)
  · unfold auditEmail
    cases verifiedEmail sender.user with
    | none =>
      refine (field_assigned_of_not_mem ?_).trans (field_entries (by decide) body)
      split_ifs <;> simp
    | some email =>
      simp only [Option.toList_some, List.map_cons, List.map_nil, List.append_assoc,
        List.singleton_append]
      refine field_assigned_mid ?_
      split_ifs <;> simp
  · refine (field_assigned_of_not_mem ?_).trans (field_entries hname body)
    have hkeys : key ≠ "auditSource" ∧ key ≠ "source" ∧ key ≠ "userEmail" ∧ key ≠ "userId" := by
      simpa using hkey
    split_ifs <;> simp [hkeys, Ne.symm hkeys.2.2.1]

/-- The directive of a score. -/
def scoreDirective (payload : Json) : Json :=
  .obj [("method", .str "setMatchUpStatus"),
    ("params", .obj ((flatScore payload).entries.filter fun f => f.1 != "tournamentId"))]

/-- What the queue is called with for a score. -/
theorem fields_setMatchUpStatus (payload : Json) :
    (setMatchUpStatus payload).field? "userId" = payload.field? "userId" ∧
      (setMatchUpStatus payload).field? "userEmail" = payload.field? "userEmail" ∧
      methodsOf (setMatchUpStatus payload) = [scoreDirective payload] := by
  set head : List (String × Option Json) :=
    [("tournamentId", (flatScore payload).field? "tournamentId"),
      ("methods", some (.arr [scoreDirective payload]))] with hhead
  have hid : setMatchUpStatus payload = .obj (assigned [] (head ++
      ("userId", payload.field? "userId") :: carriedKeys.tail.map fun key =>
        (key, payload.field? key))) := rfl
  have hemail : setMatchUpStatus payload = .obj (assigned []
      ((head ++ [("userId", payload.field? "userId")]) ++
        ("userEmail", payload.field? "userEmail") :: carriedKeys.tail.tail.map fun key =>
          (key, payload.field? key))) := rfl
  have hmethods : setMatchUpStatus payload = .obj (assigned []
      ([("tournamentId", (flatScore payload).field? "tournamentId")] ++
        ("methods", some (.arr [scoreDirective payload])) :: carriedKeys.map fun key =>
          (key, payload.field? key))) := rfl
  refine ⟨?_, ?_, ?_⟩
  · rw [hid]
    exact field_assigned_mid (by simp [carriedKeys])
  · rw [hemail]
    exact field_assigned_mid (by simp [carriedKeys])
  · rw [methodsOf, hmethods, field_assigned_mid (by simp [carriedKeys])]
    rfl

/-- The route passes the attestation of the request on. -/
theorem attestation_score (body : Json) :
    attestationOf (scoreDirective (.obj (enrichedScore sender body))) = scoreAttestation body := by
  obtain ⟨-, -, hkept⟩ := fields_enrichedScore sender body
  have hparams := hkept "params" (by decide) (by decide)
  have hmatchUp := hkept "matchUpId" (by decide) (by decide)
  have hattested := hkept "attributedTo" (by decide) (by decide)
  refine userAttestation_congr ?_
  have hread : ∀ flat : Json, (Json.obj (flat.entries.filter fun f => f.1 != "tournamentId")).field?
      "attributedTo" = flat.field? "attributedTo" := by
    intro flat
    have hdropped : (Json.obj (flat.entries.filter fun f => f.1 != "tournamentId")).field?
        "attributedTo" = (Json.obj flat.entries).field? "attributedTo" :=
      congrArg (Option.map Prod.snd) (find_dropped (by decide))
    exact hdropped.trans (field_entries (by decide) flat)
  have hflat : (flatScore (.obj (enrichedScore sender body))).field? "attributedTo" =
      chain (if isWrapped body then body.field? "params" else some body) "attributedTo" := by
    unfold flatScore isWrapped
    rw [hparams, hmatchUp]
    split_ifs with hwrapped
    · cases hvalue : body.field? "params" with
      | none =>
        rw [hvalue] at hwrapped
        cases hwrapped
      | some params => rfl
    · exact hattested
  exact (hread _).trans hflat

/-- What `POST /factory/score` attributes a request to. -/
theorem handed_score (body : Json) :
    handed s sender .score body =
      .ok { auditUserId := scoreUserId sender body
            auditUserEmail := auditEmail sender body
            broadcastUserId := scoreUserId sender body
            attestations := [scoreAttestation body]
            recorders := [none] } := by
  obtain ⟨hid, hemail, -⟩ := fields_enrichedScore sender body
  obtain ⟨huserId, huserEmail, hmethods⟩ :=
    fields_setMatchUpStatus (.obj (enrichedScore sender body))
  have hrecorder : recorderOf (scoreDirective (.obj (enrichedScore sender body))) = none := rfl
  simp only [handed, attributed, scoreMatchUp, huserId, huserEmail, hmethods, hid, hemail,
    List.map_cons, List.map_nil, attestation_score, hrecorder]

/-- Two scores are attributed alike where the token says what they claim. -/
theorem score_attributed_iff (first second : Json) :
    AttributedAlike s sender .score first second ↔
      ClaimsOverruled s sender .score first second := by
  have hemail := auditEmail_iff sender first second
  have hid : scoreUserId sender first = scoreUserId sender second ↔
      carriesId sender.user = true ∨ first.field? "userId" = second.field? "userId" := by
    unfold scoreUserId
    cases carriesId sender.user <;> simp
  constructor
  · rintro ⟨hsame, hnamed⟩
    rw [handed_score, handed_score] at hsame
    obtain ⟨hids, hemails, -, hattestations, -⟩ := Attributed.mk.inj (Except.ok.inj hsame)
    refine ⟨hemail.mp hemails, hid.mp hids, (List.cons.inj hattestations).1, ?_⟩
    intro attestation hfound
    refine hnamed _ (handed_score s sender first) attestation ?_
    rw [hfound]
    exact List.mem_singleton_self _
  · rintro ⟨hemails, hids, hattestation, hnames⟩
    refine ⟨?_, fun a ha attestation hmem => ?_⟩
    · rw [handed_score, handed_score, hemail.mpr hemails, hid.mpr hids, hattestation]
    · rw [handed_score] at ha
      cases ha
      exact hnames attestation (List.mem_singleton.mp hmem).symm

end Score

/-- A director with a full token. -/
def director : Sender where
  user := some ⟨⟨some "user-1", none, some "director@a", none, [], none⟩, none⟩
  userContext := none
  auditSource := none
  recordedAt := "2026-01-01T00:00:00.000Z"

/-- An attestation that names somebody else. -/
def claimOf (userId : String) : Json :=
  .obj [("attributionType", .str "USER"), ("userId", .str userId)]

/-- A mutation that somebody else is said to have made. -/
def mutatedBy (userId : String) : Json :=
  .obj [("tournamentIds", strings ["t"]), ("userId", .str userId), ("methods",
    .arr [.obj [("method", .str "setMatchUpStatus"), ("params",
      .obj [("matchUpId", .str "m"), ("attributedTo", claimOf userId)])]])]

/-- A score that somebody else is said to have entered. -/
def scoredBy (userId : String) : Json :=
  .obj [("tournamentId", .str "t"), ("matchUpId", .str "m"), ("userId", .str userId),
    ("attributedTo", claimOf userId)]

/-- Two requests that differ in nothing but their claims are attributed alike, with
attestations that name the user, exactly where the token overrules the claims. -/
theorem attributed_alike_iff (s : WriteState) (sender : Sender) (route : MutationRoute)
    (first second : Json) (h : DifferInClaims route first second) :
    AttributedAlike s sender route first second ↔
      ClaimsOverruled s sender route first second := by
  cases route with
  | queue => exact queue_attributed_iff s sender h
  | score => exact score_attributed_iff s sender first second

/-- The director's mutation names the director, whoever the body names. -/
theorem director_mutation_alike :
    DifferInClaims .queue (mutatedBy "user-2") (mutatedBy "user-3") ∧
      AttributedAlike SubsidiaryScope.subsidiaryOfA director .queue (mutatedBy "user-2")
        (mutatedBy "user-3") := by
  have hdiffer : DifferInClaims .queue (mutatedBy "user-2") (mutatedBy "user-3") := rfl
  exact ⟨hdiffer, (attributed_alike_iff _ director .queue _ _ hdiffer).mpr fun _ => .inl rfl⟩

/-- The director's score is attributed to whom the body names, with a full token. -/
theorem director_score_differs :
    DifferInClaims .score (scoredBy "user-2") (scoredBy "user-3") ∧
      ¬ AttributedAlike SubsidiaryScope.subsidiaryOfA director .score (scoredBy "user-2")
        (scoredBy "user-3") := by
  refine ⟨rfl, fun h => ?_⟩
  have hsame := h.same
  rw [handed_score, handed_score] at hsame
  have hattested : scoreAttestation (scoredBy "user-2") = scoreAttestation (scoredBy "user-3") :=
    (List.cons.inj (congrArg Attributed.attestations (Except.ok.inj hsame))).1
  have hnamed : some "user-2" = some "user-3" :=
    congrArg (fun attestation => (chain attestation "userId").bind Json.str?) hattested
  exact absurd hnamed (by decide)

end FactoryServer.SenderIndependence
