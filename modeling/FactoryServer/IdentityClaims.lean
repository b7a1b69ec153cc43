import FactoryServer.OperatorAttribution
import FactoryServer.QueueGating

/-!
# Claims of identity and what they decide

Two requests that differ in nothing but what they claim about their sender are refused
alike, and their directives leave the server with one attester and one recorder. The email
of the audit row follows the request where the token has none. A score's user id does too,
and its attestations are those of the request whatever the token says.
-/

namespace FactoryServer.IdentityClaims

open JsonValue TournamentAccess CommandTransaction ExecutionQueue MutationGate ScopedGrants
  TournamentWrites OperatorAttribution
open QueueGating (field_entries methodsOf)

/-! ## What is attributed -/

/-- `recordedBy` of a settlement. -/
def recorderOf (directive : Json) : Option Json :=
  if isSettlement directive then chain (directive.field? "params") "recordedBy" else none

/-- What a mutation is attributed to. -/
structure Attributed where
  /-- `userId` of the audit row. -/
  auditUserId : Option Json
  /-- `userEmail` of the audit row. -/
  auditUserEmail : Option Json
  /-- `userId` of the broadcast. -/
  broadcastUserId : Option Json
  /-- The `USER` attestation of every directive that the engine is given. -/
  attestations : List (Option Json)
  /-- The `recordedBy` of every directive that is a settlement. -/
  recorders : List (Option Json)

/-- The queue audits under `payload?.userId` and `payload?.userEmail`, the routes broadcast
under `payload.userId`, and the engine is given the payload's methods. -/
def attributed (payload : Json) : Attributed where
  auditUserId := payload.field? "userId"
  auditUserEmail := payload.field? "userEmail"
  broadcastUserId := payload.field? "userId"
  attestations := (methodsOf payload).map attestationOf
  recorders := (methodsOf payload).map recorderOf

/-- The two routes. -/
inductive MutationRoute where
  /-- `POST /factory`. -/
  | queue
  /-- `POST /factory/score`. -/
  | score

variable (s : WriteState) (sender : Sender)

/-- What a request is attributed to, where it is not refused. -/
def handed (route : MutationRoute) (body : Json) : Except Thrown Attributed :=
  match route with
  | .queue => (executionQueue s sender body).map attributed
  | .score => .ok (attributed (scoreMatchUp sender body))

/-- The attestation names the authenticated user. -/
def Names (user : Option VerifiedUser) (attestation : Json) : Prop :=
  ∃ userId, verifiedId user = some userId ∧ attestation.field? "userId" = some (.str userId)

/-- Two requests are attributed alike, and what they attest names the user. -/
structure AttributedAlike (route : MutationRoute) (first second : Json) : Prop where
  /-- Both are refused in one way, or attributed in one way. -/
  same : handed s sender route first = handed s sender route second
  /-- Every attestation that remains names the user. -/
  named : ∀ a, handed s sender route first = .ok a →
    ∀ attestation, some attestation ∈ a.attestations → Names sender.user attestation

/-! ## Requests without their claims -/

/-- The params with nothing but its type left of a `USER` attestation. -/
def unattested (params : Json) : Json :=
  if (userAttestation (some params)).isSome then
    spread (some params) [("attributedTo", .obj [("attributionType", .str USER_ATTRIBUTION)])]
  else params

/-- The directive without the claims in its params. -/
def unclaimed (directive : Json) : Json :=
  match directive.field? "params" with
  | none => directive
  | some params =>
    withParams directive
      (unattested (if isSettlement directive then without params "recordedBy" else params))

/-- Methods without the claims in them. -/
def unclaimedMethods (methods : Option Json) : Option Json :=
  methods.map fun value =>
    match value with
    | .arr directives => .arr (directives.map unclaimed)
    | value => value

/-- The body of `POST /factory` without its claims. -/
def unclaimedQueue (body : Json) : Json :=
  match body with
  | .obj fields =>
    .obj (assigned fields [("userId", none), ("userEmail", none),
      ("methods", unclaimedMethods (body.field? "methods"))])
  | body => body

/-- `payload?.params && !payload?.matchUpId`. -/
def isWrapped (body : Json) : Bool :=
  truthy (body.field? "params") && !truthy (body.field? "matchUpId")

/-- The body of `POST /factory/score` without its claims. -/
def unclaimedScore (body : Json) : Json :=
  match body with
  | .obj fields =>
    let rest := assigned fields [("userId", none), ("userEmail", none)]
    if isWrapped body then .obj (put rest ("params", (body.field? "params").map unattested))
    else unattested (.obj rest)
  | body => body

/-- Two bodies differ in nothing but what they claim about the sender. -/
def DifferInClaims (route : MutationRoute) (first second : Json) : Prop :=
  match route with
  | .queue => unclaimedQueue first = unclaimedQueue second
  | .score => unclaimedScore first = unclaimedScore second

/-! ## When claims do not matter -/

/-- The token has an email, or the bodies claim the same. -/
def EmailSettled (first second : Json) : Prop :=
  (verifiedEmail sender.user).isSome = true ∨
    first.field? "userEmail" = second.field? "userEmail"

/-- A property can be assigned on the params, or none is. -/
def assignable : Option Json → Bool
  | some (.obj _) => true
  | some (.arr _) => true
  | params => !truthy params

/-- The directives can be stamped. -/
def stampable (methods : List Json) : Bool :=
  (!methods.any isSettlement || maySettle sender.user) &&
    methods.all fun directive => !isSettlement directive || assignable (directive.field? "params")

/-- The body passes the checks of `POST /factory`. -/
def passes (body : Json) : Bool :=
  !foreignCommand sender.requestUser body &&
    match methodList (body.field? "methods") with
    | none => false
    | some methods =>
      (match gate s.toGateState sender.userContext (gateTournamentIds body)
          (requestedMethods methods) methods with
        | .ok none => true
        | _ => false) && stampable sender methods

/-- The `USER` attestation in the params of a score. -/
def scoreAttestation (body : Json) : Option Json :=
  userAttestation (if isWrapped body then body.field? "params" else some body)

/-- The token says what the bodies would otherwise differ in. -/
def ClaimsOverruled (route : MutationRoute) (first second : Json) : Prop :=
  match route with
  | .queue => passes s sender first = true → EmailSettled sender first second
  | .score => EmailSettled sender first second ∧
      (carriesId sender.user = true ∨ first.field? "userId" = second.field? "userId") ∧
      scoreAttestation first = scoreAttestation second ∧
      ∀ attestation, scoreAttestation first = some attestation → Names sender.user attestation

/-! ## Properties of objects -/

section Fields

variable {fields : List (String × Json)} {key other : String} {value : Option Json}

/-- An assigned property reads back. -/
@[simp] theorem field_put_self : (Json.obj (put fields (key, value))).field? key = value := by
  cases value with
  | none =>
    have hnone : (fields.filter fun f => f.1 != key).find? (fun f => f.1 == key) = none := by
      refine List.find?_eq_none.mpr fun f hf => ?_
      simpa using (List.mem_filter.mp hf).2
    simp only [put, Json.field?, hnone, Option.map_none]
  | some found => simp only [put, Json.field?, find_setField_self, Option.map_some]

/-- Dropping a property leaves the others. -/
theorem find_dropped (h : other ≠ key) :
    (fields.filter fun f => f.1 != key).find? (fun f => f.1 == other) =
      fields.find? fun f => f.1 == other := by
  rw [List.find?_filter]
  congr 1
  funext f
  by_cases hf : f.1 = other
  · simp [hf, h]
  · simp [hf]

/-- Assigning a property leaves the others. -/
theorem field_put_of_ne (h : other ≠ key) :
    (Json.obj (put fields (key, value))).field? other = (Json.obj fields).field? other := by
  cases value with
  | none => simp only [put, Json.field?, find_dropped h]
  | some found => simp only [put, Json.field?, find_setField_of_ne h]

/-- A property that is not assigned. -/
theorem field_assigned_of_not_mem {extra : List (String × Option Json)}
    (h : key ∉ extra.map Prod.fst) :
    (Json.obj (assigned fields extra)).field? key = (Json.obj fields).field? key := by
  induction extra generalizing fields with
  | nil => rfl
  | cons entry rest ih =>
    rw [List.map_cons, List.mem_cons, not_or] at h
    have hrest : (Json.obj (assigned (put fields entry) rest)).field? key =
        (Json.obj (put fields entry)).field? key := ih h.2
    exact hrest.trans (field_put_of_ne h.1)

/-- The last value assigned to a property. -/
theorem field_assigned_mid {front back : List (String × Option Json)}
    (h : key ∉ back.map Prod.fst) :
    (Json.obj (assigned fields (front ++ (key, value) :: back))).field? key = value := by
  have hsplit : assigned fields (front ++ (key, value) :: back) =
      assigned (put (assigned fields front) (key, value)) back := by
    simp only [assigned, List.foldl_append, List.foldl_cons]
  rw [hsplit, field_assigned_of_not_mem h, field_put_self]

/-- `delete` leaves the other properties. -/
theorem field_without_of_ne (h : other ≠ key) (object : Json) :
    (without object key).field? other = object.field? other := by
  cases object with
  | obj fields => simp only [without, Json.field?, find_dropped h]
  | _ => rfl

/-- A deleted property is gone. -/
theorem field_without_self (object : Json) : (without object key).field? key = none := by
  cases object with
  | obj fields =>
    have hput : (Json.obj (put fields (key, none))).field? key = none := field_put_self
    exact hput
  | _ => rfl

/-- The params of a directive are those it was given. -/
theorem field_withParams (directive params : Json) :
    (withParams directive params).field? "params" = some params :=
  field_spread_assigned (some directive) [] params (by simp)

/-- New params leave the rest of the directive. -/
theorem field_withParams_of_ne {directive : Json} (params : Json)
    (h : (directive.field? "params").isSome = true) (hne : key ≠ "params") :
    (withParams directive params).field? key = directive.field? key := by
  obtain ⟨found, hfound⟩ := Option.isSome_iff_exists.mp h
  obtain ⟨fields, rfl⟩ := Json.obj_of_field hfound
  exact field_spread_obj fields (by simpa using hne)

end Fields

/-! ## Stamping a directive -/

section Directives

variable (user : Option VerifiedUser)

/-- The value is an object. -/
def isObject : Option Json → Bool
  | some (.obj _) => true
  | _ => false

/-- What stamping leaves of the claims of a directive: its attester and its recorder. -/
def stampedClaims (directive : Json) : Except Thrown (Option Json × Option Json) :=
  if isSettlement directive && !assignable (directive.field? "params") then .error typeError
  else .ok
    (if (attestationOf directive).isSome then operatorAttribution user else none,
      if isSettlement directive && isObject (directive.field? "params") then
        some (.str ((verifiedId user).getD ""))
      else none)

/-- The server's own attester is a `USER` attestation. -/
theorem isUserAttestation_attester {attester : Json} (h : operatorAttribution user = some attester) :
    isUserAttestation attester = true := by
  obtain ⟨userId, -, rfl⟩ := Option.map_eq_some_iff.mp h
  simp [isUserAttestation, attesterOf, Json.field?, isText]

/-- Replacing an attestation touches nothing else. -/
theorem attest_claims (directive : Json) :
    isSettlement (attest user directive).directive = isSettlement directive ∧
      attestationOf (attest user directive).directive =
        (if (attestationOf directive).isSome then operatorAttribution user else none) ∧
      recorderOf (attest user directive).directive = recorderOf directive := by
  cases hattestation : attestationOf directive with
  | none => simp only [attest, hattestation, Option.isSome_none, Bool.false_eq_true, if_false, and_self]
  | some attributedTo =>
    obtain ⟨params, hparams, hfield⟩ : ∃ params, directive.field? "params" = some params ∧
        params.field? "attributedTo" = some attributedTo := by
      have hfound := Option.filter_eq_some_iff.mp hattestation
      exact Option.bind_eq_some_iff.mp hfound.1
    obtain ⟨fields, rfl⟩ := Json.obj_of_field hfield
    have hsome : (directive.field? "params").isSome = true := by rw [hparams, Option.isSome_some]
    have hframe : ∀ after : Json, after.field? "recordedBy" = (Json.obj fields).field? "recordedBy" →
        isSettlement (withParams directive after) = isSettlement directive ∧
          recorderOf (withParams directive after) = recorderOf directive := by
      intro after hafter
      have hmethod : (withParams directive after).field? "method" = directive.field? "method" :=
        field_withParams_of_ne after hsome (by decide)
      have hsettlement : isSettlement (withParams directive after) = isSettlement directive := by
        rw [isSettlement, isSettlement, hmethod]
      refine ⟨hsettlement, ?_⟩
      rw [recorderOf, recorderOf, hsettlement, field_withParams, hparams]
      simp only [chain, Option.bind_some, hafter]
    cases hattester : operatorAttribution user with
    | none =>
      have hstamped : (attest user directive).directive =
          withParams directive (without (.obj fields) "attributedTo") := by
        simp only [attest, hattestation, hattester, hparams, Option.getD_some]
      obtain ⟨hsettlement, hrecorder⟩ := hframe (without (.obj fields) "attributedTo")
        (field_without_of_ne (by decide) _)
      rw [hstamped]
      refine ⟨hsettlement, ?_, hrecorder⟩
      rw [attestationOf, field_withParams]
      simp only [userAttestation, chain, Option.bind_some, field_without_self, Option.filter_none,
        Option.isSome_some, if_true]
    | some attester =>
      have hstamped : (attest user directive).directive =
          withParams directive (spread (some (.obj fields)) [("attributedTo", attester)]) := by
        simp only [attest, hattestation, hattester, hparams]
      obtain ⟨hsettlement, hrecorder⟩ := hframe
        (spread (some (.obj fields)) [("attributedTo", attester)])
        (field_spread_obj fields (by simp))
      have hread : (spread (some (Json.obj fields)) [("attributedTo", attester)]).field?
          "attributedTo" = some attester := field_spread_assigned _ [] attester (by simp)
      rw [hstamped]
      refine ⟨hsettlement, ?_, hrecorder⟩
      rw [attestationOf, field_withParams]
      simp only [userAttestation, chain, Option.bind_some, hread, Option.filter_some,
        isUserAttestation_attester user hattester, if_true, Option.isSome_some]

/-- A settlement's params that are an object get the actor and the time. -/
theorem settle_object {directive : Json} {fields : List (String × Json)} (recordedAt : String)
    (hsettlement : isSettlement directive = true)
    (hparams : directive.field? "params" = some (.obj fields)) :
    ∃ settled, settle user recordedAt directive = .ok settled ∧
      isSettlement settled.directive = true ∧
      attestationOf settled.directive = attestationOf directive ∧
      recorderOf settled.directive = some (.str ((verifiedId user).getD "")) := by
  set after := spread (some (.obj fields))
    [("recordedBy", .str ((verifiedId user).getD "")), ("recordedAt", .str recordedAt)] with hafter
  have hsome : (directive.field? "params").isSome = true := by rw [hparams, Option.isSome_some]
  have hkept : isSettlement (withParams directive after) = true := by
    rw [isSettlement, field_withParams_of_ne after hsome (by decide)]
    exact hsettlement
  refine ⟨_, by simp only [settle, hsettlement, hparams, truthy, Bool.and_self, Bool.not_true,
    Bool.false_eq_true, if_false]; rfl, hkept, ?_, ?_⟩
  · have hfield : after.field? "attributedTo" = (Json.obj fields).field? "attributedTo" :=
      field_spread_obj fields (by simp)
    simp only [attestationOf, ← hafter, field_withParams, hparams, userAttestation, chain,
      Option.bind_some, hfield]
  · have hfield : after.field? "recordedBy" = some (.str ((verifiedId user).getD "")) :=
      field_spread_assigned _ [] _ (by simp)
    simp only [recorderOf, ← hafter, hkept, if_true, field_withParams, chain, Option.bind_some,
      hfield]

/-- A directive whose params are no object has no attestation and no recorder. -/
theorem claims_of_not_object {directive : Json}
    (h : isObject (directive.field? "params") = false) :
    attestationOf directive = none ∧ recorderOf directive = none := by
  have hfield : ∀ key, chain (directive.field? "params") key = none := by
    intro key
    cases hparams : directive.field? "params" with
    | none => rfl
    | some params =>
      cases params with
      | obj fields =>
        rw [hparams] at h
        cases h
      | _ => rfl
  refine ⟨?_, ?_⟩
  · rw [attestationOf, userAttestation, hfield, Option.filter_none]
  · rw [recorderOf, hfield, ite_self]

/-- What settling leaves of the claims of a directive. -/
theorem settle_claims (recordedAt : String) (directive : Json) :
    (settle user recordedAt directive).map (fun settled =>
        ((attestationOf settled.directive).isSome, recorderOf settled.directive)) =
      if isSettlement directive && !assignable (directive.field? "params") then .error typeError
      else .ok ((attestationOf directive).isSome,
        if isSettlement directive && isObject (directive.field? "params") then
          some (.str ((verifiedId user).getD "")) else none) := by
  cases hsettlement : isSettlement directive with
  | false =>
    have hsame : settle user recordedAt directive = .ok ⟨directive, 0, false⟩ := by
      simp only [settle, hsettlement, Bool.false_and, Bool.not_false, if_true]
    have hnone : recorderOf directive = none := by
      rw [recorderOf, hsettlement]
      rfl
    rw [hsame, Except.map, hnone]
    rfl
  | true =>
    cases hobject : isObject (directive.field? "params") with
    | true =>
      cases hparams : directive.field? "params" with
      | none =>
        rw [hparams] at hobject
        cases hobject
      | some params =>
        cases params with
        | obj fields =>
          obtain ⟨settled, hok, -, hattestation, hrecorder⟩ :=
            settle_object user recordedAt hsettlement hparams
          rw [hok, Except.map, hattestation, hrecorder]
          rfl
        | _ =>
          rw [hparams] at hobject
          cases hobject
    | false =>
      obtain ⟨hattestation, hrecorder⟩ := claims_of_not_object hobject
      simp only [settle, hsettlement, Bool.true_and]
      cases hparams : directive.field? "params" with
      | none => simp [truthy, assignable, Except.map, hattestation, hrecorder]
      | some params =>
        cases params with
        | obj fields =>
          rw [hparams] at hobject
          cases hobject
        | arr items => simp [truthy, assignable, Except.map, hattestation, hrecorder]
        | null => simp [truthy, assignable, Except.map, hattestation, hrecorder]
        | bool b => cases b <;> simp [truthy, assignable, Except.map, hattestation, hrecorder]
        | num n =>
          cases hzero : n != 0 <;>
            simp [truthy, assignable, Except.map, hattestation, hrecorder, hzero]
        | str text =>
          cases hempty : text != "" <;>
            simp [truthy, assignable, Except.map, hattestation, hrecorder, hempty]

/-- What stamping leaves of the claims of a directive. -/
theorem stampDirective_claims (recordedAt : String) (directive : Json) :
    (stampDirective user recordedAt directive).map (fun stamped =>
        (attestationOf stamped.directive, recorderOf stamped.directive)) =
      stampedClaims user directive := by
  have hsettled := settle_claims user recordedAt directive
  rw [stampDirective, stampedClaims]
  cases hsettle : settle user recordedAt directive with
  | error thrown =>
    rw [hsettle] at hsettled
    split at hsettled
    next herror =>
      rw [if_pos herror]
      exact congrArg Except.error (Except.error.inj hsettled)
    next => cases hsettled
  | ok settled =>
    rw [hsettle] at hsettled
    split at hsettled
    next => cases hsettled
    next hok =>
      rw [if_neg hok]
      obtain ⟨-, hattestation, hrecorder⟩ := attest_claims user settled.directive
      obtain ⟨hsome, hsame⟩ := Prod.mk.inj (Except.ok.inj hsettled)
      simp only [Except.map, hattestation, hrecorder, hsome, hsame]

end Directives

end FactoryServer.IdentityClaims
