import FactoryServer.JsonText
import FactoryServer.TournamentWrites
import Mathlib.Algebra.GroupWithZero.Nat

/-!
# Whom a mutation is attributed to

A mutation request carries claims about its sender: `userId`, `userEmail`, attestations of
type `USER` and the `recordedBy` of a settlement. `POST /factory` replaces them by what the
token says, the email only where the token has one. `POST /factory/score` assembles its
payload elsewhere: what the token lacks stays as the client sent it, and attestations inside
the score are passed on.
-/

namespace FactoryServer.OperatorAttribution

open JsonValue JsonText TextCodes TournamentAccess CommandTransaction ExecutionQueue MutationGate
  TournamentWrites

/-! ## Objects -/

/-- Assign one property, or drop it where the value is `undefined`. -/
def put (fields : List (String × Json)) (entry : String × Option Json) : List (String × Json) :=
  match entry.2 with
  | some value => setField fields entry.1 value
  | none => fields.filter fun f => f.1 != entry.1

/-- Assign properties one after another. -/
def assigned (fields : List (String × Json)) (extra : List (String × Option Json)) :
    List (String × Json) :=
  extra.foldl put fields

/-- `delete value.key`. -/
def without (value : Json) (key : String) : Json :=
  match value with
  | .obj fields => .obj (fields.filter fun f => f.1 != key)
  | value => value

/-- The value is this string. -/
def isText (value : Option Json) (text : String) : Bool :=
  match value with
  | some (.str found) => found == text
  | _ => false

/-! ## The authenticated user -/

/-- `req.user`, with the claim that only attestations read. -/
structure VerifiedUser extends RequestUser where
  /-- `displayName`. -/
  displayName : Option String

/-- `USER_ATTRIBUTION`. -/
def USER_ATTRIBUTION : String := "USER"

/-- `verifiedUser?.userId ?? verifiedUser?.sub`. -/
def verifiedId (user : Option VerifiedUser) : Option String :=
  (user.bind fun u => u.userId).orElse fun _ => user.bind fun u => u.sub

/-- `verifiedUser?.userId ?? verifiedUser?.sub ?? null`. -/
def verifiedText (user : Option VerifiedUser) : Json := ((verifiedId user).map Json.str).getD .null

/-- `verifiedUser?.email`, where it is not empty. -/
def verifiedEmail (user : Option VerifiedUser) : Option String :=
  nonEmpty (user.bind fun u => u.email)

/-- The attester of a user id. -/
def attesterOf (user : Option VerifiedUser) (userId : String) : Json :=
  .obj ([("attributionType", .str USER_ATTRIBUTION), ("userId", .str userId)] ++
    ((verifiedEmail user).toList.map fun email => ("email", .str email)) ++
    ((nonEmpty (user.bind VerifiedUser.displayName)).toList.map fun name =>
      ("displayName", .str name)))

/-- `operatorAttribution`. -/
def operatorAttribution (user : Option VerifiedUser) : Option Json :=
  (nonEmpty (verifiedId user)).map (attesterOf user)

/-- The user may settle: the id is there and not blank. -/
def maySettle (user : Option VerifiedUser) : Bool :=
  (nonEmpty (verifiedId user)).any fun userId => !userId.toList.all isTrimmed

/-! ## Directives -/

/-- `directive?.method === 'settleRotatingPartnerResult'`. -/
def isSettlement (directive : Json) : Bool :=
  isText (directive.field? "method") "settleRotatingPartnerResult"

/-- `attributedTo?.attributionType === USER_ATTRIBUTION`. -/
def isUserAttestation (attributedTo : Json) : Bool :=
  isText (attributedTo.field? "attributionType") USER_ATTRIBUTION

/-- The `USER` attestation of some params. -/
def userAttestation (params : Option Json) : Option Json :=
  (chain params "attributedTo").filter isUserAttestation

/-- The `USER` attestation of a directive. -/
def attestationOf (directive : Json) : Option Json := userAttestation (directive.field? "params")

/-- The directive with other params. -/
def withParams (directive params : Json) : Json := spread (some directive) [("params", params)]

/-- What stamping makes of a directive. -/
structure Stamped where
  /-- The directive. -/
  directive : Json
  /-- How many identities were replaced. -/
  rewritten : ℕ
  /-- `payload.serverStamped` is set. -/
  changed : Bool

/-- The settlement's actor and time; a property of an array is not serialised, and one of a
primitive value cannot be assigned. -/
def settle (user : Option VerifiedUser) (recordedAt : String) (directive : Json) :
    Except Thrown Stamped :=
  let params := directive.field? "params"
  let userId := (verifiedId user).getD ""
  if !(isSettlement directive && truthy params) then .ok ⟨directive, 0, false⟩ else
  match params with
  | some (.obj fields) =>
    let differs := !isText (chain params "recordedBy") userId
    .ok ⟨withParams directive
        (spread (some (.obj fields)) [("recordedBy", .str userId), ("recordedAt", .str recordedAt)]),
      if differs then 1 else 0, differs || !isText (chain params "recordedAt") recordedAt⟩
  | some (.arr _) => .ok ⟨directive, 1, true⟩
  | _ => .error typeError

/-- The attestation is replaced by the server's own, or dropped where there is none. -/
def attest (user : Option VerifiedUser) (directive : Json) : Stamped :=
  let params := directive.field? "params"
  match attestationOf directive, operatorAttribution user with
  | none, _ => ⟨directive, 0, false⟩
  | some attributedTo, some attester =>
    ⟨withParams directive (spread params [("attributedTo", attester)]),
      if isText (attributedTo.field? "userId") ((verifiedId user).getD "") then 0 else 1,
      stringify attributedTo != stringify attester⟩
  | some _, none => ⟨withParams directive (without (params.getD .null) "attributedTo"), 1, true⟩

/-- One turn of the loop over the methods. -/
def stampDirective (user : Option VerifiedUser) (recordedAt : String) (directive : Json) :
    Except Thrown Stamped :=
  (settle user recordedAt directive).map fun settled =>
    let attested := attest user settled.directive
    ⟨attested.directive, settled.rewritten + attested.rewritten,
      settled.changed || attested.changed⟩

/-- `stampOperatorAttribution`: the payload as it is left, and the number it returns. -/
def stampOperatorAttribution (user : Option VerifiedUser) (recordedAt : String)
    (fields : List (String × Json)) : Except Thrown (List (String × Json) × ℕ) :=
  match (Json.obj fields).field? "methods" with
  | some (.arr methods) =>
    if methods.any isSettlement && !maySettle user then
      .error (.http 403 "Authenticated actor required for settlement")
    else (methods.mapM (stampDirective user recordedAt)).map fun stamped =>
      (assigned fields ([("methods", some (.arr (stamped.map Stamped.directive)))] ++
        if stamped.any Stamped.changed then [("serverStamped", some (.bool true))] else []),
        (stamped.map Stamped.rewritten).sum)
  | _ => .ok (fields, 0)

/-- `stampVerifiedIdentity`. -/
def stampVerifiedIdentity (user : Option VerifiedUser) (recordedAt : String)
    (fields : List (String × Json)) : Except Thrown (List (String × Json) × ℕ) :=
  stampOperatorAttribution user recordedAt (assigned fields ([("serverStamped", none)] ++
    ((verifiedEmail user).toList.map fun email => ("userEmail", some (Json.str email))) ++
    [("userId", some (verifiedText user))]))

/-! ## The two routes -/

/-- What a route knows of a request besides its body. -/
structure Sender where
  /-- `req.user`. -/
  user : Option VerifiedUser
  /-- `userContext`. -/
  userContext : Option UserContext
  /-- `req.auditSource`. -/
  auditSource : Option Json
  /-- `new Date().toISOString()`. -/
  recordedAt : String

variable (s : WriteState) (sender : Sender)

/-- `req.user`, as the other routes read it. -/
def Sender.requestUser (sender : Sender) : Option RequestUser :=
  sender.user.map VerifiedUser.toRequestUser

/-- The spread body with what the controller adds before it stamps. -/
def enrichedQueue (body : Json) : List (String × Json) :=
  assigned body.entries [("auditSource", sender.auditSource),
    ("commandActor", (commandActor sender.requestUser).map .str),
    ("commandFingerprint", some (.str (s.commandFingerprint body)))]

/-- `POST /factory`: the payload that the service is called with. -/
def executionQueue (body : Json) : Except Thrown Json :=
  if foreignCommand sender.requestUser body then
    .error (.http 403 "Durable command belongs to another user") else
  match methodList (body.field? "methods") with
  | none => .error typeError
  | some methods =>
    match gate s.toGateState sender.userContext (gateTournamentIds body)
      (requestedMethods methods) methods with
    | .error thrown => .error thrown
    | .ok (some denial) => .error (.http 403 denial)
    | .ok none =>
      (stampVerifiedIdentity sender.user sender.recordedAt (enrichedQueue s sender body)).map
        fun stamped => .obj stamped.1

/-- `verifiedUser?.userId || verifiedUser?.sub` is truthy. -/
def carriesId (user : Option VerifiedUser) : Bool :=
  (nonEmpty (user.bind fun u => u.userId)).isSome || (nonEmpty (user.bind fun u => u.sub)).isSome

/-- `enriched` of `scoreMatchUp`. -/
def enrichedScore (body : Json) : List (String × Json) :=
  assigned body.entries ([("auditSource", sender.auditSource), ("source", some (.str "api"))] ++
    ((verifiedEmail sender.user).toList.map fun email => ("userEmail", some (Json.str email))) ++
    if carriesId sender.user then [("userId", some (verifiedText sender.user))] else [])

/-- `flat` of `setMatchUpStatus`. -/
def flatScore (payload : Json) : Json :=
  if truthy (payload.field? "params") && !truthy (payload.field? "matchUpId") then
    (payload.field? "params").getD .null else payload

/-- The properties that `setMatchUpStatus` takes from the payload under their own names. -/
def carriedKeys : List String :=
  ["userId", "userEmail", "source", "auditSource", "ackId", "tmxVersion", "factoryVersion",
    "timestamp"]

/-- `eqPayload` of `setMatchUpStatus`. -/
def setMatchUpStatus (payload : Json) : Json :=
  let flat := flatScore payload
  let params := flat.entries.filter fun f => f.1 != "tournamentId"
  let methods := [.obj [("method", .str "setMatchUpStatus"), ("params", .obj params)]]
  .obj (assigned [] ([("tournamentId", flat.field? "tournamentId"),
    ("methods", some (.arr methods))] ++ carriedKeys.map fun key => (key, payload.field? key)))

/-- `POST /factory/score`: the payload that the queue is called with. -/
def scoreMatchUp (body : Json) : Json := setMatchUpStatus (.obj (enrichedScore sender body))

end FactoryServer.OperatorAttribution
