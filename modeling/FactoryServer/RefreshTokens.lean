import FactoryServer.GuardedRuns
import Mathlib.Logic.Function.Basic
import Mathlib.Tactic.SplitIfs

/-!
# The refresh tokens

`RefreshTokenService` over the table `refresh_tokens`. Each of its functions
awaits the storage, and between two awaits any other call may run, so every
storage call is a step of its own here. A storage call is answered, or it fails
with or without having been executed.
-/

namespace FactoryServer.RefreshTokens

/-- A row of `refresh_tokens`. -/
structure RefreshTokenRow where
  /-- Primary key. -/
  tokenId : ℕ
  /-- Owner of the session. -/
  userId : String
  /-- Login email of the owner. -/
  email : String
  /-- Hash of the plaintext, unique. -/
  tokenHash : String
  /-- The rotation chain. -/
  familyId : ℕ
  /-- End of the token's life. -/
  expiresAt : ℕ
  /-- When the row was inserted. -/
  createdAt : ℕ
  /-- When the token was revoked. -/
  revokedAt : Option ℕ
  /-- The token that replaced it. -/
  replacedBy : Option ℕ
  /-- `User-Agent` of the client. -/
  userAgent : Option String
  /-- The provider the session acts for. -/
  actingProviderId : Option String
  deriving DecidableEq, Repr

/-- Argument of `create`. -/
structure NewToken where
  /-- Owner of the session. -/
  userId : String
  /-- Login email of the owner. -/
  email : String
  /-- Hash of the plaintext. -/
  tokenHash : String
  /-- The rotation chain. -/
  familyId : ℕ
  /-- End of the token's life. -/
  expiresAt : ℕ
  /-- `User-Agent` of the client. -/
  userAgent : Option String
  /-- The provider the session acts for. -/
  actingProviderId : Option String
  deriving DecidableEq, Repr

/-- `UPDATE … SET revoked_at = NOW() … WHERE … AND revoked_at IS NULL`, on one row. -/
def revokeRow (now : ℕ) (selected : RefreshTokenRow → Bool) (replacedBy : Option ℕ)
    (row : RefreshTokenRow) : RefreshTokenRow :=
  if selected row && row.revokedAt.isNone then
    { row with revokedAt := some now, replacedBy := replacedBy.or row.replacedBy }
  else row

section RevokeRow

variable (now : ℕ) (selected : RefreshTokenRow → Bool) (replacedBy : Option ℕ)
  (row : RefreshTokenRow)

@[simp] theorem revokeRow_tokenId :
    (revokeRow now selected replacedBy row).tokenId = row.tokenId := by
  unfold revokeRow; split_ifs <;> rfl

@[simp] theorem revokeRow_tokenHash :
    (revokeRow now selected replacedBy row).tokenHash = row.tokenHash := by
  unfold revokeRow; split_ifs <;> rfl

@[simp] theorem revokeRow_familyId :
    (revokeRow now selected replacedBy row).familyId = row.familyId := by
  unfold revokeRow; split_ifs <;> rfl

@[simp] theorem revokeRow_userId :
    (revokeRow now selected replacedBy row).userId = row.userId := by
  unfold revokeRow; split_ifs <;> rfl

/-- A row stays live if it was live and is not selected. -/
@[simp] theorem revokeRow_live :
    (revokeRow now selected replacedBy row).revokedAt = none ↔
      row.revokedAt = none ∧ selected row = false := by
  unfold revokeRow
  cases hs : selected row <;> cases hr : row.revokedAt <;> simp [hr]

end RevokeRow

/-- Milliseconds of `REFRESH_TOKEN_TTL_DAYS`. -/
def REFRESH_TOKEN_TTL_MS : ℕ := 30 * 24 * 60 * 60 * 1000

/-- What `rotate` returns. -/
structure RotationResult where
  /-- Owner of the session. -/
  userId : String
  /-- Login email of the owner. -/
  email : String
  /-- The new plaintext. -/
  refreshToken : String
  /-- The provider the session acts for. -/
  actingProviderId : Option String
  deriving DecidableEq, Repr

/-- How a call of the service ends. -/
inductive Outcome where
  /-- `issue` returns a plaintext. -/
  | issued (token : String)
  /-- `rotate` returns. -/
  | rotated (result : RotationResult)
  /-- `throw new UnauthorizedException(message)`. -/
  | unauthorized (message : String)
  /-- `revoke` and `revokeAllForUser` return. -/
  | returned
  /-- The storage has rejected. -/
  | storageError
  deriving DecidableEq, Repr

/-- Where a call stands: over, or before a storage call. -/
inductive Stage where
  /-- No call, or one that has ended. -/
  | concluded (outcome : Option Outcome)
  /-- `issue`, before `create`. -/
  | issuing (token : String) (input : NewToken)
  /-- `rotate`, before `findByHash`. -/
  | rotating (presented : String) (userAgent : Option String)
  /-- `rotate` of a revoked token, before `revokeFamily`. -/
  | reused (row : RefreshTokenRow)
  /-- `rotate` of a live token, before `create`. -/
  | creating (row : RefreshTokenRow) (next : String) (input : NewToken)
  /-- `rotate`, before `revoke(row.tokenId, created.tokenId)`. -/
  | linking (row : RefreshTokenRow) (next : String) (created : RefreshTokenRow)
  /-- `revoke`, before `findByHash`. -/
  | loggingOut (presented : String)
  /-- `revoke`, before `revoke(row.tokenId)`. -/
  | revoking (row : RefreshTokenRow)
  /-- `revokeAllForUser`, before the storage call. -/
  | revokingAll (userId : String)
  deriving DecidableEq, Repr

/-- A call of the service. -/
inductive Request where
  | issue (userId email : String) (userAgent actingProviderId : Option String)
  | rotate (presented : String) (userAgent : Option String)
  | revoke (presented : String)
  | revokeAllForUser (userId : String)
  deriving DecidableEq, Repr

/-- The table, the clock and the calls, with the histories the results are about. -/
structure State (ι : Type) where
  /-- `refresh_tokens`. -/
  rows : List RefreshTokenRow
  /-- The next `gen_random_uuid()` of a row. -/
  nextTokenId : ℕ
  /-- The next `randomUUID()` of a family. -/
  nextFamilyId : ℕ
  /-- `Date.now()` and `NOW()`. -/
  clock : ℕ
  /-- Where each call stands. -/
  calls : ι → Stage
  /-- History: hashes of the tokens that were exchanged for a new one. -/
  exchanged : List String
  /-- History: families of which a reuse was detected or a revocation was answered. -/
  ended : List ℕ

namespace State

variable {ι : Type}

/-- No token, no call. -/
def initial : State ι := ⟨[], 0, 0, 0, fun _ => .concluded none, [], []⟩

/-- A call moves on. -/
def setCall [DecidableEq ι] (s : State ι) (c : ι) (stage : Stage) : State ι :=
  { s with calls := Function.update s.calls c stage }

/-! ## The storage -/

/-- `create`: none is the violation of the unique hash. -/
def create (s : State ι) (input : NewToken) : Option (State ι × RefreshTokenRow) :=
  if s.rows.any fun row => row.tokenHash == input.tokenHash then none else
  let row : RefreshTokenRow := ⟨s.nextTokenId, input.userId, input.email, input.tokenHash,
    input.familyId, input.expiresAt, s.clock, none, none, input.userAgent, input.actingProviderId⟩
  some ({ s with rows := s.rows ++ [row], nextTokenId := s.nextTokenId + 1 }, row)

/-- `findByHash`. -/
def findByHash (s : State ι) (tokenHash : String) : Option RefreshTokenRow :=
  s.rows.find? fun row => row.tokenHash == tokenHash

/-- Set `revoked_at` of the live rows that a condition selects. -/
def revokeWhere (s : State ι) (selected : RefreshTokenRow → Bool) (replacedBy : Option ℕ) :
    State ι :=
  { s with rows := s.rows.map (revokeRow s.clock selected replacedBy) }

@[simp] theorem revokeWhere_nextTokenId (s : State ι) (selected : RefreshTokenRow → Bool)
    (replacedBy : Option ℕ) : (s.revokeWhere selected replacedBy).nextTokenId = s.nextTokenId := rfl

@[simp] theorem revokeWhere_nextFamilyId (s : State ι) (selected : RefreshTokenRow → Bool)
    (replacedBy : Option ℕ) :
    (s.revokeWhere selected replacedBy).nextFamilyId = s.nextFamilyId := rfl

/-- `revoke(tokenId, replacedBy)`. -/
def revokeToken (s : State ι) (tokenId : ℕ) (replacedBy : Option ℕ) : State ι :=
  s.revokeWhere (fun row => row.tokenId == tokenId) replacedBy

/-- `revokeFamily(familyId)`. -/
def revokeFamily (s : State ι) (familyId : ℕ) : State ι :=
  s.revokeWhere (fun row => row.familyId == familyId) none

/-- `revokeAllForUser(userId)` of the storage. -/
def revokeAllForUser (s : State ι) (userId : String) : State ι :=
  s.revokeWhere (fun row => row.userId == userId) none

/-! ## The service -/

variable [DecidableEq ι] (hash : String → String)

/-- The families of a user. -/
def familiesOf (s : State ι) (userId : String) : List ℕ :=
  (s.rows.filter fun row => row.userId == userId).map RefreshTokenRow.familyId

/-- `rotate` once `findByHash` has answered; `next` is what `mint()` yields. -/
def rotateFound (clock : ℕ) (next : String) (userAgent : Option String) :
    Option RefreshTokenRow → Stage
  | none => .concluded (some (.unauthorized "Invalid refresh token"))
  | some row =>
    if row.revokedAt.isSome then .reused row
    else if row.expiresAt ≤ clock then .concluded (some (.unauthorized "Refresh token expired"))
    else .creating row next ⟨row.userId, row.email, hash next, row.familyId,
      clock + REFRESH_TOKEN_TTL_MS, userAgent, row.actingProviderId⟩

/-- A call begins; `minted` is what `mint()` yields. -/
def start (s : State ι) (c : ι) (minted : String) : Request → State ι
  | .issue userId email userAgent actingProviderId =>
    { s.setCall c (.issuing minted ⟨userId, email, hash minted, s.nextFamilyId,
        s.clock + REFRESH_TOKEN_TTL_MS, userAgent, actingProviderId⟩) with
      nextFamilyId := s.nextFamilyId + 1 }
  | .rotate presented userAgent =>
    if presented = "" then s.setCall c (.concluded (some (.unauthorized "Missing refresh token")))
    else s.setCall c (.rotating presented userAgent)
  | .revoke presented =>
    if presented = "" then s.setCall c (.concluded (some .returned))
    else s.setCall c (.loggingOut presented)
  | .revokeAllForUser userId =>
    if userId = "" then s.setCall c (.concluded (some .returned))
    else s.setCall c (.revokingAll userId)

/-- The storage call of `c` is executed. -/
def execute (s : State ι) (c : ι) : State ι :=
  match s.calls c with
  | .issuing _ input => ((s.create input).map Prod.fst).getD s
  | .creating _ _ input => ((s.create input).map Prod.fst).getD s
  | .reused row => s.revokeFamily row.familyId
  | .linking row _ created => s.revokeToken row.tokenId (some created.tokenId)
  | .revoking row => s.revokeToken row.tokenId none
  | .revokingAll userId => s.revokeAllForUser userId
  | _ => s

/-- The storage call of `c` is executed and answered, and `c` runs to its next one;
`minted` is what `mint()` yields. -/
def answer (s : State ι) (c : ι) (minted : String) : State ι :=
  match s.calls c with
  | .concluded _ => s
  | .issuing token input =>
    match s.create input with
    | none => s.setCall c (.concluded (some .storageError))
    | some (s', _) => s'.setCall c (.concluded (some (.issued token)))
  | .rotating presented userAgent =>
    s.setCall c (rotateFound hash s.clock minted userAgent (s.findByHash (hash presented)))
  | .reused row =>
    { (s.revokeFamily row.familyId).setCall c
        (.concluded (some (.unauthorized "Refresh token already used"))) with
      ended := s.ended ++ [row.familyId] }
  | .creating row next input =>
    match s.create input with
    | none => s.setCall c (.concluded (some .storageError))
    | some (s', created) => s'.setCall c (.linking row next created)
  | .linking row next created =>
    { (s.revokeToken row.tokenId (some created.tokenId)).setCall c
        (.concluded (some (.rotated ⟨row.userId, row.email, next, row.actingProviderId⟩))) with
      exchanged := s.exchanged ++ [row.tokenHash] }
  | .loggingOut presented =>
    match s.findByHash (hash presented) with
    | none => s.setCall c (.concluded (some .returned))
    | some row =>
      if row.revokedAt.isNone then s.setCall c (.revoking row)
      else { s.setCall c (.concluded (some .returned)) with ended := s.ended ++ [row.familyId] }
  | .revoking row =>
    { (s.revokeToken row.tokenId none).setCall c (.concluded (some .returned)) with
      ended := s.ended ++ [row.familyId] }
  | .revokingAll userId =>
    { (s.revokeAllForUser userId).setCall c (.concluded (some .returned)) with
      ended := s.ended ++ s.familiesOf userId }

/-- The call of `c` is over: its storage call was rejected. -/
def reject (s : State ι) (c : ι) : State ι :=
  match s.calls c with
  | .concluded _ => s
  | .reused row =>
    { s.setCall c (.concluded (some .storageError)) with ended := s.ended ++ [row.familyId] }
  | _ => s.setCall c (.concluded (some .storageError))

end State

/-- How a storage call comes out. -/
inductive Delivery where
  /-- Executed and answered. -/
  | answered
  /-- Rejected without having been executed. -/
  | refused
  /-- Executed, and the answer lost. -/
  | lost
  deriving DecidableEq, Repr

/-- A step of the server. -/
inductive TokenAction (ι : Type) where
  /-- Time passes. -/
  | tick (ms : ℕ)
  /-- A call begins. -/
  | start (c : ι) (request : Request) (minted : String)
  /-- The storage call that `c` awaits comes out. -/
  | deliver (c : ι) (delivery : Delivery) (minted : String)
  deriving DecidableEq, Repr

variable {ι : Type} [DecidableEq ι]

/-- One step. A call begins only under a name that no running call has. -/
def step (hash : String → String) (s : State ι) : TokenAction ι → State ι
  | .tick ms => { s with clock := s.clock + ms }
  | .start c request minted =>
    match s.calls c with
    | .concluded _ => s.start hash c minted request
    | _ => s
  | .deliver c .answered minted => s.answer hash c minted
  | .deliver c .refused _ => s.reject c
  | .deliver c .lost _ => (s.execute c).reject c

end FactoryServer.RefreshTokens
