import FactoryServer.CommandTransaction
import Mathlib.Algebra.GroupWithZero.Nat

/-!
# Durable commands

`CommandReceipts.execute` applies a command at most once per actor and command
id: a transaction takes an advisory lock on the key, looks for a receipt, and
either replays it or applies the command and stores one. The command is a
parameter here; how any number of calls interleave on one database is the
subject of `CommandProtocol` and `ExactlyOnce`.
-/

namespace FactoryServer.CommandReceipts

open JsonValue AsyncProgram CommandTransaction

/-- `/^[a-zA-Z0-9_-]{8,128}$/`. -/
def isCommandId (s : String) : Bool :=
  8 ≤ s.toList.length && s.toList.length ≤ 128 &&
    s.toList.all fun c => c.isAlphanum || c == '_' || c == '-'

/-- `/^[a-f0-9]{64}$/`. -/
def isFingerprint (s : String) : Bool :=
  s.toList.length == 64 && s.toList.all fun c => c.isDigit || ('a' ≤ c && c ≤ 'f')

/-- `commandActor.length`, in UTF-16 code units. -/
def utf16Length (s : String) : Nat :=
  (s.toList.map fun c => if c.toNat < 0x10000 then 1 else 2).sum

/-- The identity `execute` accepts. -/
structure CommandIdentity where
  /-- Verified actor. -/
  actor : String
  /-- Stable retry key of the client. -/
  commandId : String
  /-- Hash of the client's intent. -/
  fingerprint : String
  /-- The key has the accepted form. -/
  commandId_valid : isCommandId commandId = true
  /-- The actor is present and short enough. -/
  actor_valid : actor ≠ "" ∧ utf16Length actor ≤ 256
  /-- The hash is hexadecimal. -/
  fingerprint_valid : isFingerprint fingerprint = true

/-- Read and check the identity fields of a payload. -/
def identityOf (payload : Json) : Option CommandIdentity :=
  match payload.field? "commandId", payload.field? "commandActor",
      payload.field? "commandFingerprint" with
  | some (.str commandId), some (.str actor), some (.str fingerprint) =>
    if h : isCommandId commandId = true ∧ (actor ≠ "" ∧ utf16Length actor ≤ 256) ∧
        isFingerprint fingerprint = true then
      some ⟨actor, commandId, fingerprint, h.1, h.2.1, h.2.2⟩
    else none
  | _, _, _ => none

/-- `result?.success && !result.error`: the answer of a successful command. -/
def succeeded (result : Option Json) : Bool :=
  truthy (chain result "success") && !truthy (chain result "error")

/-- `{ ...prior.result, deduplicated: true }`. -/
def deduplicated (result : Json) : Json := spread (some result) [("deduplicated", .bool true)]

/-- `{ ...result, commandId, durableReceipt: true }`. -/
def withReceipt (result : Option Json) (commandId : String) : Json :=
  spread result [("commandId", .str commandId), ("durableReceipt", .bool true)]

/-- The receipt fields do not change whether an answer is a success. -/
theorem succeeded_withReceipt {result : Option Json} (h : succeeded result = true)
    (commandId : String) : succeeded (some (withReceipt result commandId)) = true := by
  cases result with
  | none => cases h
  | some value =>
    have hsuccess : truthy (value.field? "success") = true := (Bool.and_eq_true_iff.mp h).1
    obtain ⟨fields, rfl⟩ := Json.obj_of_truthy_field hsuccess
    unfold succeeded withReceipt
    simp only [chain, Option.bind_some] at h ⊢
    rw [field_spread_obj fields (by simp), field_spread_obj fields (by simp)]
    exact h

/-- `BadRequestException` of a malformed identity. -/
def invalidIdentity : Thrown := .http 400 "Invalid durable command identity"

/-- `ConflictException` of a reused command id. -/
def differentIntent : Thrown := .http 409 "Command ID reused for different intent"

/-- `ServiceUnavailableException` of a retryable refusal. -/
def notCommitted : Thrown := .http 503 "Command could not be committed"

/-- How the `try` block of `execute` ends without an exception. -/
inductive Ended (E : Type) where
  /-- `return result` after a rollback. -/
  | rolledBack (result : Option Json)
  /-- The transaction committed; these effects are left to run. -/
  | committed (result : Json) (effects : List E)

section Execute

variable {W E : Type} {A : W → Type} (storedJson : Json → Json)

/-- No receipt yet: apply the command and store its receipt. `storedJson` is
what a `jsonb` column gives back for a stored value. -/
def applyFresh (identity : CommandIdentity) (apply : Server W E A (Option Json)) :
    Server W E A (Ended E) :=
  (collect apply []).bind fun applied =>
    match applied with
    | (.error e, _) => .fail e
    | (.ok result, effects) =>
      if succeeded result then
        let answer := withReceipt result identity.commandId
        (query .command (.insertReceipt identity.actor identity.commandId
          ⟨identity.fingerprint, storedJson answer⟩)).bind fun _ =>
        (query .command .commit).bind fun _ => .ret (.committed answer effects)
      else
        (query .command .rollback).bind fun _ =>
          if truthy (chain result "retryable") then .fail notCommitted
          else .ret (.rolledBack result)

/-- A receipt exists: answer it again, or refuse another intent. -/
def replay (identity : CommandIdentity) (receipt : Receipt) : Server W E A (Ended E) :=
  if receipt.fingerprint ≠ identity.fingerprint then .fail differentIntent
  else (query .command .commit).bind fun _ => .ret (.committed (deduplicated receipt.result) [])

/-- The `try` block of `execute`. -/
def transact (identity : CommandIdentity) (apply : Server W E A (Option Json)) :
    Server W E A (Ended E) :=
  (query .command .begin).bind fun _ =>
  (query .command (.lock identity.actor identity.commandId)).bind fun _ =>
  (query .command (.selectReceipt identity.actor identity.commandId)).bind fun prior =>
    match prior with
    | some receipt => replay identity receipt
    | none => applyFresh storedJson identity apply

/-- The `catch` block: roll back, log a failed rollback, throw the error on. -/
def rollbackAndRethrow (error : Thrown) : Server W E A (Ended E) :=
  ((query .command .rollback).tryCatch fun _ => .ret ()).bind fun _ => .fail error

/-- One effect after the commit: its failure is logged and ignored. -/
def runEffect (effect : E) : Server W E A Unit :=
  (perform (.runEffect effect)).tryCatch fun _ => .ret ()

/-- `CommandReceipts.execute`. -/
def execute (payload : Json) (apply : Server W E A (Option Json)) :
    Server W E A (Option Json) :=
  match identityOf payload with
  | none => .fail invalidIdentity
  | some identity =>
    (perform (.connect .command)).bind fun _ =>
    (Prog.tryFinally ((transact storedJson identity apply).tryCatch rollbackAndRethrow)
      (perform (.release .command))).bind fun ended =>
    match ended with
    | .rolledBack result => .ret result
    | .committed result effects =>
      (Prog.forEach effects runEffect).bind fun _ => .ret (some result)

/-- `runDurableCommand`; the command is told whether it may borrow the
connection of a transaction. -/
def runDurableCommand (payload : Json) (receipts : Bool)
    (apply : Bool → Server W E A (Option Json)) : Server W E A (Option Json) :=
  match payload.field? "commandId" with
  | none => apply false
  | some _ =>
    if receipts then execute storedJson payload (apply true)
    else .fail (.error "Durable command storage unavailable")

end Execute

end FactoryServer.CommandReceipts
