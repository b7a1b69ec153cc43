import FactoryServer.CommandReceipts

/-!
# Concurrent durable commands

Any number of `execute` calls, in any number of processes, share one database.
A step answers the pending await of one call or loses a connection. Every
statement may be refused, may find its connection lost before or after the
server executed it, and the answer of a commit may be lost although the
transaction committed. Transactions are atomic and an advisory lock lasts to
the end of its transaction. The second half shows that every call follows one
protocol, whatever its command does and however its awaits are answered.
-/

namespace FactoryServer.CommandProtocol

open JsonValue AsyncProgram SqlTransaction CommandTransaction CommandReceipts

/-- Actor and command id. -/
abbrev Key : Type := String × String

/-- The key of an identity. -/
def keyOf (identity : CommandIdentity) : Key := (identity.actor, identity.commandId)

/-- What a transaction has written. -/
structure Pending (W : Type) where
  /-- Data statements in order. -/
  writes : List W
  /-- Receipts, by key. -/
  receipts : List (Key × Receipt)

/-- Nothing written. -/
def Pending.empty {W : Type} : Pending W := ⟨[], []⟩

/-- The server's side of the connection of a call. -/
inductive Session (W : Type) where
  /-- Not checked out. -/
  | closed
  /-- Checked out, outside a transaction. -/
  | idle
  /-- In a transaction, holding these advisory locks. -/
  | inTx (tx : Tx (Pending W)) (locks : List Int)
  /-- The connection is gone, and the transaction with it. -/
  | lost

/-- The database with the sessions of all calls, and the history the claims
are about. -/
structure Database (ι W E : Type) where
  /-- `command_receipts`. -/
  receipts : Key → Option Receipt
  /-- Sessions, by call. -/
  sessions : ι → Session W
  /-- History: the data writes of a call that were committed. -/
  committedWrites : ι → List W
  /-- History: the call whose transaction inserted the receipt of a key. -/
  committer : Key → Option ι
  /-- History: the `COMMIT` of the call was answered. -/
  commitReturned : ι → Bool
  /-- History: the effects the call registered. -/
  registered : ι → List E
  /-- History: the effects of the call that were started. -/
  ran : ι → List E

section System

variable {ι W E : Type} [DecidableEq ι]

/-- Change one session. -/
def Database.setSession (db : Database ι W E) (i : ι) (s : Session W) : Database ι W E :=
  { db with sessions := Function.update db.sessions i s }

/-- The server makes the writes of call `i` permanent, all at once. -/
def Database.commitWrites (db : Database ι W E) (i : ι) (p : Pending W) : Database ι W E :=
  { db with
    receipts := fun k => (p.receipts.lookup k).or (db.receipts k)
    committer := fun k => if (p.receipts.lookup k).isSome then some i else db.committer k
    committedWrites := Function.update db.committedWrites i (db.committedWrites i ++ p.writes) }

/-- No other session holds the lock. -/
def Database.LockFree (db : Database ι W E) (i : ι) (lock : Int) : Prop :=
  ∀ j tx locks, db.sessions j = .inTx tx locks → lock ∈ locks → j = i

/-- A statement executes inside the open transaction of call `i`. -/
def ExecutesInTx {A : W → Type} (hash : Key → Int) (db : Database ι W E) (i : ι)
    (tx : Tx (Pending W)) (locks : List Int) :
    (sql : Sql W) → sql.Answer A → Database ι W E → Prop
  | .begin, _, db' => tx.aborted = false ∧ db' = db
  | .commit, _, db' =>
    db' = (if tx.aborted then db else db.commitWrites i tx.content).setSession i .idle
  | .rollback, _, db' => db' = db.setSession i .idle
  | .savepoint name, _, db' =>
    tx.aborted = false ∧ db' = db.setSession i (.inTx (tx.savepoint name) locks)
  | .releaseSavepoint name, _, db' => tx.aborted = false ∧
    ∃ tx', tx.releaseSavepoint name = some tx' ∧ db' = db.setSession i (.inTx tx' locks)
  | .rollbackTo name, _, db' =>
    ∃ tx', tx.rollbackTo name = some tx' ∧ db' = db.setSession i (.inTx tx' locks)
  | .lock actor commandId, _, db' => tx.aborted = false ∧ db.LockFree i (hash (actor, commandId)) ∧
    db' = db.setSession i (.inTx tx (hash (actor, commandId) :: locks))
  | .selectReceipt actor commandId, r, db' => tx.aborted = false ∧
    r = (tx.content.receipts.lookup (actor, commandId)).or (db.receipts (actor, commandId)) ∧
    db' = db
  | .insertReceipt actor commandId receipt, _, db' => tx.aborted = false ∧
    db.receipts (actor, commandId) = none ∧
    db' = db.setSession i (.inTx (tx.write { tx.content with
      receipts := ((actor, commandId), receipt) :: tx.content.receipts }) locks)
  | .data w, _, db' => tx.aborted = false ∧
    db' = db.setSession i (.inTx (tx.write { tx.content with
      writes := tx.content.writes ++ [w] }) locks)

/-- A statement executes outside a transaction, as one of its own. -/
def ExecutesIdle {A : W → Type} (db : Database ι W E) (i : ι) :
    (sql : Sql W) → sql.Answer A → Database ι W E → Prop
  | .begin, _, db' => db' = db.setSession i (.inTx (Tx.start Pending.empty) [])
  | .commit, _, db' => db' = db
  | .rollback, _, db' => db' = db
  | .savepoint _, _, _ => False
  | .releaseSavepoint _, _, _ => False
  | .rollbackTo _, _, _ => False
  | .lock _ _, _, db' => db' = db
  | .selectReceipt actor commandId, r, db' => r = db.receipts (actor, commandId) ∧ db' = db
  | .insertReceipt actor commandId receipt, _, db' => db.receipts (actor, commandId) = none ∧
    db' = db.commitWrites i ⟨[], [((actor, commandId), receipt)]⟩
  | .data w, _, db' => db' = db.commitWrites i ⟨[w], []⟩

/-- A statement executes on the session of call `i`. -/
def Executes {A : W → Type} (hash : Key → Int) (db : Database ι W E) (i : ι) (sql : Sql W)
    (r : sql.Answer A) (db' : Database ι W E) : Prop :=
  match db.sessions i with
  | .closed => False
  | .lost => False
  | .idle => ExecutesIdle db i sql r db'
  | .inTx tx locks => ExecutesInTx hash db i tx locks sql r db'

/-- The server refuses a statement: it aborts an open transaction, and a
refused commit ends it. A rollback is never refused. -/
def Refuses (db : Database ι W E) (i : ι) (sql : Sql W) (db' : Database ι W E) : Prop :=
  match db.sessions i with
  | .closed => False
  | .lost => False
  | .idle => db' = db
  | .inTx tx locks =>
    match sql with
    | .rollback => False
    | .commit => db' = db.setSession i .idle
    | _ => db' = db.setSession i (.inTx tx.abort locks)

/-- The answer of a commit reaches the caller. -/
def Database.acknowledge (db : Database ι W E) (i : ι) (sql : Sql W) : Database ι W E :=
  match sql with
  | .commit => { db with commitReturned := Function.update db.commitReturned i true }
  | _ => db

/-- What an await of call `i` may be answered. A call uses no other connection
than the one of its command. -/
def answers {A : W → Type} (hash : Key → Int) (db : Database ι W E) (i : ι) :
    (op : Await W E) → Except Thrown (op.Answer A) → Database ι W E → Prop
  | .connect _, r, db' => db.sessions i = .closed ∧
    ((∃ e, r = .error e) ∧ db' = db ∨ r = .ok () ∧ db' = db.setSession i .idle)
  | .release _, r, db' => (∀ tx locks, db.sessions i ≠ .inTx tx locks) ∧ r = .ok () ∧
    db' = db.setSession i .closed
  | .register effect, r, db' => r = .ok () ∧
    db' = { db with registered := Function.update db.registered i (db.registered i ++ [effect]) }
  | .runEffect effect, _, db' =>
    db' = { db with ran := Function.update db.ran i (db.ran i ++ [effect]) }
  | .query .command sql, r, db' =>
    (∃ e, r = .error e ∧ (db.sessions i = .closed ∨ db.sessions i = .lost) ∧ db' = db) ∨
    (∃ e, r = .error e ∧ Refuses db i sql db') ∨
    (∃ e, r = .error e ∧ db' = db.setSession i .lost) ∨
    (∃ e, ∃ a : sql.Answer A, ∃ db₁, r = .error e ∧ Executes hash db i sql a db₁ ∧
      db' = db₁.setSession i .lost) ∨
    (∃ a : sql.Answer A, ∃ db₁, r = .ok a ∧ Executes hash db i sql a db₁ ∧
      db' = db₁.acknowledge i sql)
  | .query _ _, _, _ => False

/-- A connection that is checked out dies, unnoticed by its call. -/
def dies (db db' : Database ι W E) : Prop :=
  ∃ i, db.sessions i ≠ .closed ∧ db' = db.setSession i .lost

/-- The database as the shared state of the calls. -/
def system {A : W → Type} (hash : Key → Int) :
    System ι (Await W E) (Await.Answer A) Thrown (Database ι W E) :=
  ⟨answers hash, dies⟩

/-- One call of `execute`: its payload, and a command that uses the connection
it borrows. -/
structure Call (W E : Type) (A : W → Type) where
  /-- The payload, with the identity of the command. -/
  payload : Json
  /-- The command. -/
  apply : Server W E A (Option Json)
  /-- Data statements, savepoints and deferred effects are all it awaits. -/
  inCommand : apply.Uses InCommand

/-- No call has started; the receipts are those of earlier commands. -/
def startDatabase (receipts : Key → Option Receipt) : Database ι W E :=
  ⟨receipts, fun _ => .closed, fun _ => [], fun _ => none, fun _ => false, fun _ => [], fun _ => []⟩

/-- All calls at their first step. -/
def startConfig {A : W → Type} (storedJson : Json → Json) (receipts : Key → Option Receipt)
    (calls : ι → Call W E A) :
    Config ι (Await W E) (Await.Answer A) Thrown (Option Json) (Database ι W E) :=
  ⟨startDatabase receipts, fun i => execute storedJson (calls i).payload (calls i).apply⟩

end System

/-! ## The protocol of one call -/

/-- How far a call has come, as far as the database can tell. -/
inductive Stage (E : Type) where
  | start
  | connected
  | begun
  | locked
  /-- No receipt was found; these effects are registered. -/
  | applying (effects : List E)
  /-- The receipt is inserted. -/
  | stored (receipt : Receipt) (effects : List E)
  /-- A receipt of the same intent was found. -/
  | replaying (receipt : Receipt)
  /-- The commit was answered; `fresh` tells an applied command from a replay. -/
  | committed (fresh : Bool) (receipt : Receipt) (todo : List E)
  /-- An exception is on its way, `applied` after the command had started. -/
  | failing (applied : Bool)
  /-- The transaction is over without a commit. -/
  | ended (applied : Bool)
  /-- Checking the connection in was rejected after the commit. -/
  | broken

section Protocol

variable {W E : Type} {A : W → Type} (storedJson : Json → Json) (identity : CommandIdentity)

/-- The awaits of each stage. -/
inductive Allowed : Stage E → Await W E → Prop where
  | connect : Allowed .start (.connect .command)
  | begin : Allowed .connected (.query .command .begin)
  | lock : Allowed .begun (.query .command (.lock identity.actor identity.commandId))
  | select : Allowed .locked (.query .command (.selectReceipt identity.actor identity.commandId))
  /-- An await of the command itself. -/
  | body {effects : List E} {op : Await W E} (h : InCommand op) : Allowed (.applying effects) op
  /-- The command has succeeded. -/
  | insert {effects : List E} {receipt : Receipt}
      (hf : receipt.fingerprint = identity.fingerprint) : Allowed (.applying effects)
        (.query .command (.insertReceipt identity.actor identity.commandId receipt))
  /-- The command was refused, or it threw. -/
  | refuse {effects : List E} : Allowed (.applying effects) (.query .command .rollback)
  | commit {receipt : Receipt} {effects : List E} :
      Allowed (.stored receipt effects) (.query .command .commit)
  | recommit {receipt : Receipt} : Allowed (.replaying receipt) (.query .command .commit)
  | catching {applied : Bool} : Allowed (.failing applied) (.query .command .rollback)
  | rollbackAgain {applied : Bool} : Allowed (.ended applied) (.query .command .rollback)
  | releaseEnded {applied : Bool} : Allowed (.ended applied) (.release .command)
  | releaseCommitted {fresh : Bool} {receipt : Receipt} {todo : List E} :
      Allowed (.committed fresh receipt todo) (.release .command)
  | effect {fresh : Bool} {receipt : Receipt} {effect : E} {todo : List E} :
      Allowed (.committed fresh receipt (effect :: todo)) (.runEffect effect)

/-- The stage after an answer. -/
def next : Stage E → (op : Await W E) → Except Thrown (op.Answer A) → Stage E
  | .start, .connect .command, .ok _ => .connected
  | .connected, .query .command .begin, .ok _ => .begun
  | .begun, .query .command (.lock _ _), .ok _ => .locked
  | .locked, .query .command (.selectReceipt _ _), .ok prior =>
    match prior with
    | none => .applying []
    | some receipt =>
      if receipt.fingerprint = identity.fingerprint then .replaying receipt else .failing false
  | .applying effects, .query .command (.insertReceipt _ _ receipt), .ok _ =>
    .stored receipt effects
  | .applying _, .query .command (.insertReceipt _ _ _), .error _ => .failing true
  | .applying _, .query .command .rollback, _ => .ended true
  | .applying effects, op, _ => .applying (effects ++ registered op)
  | .stored receipt effects, .query .command .commit, .ok _ => .committed true receipt effects
  | .stored _ _, .query .command .commit, .error _ => .failing true
  | .replaying receipt, .query .command .commit, .ok _ => .committed false receipt []
  | .failing applied, .query .command .rollback, _ => .ended applied
  | .ended applied, _, _ => .ended applied
  | .committed fresh receipt (_ :: todo), .runEffect _, _ => .committed fresh receipt todo
  | .committed _ _ _, .release .command, .error _ => .broken
  | .committed fresh receipt todo, _, _ => .committed fresh receipt todo
  | .start, _, _ => .start
  | _, _, _ => .failing false

/-- The answer of a committed call. -/
def Answers : Bool → Receipt → Json → Prop
  | true, receipt, answer => receipt.result = storedJson answer ∧ succeeded (some answer) = true
  | false, receipt, answer => answer = deduplicated receipt.result

/-- The outcomes of a call. -/
def Outcome : Stage E → Except Thrown (Option Json) → Prop
  | .start, .error _ => True
  | .ended _, .error _ => True
  | .ended true, .ok result => succeeded result = false
  | .committed fresh receipt [], .ok (some answer) => Answers storedJson fresh receipt answer
  | .broken, .error _ => True
  | _, _ => False

/-- An await of the command collects its effects and changes nothing else. -/
theorem next_body {op : Await W E} (h : InCommand op) (effects : List E)
    (r : Except Thrown (op.Answer A)) :
    next identity (.applying effects) op r = .applying (effects ++ registered op) := by
  cases op with
  | query c sql =>
    cases c with
    | command => cases sql <;> first | rfl | exact h.elim
    | _ => exact h.elim
  | register effect => rfl
  | _ => exact h.elim

/-- Checking the connection in leaves a committed call with its effects. -/
theorem next_release (fresh : Bool) (receipt : Receipt) (todo : List E) :
    next (A := A) identity (.committed fresh receipt todo) (.release .command) (.ok ()) =
      .committed fresh receipt todo := by
  cases todo <;> rfl

/-- The body of a command stays in its stage. -/
theorem follows_collect {β : Type} {apply : Server W E A β} (h : apply.Uses InCommand)
    (effects : List E) {post : Stage E → Except Thrown (Except Thrown β × List E) → Prop}
    (hpost : ∀ out effects', post (.applying effects') (.ok (out, effects'))) :
    Prog.Follows (Allowed identity) (next identity) post (.applying effects)
      (collect apply effects) := by
  induction apply generalizing effects with
  | ret a => exact hpost _ _
  | fail e => exact hpost _ _
  | await op k ih =>
    refine ⟨.body h.1, fun r => ?_⟩
    rw [next_body identity h.1]
    exact ih r (h.2 r) _

/-- How the `try` block of `execute` leaves the database. -/
def Transacted : Stage E → Except Thrown (Ended E) → Prop
  | stage, .ok (.rolledBack result) => stage = .ended true ∧ succeeded result = false
  | stage, .ok (.committed answer effects) => ∃ fresh receipt,
    stage = .committed fresh receipt effects ∧ Answers storedJson fresh receipt answer
  | .failing _, .error _ => True
  | .ended _, .error _ => True
  | .applying _, .error _ => True
  | _, .error _ => False

variable {storedJson identity}

theorem follows_applyFresh {apply : Server W E A (Option Json)} (h : apply.Uses InCommand) :
    Prog.Follows (Allowed identity) (next identity) (Transacted storedJson) (.applying [])
      (applyFresh storedJson identity apply) := by
  refine Prog.follows_bind.mpr (follows_collect identity h [] fun out effects => ?_)
  cases out with
  | error e => exact trivial
  | ok result =>
    dsimp only
    cases hs : succeeded result with
    | true =>
      simp only [if_true]
      refine ⟨.insert rfl, fun r => ?_⟩
      cases r with
      | error e => exact trivial
      | ok _ =>
        refine ⟨.commit, fun r => ?_⟩
        cases r with
        | error e => exact trivial
        | ok _ => exact ⟨true, _, rfl, rfl, succeeded_withReceipt hs _⟩
    | false =>
      simp only [Bool.false_eq_true, if_false]
      refine ⟨.refuse, fun r => ?_⟩
      cases r with
      | error e => exact trivial
      | ok _ =>
        show Prog.Follows _ _ _ (Stage.ended true) (if _ then _ else _)
        split_ifs
        · exact trivial
        · exact ⟨rfl, hs⟩

theorem follows_transact {apply : Server W E A (Option Json)} (h : apply.Uses InCommand) :
    Prog.Follows (Allowed identity) (next identity) (Transacted storedJson) .connected
      (transact storedJson identity apply) := by
  refine ⟨.begin, fun r => ?_⟩
  cases r with
  | error e => exact trivial
  | ok _ =>
    refine ⟨.lock, fun r => ?_⟩
    cases r with
    | error e => exact trivial
    | ok _ =>
      refine ⟨.select, fun r => ?_⟩
      cases r with
      | error e => exact trivial
      | ok prior =>
        cases prior with
        | none => exact follows_applyFresh h
        | some receipt =>
          show Prog.Follows _ _ _ (if _ then _ else _) (replay identity receipt)
          unfold replay
          by_cases hf : receipt.fingerprint = identity.fingerprint
          · rw [if_pos hf, if_neg (not_not.mpr hf)]
            refine ⟨.recommit, fun r => ?_⟩
            cases r with
            | error e => exact trivial
            | ok _ => exact ⟨false, receipt, rfl, rfl⟩
          · rw [if_neg hf, if_pos hf]
            exact trivial

/-- After the `catch` block an exception finds the transaction over. -/
def Caught (storedJson : Json → Json) : Stage E → Except Thrown (Ended E) → Prop
  | stage, .ok ended => Transacted storedJson stage (.ok ended)
  | .ended _, .error _ => True
  | _, .error _ => False

theorem follows_rollbackAndRethrow {stage : Stage E} {error : Thrown}
    (h : Transacted storedJson stage (.error error)) :
    Prog.Follows (Allowed identity) (next identity) (Caught storedJson) stage
      (rollbackAndRethrow error : Server W E A (Ended E)) := by
  cases stage with
  | failing applied => exact ⟨.catching, fun r => by cases r <;> exact trivial⟩
  | ended applied => exact ⟨.rollbackAgain, fun r => by cases r <;> exact trivial⟩
  | applying effects => exact ⟨.refuse, fun r => by cases r <;> exact trivial⟩
  | _ => exact h.elim

theorem follows_effects {fresh : Bool} {receipt : Receipt} {effects : List E} {answer : Json}
    (h : Answers storedJson fresh receipt answer) :
    Prog.Follows (Allowed identity) (next identity) (Outcome storedJson)
      (.committed fresh receipt effects)
      ((Prog.forEach effects (runEffect (A := A))).bind fun _ => .ret (some answer) :
        Server W E A (Option Json)) := by
  induction effects with
  | nil => exact h
  | cons effect todo ih =>
    refine ⟨.effect, fun r => ?_⟩
    cases r <;> exact ih

/-- Every call of `execute` follows the protocol. -/
theorem follows_execute {payload : Json} {apply : Server W E A (Option Json)}
    (hid : identityOf payload = some identity) (h : apply.Uses InCommand) :
    Prog.Follows (Allowed identity) (next identity) (Outcome storedJson) .start
      (execute storedJson payload apply) := by
  unfold execute
  simp only [hid]
  refine ⟨.connect, fun r => ?_⟩
  cases r with
  | error e => exact trivial
  | ok _ =>
    show Prog.Follows _ _ _ Stage.connected (Prog.bind (Prog.tryFinally _ _) _)
    refine Prog.follows_bind.mpr (Prog.follows_attempt.mpr ?_)
    have hcaught : Prog.Follows (Allowed identity) (next identity)
        (Caught storedJson) .connected
        ((transact storedJson identity apply).tryCatch rollbackAndRethrow) := by
      refine Prog.follows_tryCatch.mpr ((follows_transact h).mono fun stage out hout => ?_)
      cases out with
      | ok ended => exact hout
      | error e => exact follows_rollbackAndRethrow hout
    refine hcaught.mono fun stage out hout => ?_
    cases out with
    | error e =>
      cases stage with
      | ended applied => exact ⟨.releaseEnded, fun r => by cases r <;> exact trivial⟩
      | _ => exact hout.elim
    | ok ended =>
      cases ended with
      | rolledBack result =>
        obtain ⟨rfl, hs⟩ := hout
        refine ⟨.releaseEnded, fun r => ?_⟩
        cases r with
        | error e => exact trivial
        | ok _ => exact hs
      | committed answer effects =>
        obtain ⟨fresh, receipt, rfl, ha⟩ := hout
        refine ⟨.releaseCommitted, fun r => ?_⟩
        cases r with
        | error e => cases effects <;> exact trivial
        | ok _ => cases effects <;> exact follows_effects ha

end Protocol

end FactoryServer.CommandProtocol
