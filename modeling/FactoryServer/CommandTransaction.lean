import FactoryServer.AsyncProgram
import FactoryServer.SqlTransaction
import FactoryServer.JsonValue

/-!
# The connection of a durable command

Storage code borrows the connection of the command it runs in, or takes one
from the pool. This module names the awaits of that code: statements on a
given connection, checking connections out and in, and the deferral of
external effects until the command has committed. Statements on the data are
a parameter with their own answers.
-/

namespace FactoryServer.CommandTransaction

open JsonValue AsyncProgram

/-- What an asynchronous function may throw. -/
inductive Thrown where
  /-- An `HttpException` with its status code. -/
  | http (status : Nat) (message : String)
  /-- Any other error. -/
  | error (message : String)
  deriving DecidableEq, Repr

/-- The connection a statement is sent on. -/
inductive Connection where
  /-- Any pooled connection, one statement at a time. -/
  | pool
  /-- The command's connection. -/
  | command
  /-- A connection a storage checked out for a transaction of its own. -/
  | own
  deriving DecidableEq, Repr

/-- A row of `command_receipts`. -/
structure Receipt where
  /-- Hash of the client's intent. -/
  fingerprint : String
  /-- The stored answer. -/
  result : Json

/-- SQL statements, over the statements `W` on the data. -/
inductive Sql (W : Type) where
  | begin
  | commit
  | rollback
  | savepoint (name : String)
  | releaseSavepoint (name : String)
  | rollbackTo (name : String)
  /-- `pg_advisory_xact_lock(hashtextextended(...))`. -/
  | lock (actor commandId : String)
  | selectReceipt (actor commandId : String)
  | insertReceipt (actor commandId : String) (receipt : Receipt)
  | data (w : W)

/-- What storage and command code awaits; `E` names the external effects. -/
inductive Await (W E : Type) where
  /-- `pool.connect()`. -/
  | connect (c : Connection)
  | query (c : Connection) (sql : Sql W)
  /-- `client.release()`. -/
  | release (c : Connection)
  /-- `afterCommit.push(effect)`. -/
  | register (effect : E)
  /-- `await effect()`. -/
  | runEffect (effect : E)

/-- Answers of a statement, given those of the data statements. -/
@[reducible] def Sql.Answer {W : Type} (A : W → Type) : Sql W → Type
  | .selectReceipt .. => Option Receipt
  | .data w => A w
  | _ => Unit

/-- Answers of an await. -/
@[reducible] def Await.Answer {W E : Type} (A : W → Type) : Await W E → Type
  | .query _ sql => sql.Answer A
  | _ => Unit

/-- An asynchronous function of the server. -/
abbrev Server (W E : Type) (A : W → Type) (α : Type) : Type :=
  Prog (Await W E) (Await.Answer A) Thrown α

variable {W E : Type} {A : W → Type} {α : Type}

/-- One await: its rejection is thrown. -/
abbrev perform (op : Await W E) : Server W E A (op.Answer A) := Prog.perform op

/-- `client.query(sql)`. -/
def query (c : Connection) (sql : Sql W) : Server W E A (sql.Answer A) := perform (.query c sql)

/-- `(commandClient(pool) ?? pool).query(w)`. -/
def commandClient (borrowed : Bool) (w : W) : Server W E A (A w) :=
  query (if borrowed then .command else .pool) (.data w)

/-- `afterCommandCommit(effect)`: outside a command the effect runs at once. -/
def afterCommandCommit (borrowed : Bool) (effect : E) : Server W E A Unit :=
  if borrowed then perform (.register effect) else perform (.runEffect effect)

/-- The effects an await adds to the list of the command. -/
def registered : Await W E → List E
  | .register effect => [effect]
  | _ => []

/-- `commandTransaction.run({ ..., afterCommit: effects }, apply)`: the outcome
of `apply` with the effects it registered. -/
def collect : Server W E A α → List E → Server W E A (Except Thrown α × List E)
  | .ret a, effects => .ret (.ok a, effects)
  | .fail e, effects => .ret (.error e, effects)
  | .await op k, effects => .await op fun r => collect (k r) (effects ++ registered op)

/-- The awaits of code that runs inside a command: data statements and
savepoints on the command's connection, and registrations. -/
def InCommand : Await W E → Prop
  | .query .command (.data _) => True
  | .query .command (.savepoint _) => True
  | .query .command (.releaseSavepoint _) => True
  | .query .command (.rollbackTo _) => True
  | .register _ => True
  | _ => False

theorem collect_inCommand {p : Server W E A α} (h : p.Uses InCommand) (effects : List E) :
    (collect p effects).Uses InCommand := by
  induction p generalizing effects with
  | ret a => trivial
  | fail e => trivial
  | await op k ih => exact ⟨h.1, fun r => ih r (h.2 r) _⟩

end FactoryServer.CommandTransaction
