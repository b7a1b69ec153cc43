import FactoryServer.CommandTransaction

/-!
# One call alone on a database

The server code of one call, run against tables that no other call touches
meanwhile. An await may fail in every way a statement can: refused, lost
before the server executed it, or lost after. The tables and the meaning of
the data statements are a parameter, so the rules here serve every command.
-/

namespace FactoryServer.CommandSession

open AsyncProgram SqlTransaction CommandTransaction

/-- Tables `T` with the meaning of the data statements and of the effects. -/
structure Backend (T W E : Type) (A : W → Type) where
  /-- Execute a data statement. -/
  exec : (w : W) → T → T × A w
  /-- Read a receipt. -/
  selectReceipt : T → String → String → Option Receipt
  /-- Insert a receipt. -/
  insertReceipt : T → String → String → Receipt → T
  /-- What an effect does to the tables. -/
  effect : E → T → T

/-- How an await goes wrong. -/
inductive Fault where
  | none
  /-- The server refuses the statement. -/
  | refused
  /-- The connection is lost before the server executes it. -/
  | lostBefore
  /-- The connection is lost after the server executed it. -/
  | lostAfter
  deriving DecidableEq, Repr

/-- The server's side of a connection. -/
inductive Session (T : Type) where
  | closed
  | idle
  | inTx (tx : Tx T)
  | lost

/-- The tables, the connections of the call, and what has happened to it. -/
structure World (T E : Type) where
  /-- Committed tables. -/
  tables : T
  /-- The command's connection. -/
  command : Session T
  /-- A connection of its own that a storage checked out. -/
  own : Session T
  /-- What goes wrong at the coming awaits; nothing after the end. -/
  faults : List Fault
  /-- The effects that were started. -/
  effects : List E
  /-- The command's commit was executed, and its answer lost. -/
  commitLost : Bool
  /-- A `SAVEPOINT` was refused on the command's connection. -/
  savepointRefused : Bool

variable {T W E : Type} {A : W → Type}

/-- A call with these faults to come, holding no connection. -/
def World.start (tables : T) (faults : List Fault) : World T E :=
  ⟨tables, .closed, .closed, faults, [], false, false⟩

/-- The session of a connection. -/
def World.session (w : World T E) : Connection → Session T
  | .command => w.command
  | .own => w.own
  | .pool => .idle

/-- Change the session of a connection; the pool has none. -/
def World.setSession (w : World T E) (c : Connection) (s : Session T) : World T E :=
  match c with
  | .command => { w with command := s }
  | .own => { w with own := s }
  | .pool => w

/-- Replace the committed tables. -/
def World.setTables (w : World T E) (tables : T) : World T E := { w with tables := tables }

/-- The next fault is used up. -/
def World.advance (w : World T E) : World T E := { w with faults := w.faults.tail }

/-- What a rejected statement throws. -/
def databaseError : Thrown := .error "database error"

variable (b : Backend T W E A)

/-- A statement executes inside a transaction on connection `c`. -/
def execInTx (w : World T E) (c : Connection) (tx : Tx T) :
    (sql : Sql W) → Option (World T E × sql.Answer A)
  | .begin => if tx.aborted then none else some (w, ())
  | .commit =>
    some (if tx.aborted then w.setSession c .idle
      else (w.setTables tx.content).setSession c .idle, ())
  | .rollback => some (w.setSession c .idle, ())
  | .savepoint name =>
    if tx.aborted then none else some (w.setSession c (.inTx (tx.savepoint name)), ())
  | .releaseSavepoint name =>
    if tx.aborted then none
    else (tx.releaseSavepoint name).map fun tx' => (w.setSession c (.inTx tx'), ())
  | .rollbackTo name => (tx.rollbackTo name).map fun tx' => (w.setSession c (.inTx tx'), ())
  | .lock _ _ => if tx.aborted then none else some (w, ())
  | .selectReceipt actor commandId =>
    if tx.aborted then none else some (w, b.selectReceipt tx.content actor commandId)
  | .insertReceipt actor commandId receipt =>
    if tx.aborted then none
    else some (w.setSession c (.inTx (tx.write
      (b.insertReceipt tx.content actor commandId receipt))), ())
  | .data st =>
    if tx.aborted then none
    else some (w.setSession c (.inTx (tx.write (b.exec st tx.content).1)), (b.exec st tx.content).2)

/-- A statement executes outside a transaction on connection `c`. -/
def execIdle (w : World T E) (c : Connection) : (sql : Sql W) → Option (World T E × sql.Answer A)
  | .begin => some (w.setSession c (.inTx (Tx.start w.tables)), ())
  | .commit => some (w, ())
  | .rollback => some (w, ())
  | .savepoint _ => none
  | .releaseSavepoint _ => none
  | .rollbackTo _ => none
  | .lock _ _ => some (w, ())
  | .selectReceipt actor commandId => some (w, b.selectReceipt w.tables actor commandId)
  | .insertReceipt actor commandId receipt =>
    some (w.setTables (b.insertReceipt w.tables actor commandId receipt), ())
  | .data st => some (w.setTables (b.exec st w.tables).1, (b.exec st w.tables).2)

/-- A statement executes on connection `c`; `none` is an error of the statement. -/
def execOn (w : World T E) (c : Connection) (sql : Sql W) : Option (World T E × sql.Answer A) :=
  match w.session c with
  | .closed => none
  | .lost => none
  | .idle => execIdle b w c sql
  | .inTx tx => execInTx b w c tx sql

/-- The server refuses a statement: an open transaction is aborted, and a
refused commit ends it. -/
def World.refuse (w : World T E) (c : Connection) (sql : Sql W) : World T E :=
  match w.session c, sql with
  | .inTx _, .commit => w.setSession c .idle
  | .inTx tx, .savepoint _ =>
    { w.setSession c (.inTx tx.abort) with savepointRefused := w.savepointRefused || c == .command }
  | .inTx tx, _ => w.setSession c (.inTx tx.abort)
  | _, _ => w

/-- The answer of a statement is lost: with it the connection, unless it is
one of the pool's. -/
def World.loseAnswer (w : World T E) (c : Connection) (sql : Sql W) : World T E :=
  let lost := w.setSession c .lost
  match c, sql with
  | .command, .commit => { lost with commitLost := true }
  | _, _ => lost

/-- `client.query(sql)`: a rollback is never refused. -/
def handleQuery (w : World T E) (fault : Fault) (c : Connection) (sql : Sql W) :
    Except Thrown (sql.Answer A) × World T E :=
  match fault, sql with
  | .lostBefore, _ => (.error databaseError, w.setSession c .lost)
  | .refused, .rollback =>
    match execOn b w c .rollback with
    | none => (.error databaseError, w)
    | some (w', a) => (.ok a, w')
  | .refused, sql => (.error databaseError, w.refuse c sql)
  | .lostAfter, sql =>
    match execOn b w c sql with
    | none => (.error databaseError, w.setSession c .lost)
    | some (w', _) => (.error databaseError, w'.loseAnswer c sql)
  | .none, sql =>
    match execOn b w c sql with
    | none => (.error databaseError, w.refuse c sql)
    | some (w', a) => (.ok a, w')

/-- Answer an await, with the fault it meets. -/
def handle (w : World T E) (op : Await W E) : Except Thrown (op.Answer A) × World T E :=
  let fault := w.faults.headD .none
  let w := w.advance
  match op with
  | .connect c =>
    match fault with
    | .none => (.ok (), w.setSession c .idle)
    | _ => (.error databaseError, w)
  | .query c sql => handleQuery b w fault c sql
  | .release c => (.ok (), w.setSession c .closed)
  | .register _ => (.ok (), w)
  | .runEffect effect =>
    let w := { w with effects := w.effects ++ [effect] }
    match fault with
    | .none => (.ok (), w.setTables (b.effect effect w.tables))
    | .lostAfter => (.error databaseError, w.setTables (b.effect effect w.tables))
    | _ => (.error databaseError, w)

variable {b}

/-! ## What no statement changes -/

/-- Fields of the world that neither the session of `c` nor the tables touch. -/
structure Framed {γ : Type} (c : Connection) (f : World T E → γ) : Prop where
  session : ∀ w s, f (w.setSession c s) = f w
  setTables : ∀ w t, f (w.setTables t) = f w

/-- A statement changes the session it runs on and the tables, nothing else. -/
theorem Framed.execOn {γ : Type} {c : Connection} {f : World T E → γ} (hf : Framed c f)
    {w w' : World T E} {sql : Sql W} {a : sql.Answer A} (h : execOn b w c sql = some (w', a)) :
    f w' = f w := by
  unfold CommandSession.execOn at h
  cases hs : w.session c with
  | closed => rw [hs] at h; cases h
  | lost => rw [hs] at h; cases h
  | idle =>
    rw [hs] at h
    cases sql <;> cases h <;> first | rfl | exact hf.session _ _ | exact hf.setTables _ _
  | inTx tx =>
    rw [hs] at h
    cases sql with
    | commit =>
      cases h
      split_ifs
      · exact hf.session _ _
      · exact (hf.session _ _).trans (hf.setTables _ _)
    | rollback => cases h; exact hf.session _ _
    | rollbackTo name =>
      obtain ⟨tx', -, he⟩ := Option.map_eq_some_iff.mp h
      cases he
      exact hf.session _ _
    | releaseSavepoint name =>
      simp only [execInTx] at h
      split_ifs at h
      obtain ⟨tx', -, he⟩ := Option.map_eq_some_iff.mp h
      cases he
      exact hf.session _ _
    | _ =>
      simp only [execInTx] at h
      split_ifs at h
      cases h
      first | rfl | exact hf.session _ _

/-- The worlds a statement may lead to: the session is lost, the statement is
refused or without effect, or it is executed, and its answer is lost or not. -/
theorem handleQuery_cases (b : Backend T W E A) (w : World T E) (fault : Fault) (c : Connection)
    (sql : Sql W) :
    (handleQuery b w fault c sql).2 = w.setSession c .lost ∨
    (handleQuery b w fault c sql).2 = w.refuse c sql ∨ (handleQuery b w fault c sql).2 = w ∨
    ∃ w' a, execOn b w c sql = some (w', a) ∧ ((handleQuery b w fault c sql).2 = w' ∨
      fault = .lostAfter ∧ (handleQuery b w fault c sql).2 = w'.loseAnswer c sql) := by
  cases fault with
  | lostBefore => exact Or.inl rfl
  | refused =>
    cases sql with
    | rollback =>
      simp only [handleQuery]
      cases hx : execOn b w c .rollback with
      | none => exact Or.inr (Or.inr (Or.inl rfl))
      | some out => exact Or.inr (Or.inr (Or.inr ⟨out.1, out.2, rfl, Or.inl rfl⟩))
    | _ => exact Or.inr (Or.inl rfl)
  | lostAfter =>
    simp only [handleQuery]
    cases hx : execOn b w c sql with
    | none => exact Or.inl rfl
    | some out => exact Or.inr (Or.inr (Or.inr ⟨out.1, out.2, rfl, Or.inr ⟨trivial, rfl⟩⟩))
  | none =>
    simp only [handleQuery]
    cases hx : execOn b w c sql with
    | none => exact Or.inr (Or.inl rfl)
    | some out => exact Or.inr (Or.inr (Or.inr ⟨out.1, out.2, rfl, Or.inl rfl⟩))

/-- A refused statement changes the session it runs on and its flag. -/
theorem Framed.refuse {γ : Type} {c : Connection} {f : World T E → γ} (hf : Framed c f)
    (hflag : ∀ w flag, f { w with savepointRefused := flag } = f w) (w : World T E) (sql : Sql W) :
    f (w.refuse c sql) = f w := by
  unfold World.refuse
  cases w.session c with
  | inTx tx =>
    cases sql with
    | savepoint name => exact (hflag _ _).trans (hf.session _ _)
    | _ => exact hf.session _ _
  | _ => rfl

/-- A lost answer changes the session and its flag. -/
theorem Framed.loseAnswer {γ : Type} {c : Connection} {f : World T E → γ} (hf : Framed c f)
    (hflag : ∀ w flag, f { w with commitLost := flag } = f w) (w : World T E) (sql : Sql W) :
    f (w.loseAnswer c sql) = f w := by
  have hlost := hf.session w .lost
  unfold World.loseAnswer
  cases c with
  | command =>
    cases sql with
    | commit => exact (hflag _ _).trans hlost
    | _ => exact hlost
  | _ => exact hlost

theorem Framed.handleQuery {γ : Type} {c : Connection} {f : World T E → γ} (hf : Framed c f)
    (hrefused : ∀ w flag, f { w with savepointRefused := flag } = f w)
    (hlost : ∀ w flag, f { w with commitLost := flag } = f w) (w : World T E) (fault : Fault)
    (sql : Sql W) : f (handleQuery b w fault c sql).2 = f w := by
  rcases handleQuery_cases b w fault c sql with h | h | h | ⟨w', a, hx, h | ⟨-, h⟩⟩ <;> rw [h]
  · exact hf.session _ _
  · exact hf.refuse hrefused w sql
  · exact hf.execOn hx
  · exact (hf.loseAnswer hlost w' sql).trans (hf.execOn hx)

/-- An await uses up its fault. -/
theorem faults_handle (w : World T E) (op : Await W E) :
    (handle b w op).2.faults = w.faults.tail := by
  have hset : ∀ c (v : World T E) s, (v.setSession c s).faults = v.faults := by
    intro c v s
    cases c <;> rfl
  cases op with
  | query c sql =>
    exact Framed.handleQuery (f := World.faults) ⟨hset c, fun _ _ => rfl⟩ (fun _ _ => rfl)
      (fun _ _ => rfl) w.advance _ sql
  | connect c =>
    unfold handle
    cases w.faults.headD .none with
    | none => exact hset c _ _
    | _ => rfl
  | release c => exact hset c _ _
  | register effect => rfl
  | runEffect effect =>
    unfold handle
    cases w.faults.headD .none <;> rfl

/-! ## What every statement keeps -/

/-- Every content the call can make permanent satisfies `P`. -/
def World.All (P : T → Prop) (w : World T E) : Prop :=
  P w.tables ∧ (∀ tx, w.command = .inTx tx → tx.All P) ∧ ∀ tx, w.own = .inTx tx → tx.All P

/-- Awaits whose statements and effects keep `P`. -/
def Keeping (b : Backend T W E A) (P : T → Prop) : Await W E → Prop
  | .query _ (.data st) => ∀ t, P t → P (b.exec st t).1
  | .query _ (.insertReceipt actor commandId receipt) =>
    ∀ t, P t → P (b.insertReceipt t actor commandId receipt)
  | .runEffect effect => ∀ t, P t → P (b.effect effect t)
  | _ => True

variable {P : T → Prop}

theorem World.All.setSession {w : World T E} (h : w.All P) (c : Connection) {s : Session T}
    (hs : ∀ tx, s = .inTx tx → tx.All P) : (w.setSession c s).All P := by
  cases c with
  | command => exact ⟨h.1, hs, h.2.2⟩
  | own => exact ⟨h.1, h.2.1, hs⟩
  | pool => exact h

theorem World.All.setTables {w : World T E} (h : w.All P) {t : T} (ht : P t) :
    (w.setTables t).All P := ⟨ht, h.2⟩

theorem World.All.session {w : World T E} (h : w.All P) {c : Connection} {tx : Tx T}
    (hs : w.session c = .inTx tx) : tx.All P := by
  cases c with
  | command => exact h.2.1 tx hs
  | own => exact h.2.2 tx hs
  | pool => cases hs

theorem World.All.execOn {w w' : World T E} {c : Connection} {sql : Sql W} {a : sql.Answer A}
    (hop : Keeping b P (.query c sql : Await W E)) (h : w.All P)
    (hx : execOn b w c sql = some (w', a)) : w'.All P := by
  unfold CommandSession.execOn at hx
  cases hs : w.session c with
  | closed => rw [hs] at hx; cases hx
  | lost => rw [hs] at hx; cases hx
  | idle =>
    rw [hs] at hx
    cases sql with
    | begin => cases hx; exact h.setSession c fun tx ht => by cases ht; exact Tx.all_start h.1
    | insertReceipt actor commandId receipt => cases hx; exact h.setTables (hop _ h.1)
    | data st => cases hx; exact h.setTables (hop _ h.1)
    | savepoint name => cases hx
    | releaseSavepoint name => cases hx
    | rollbackTo name => cases hx
    | _ => cases hx; exact h
  | inTx tx =>
    rw [hs] at hx
    have htx := h.session hs
    have hidle : ∀ v : World T E, v.All P → (v.setSession c .idle).All P :=
      fun v hv => hv.setSession c fun tx ht => by cases ht
    cases sql with
    | commit =>
      cases hx
      split_ifs
      · exact hidle w h
      · exact hidle _ (h.setTables htx.1)
    | rollback => cases hx; exact hidle w h
    | rollbackTo name =>
      obtain ⟨tx', he, h'⟩ := Option.map_eq_some_iff.mp hx
      cases h'
      exact h.setSession c fun t ht => by cases ht; exact htx.rollbackTo he
    | releaseSavepoint name =>
      simp only [execInTx] at hx
      split_ifs at hx
      obtain ⟨tx', he, h'⟩ := Option.map_eq_some_iff.mp hx
      cases h'
      exact h.setSession c fun t ht => by cases ht; exact htx.releaseSavepoint he
    | savepoint name =>
      simp only [execInTx] at hx
      split_ifs at hx
      cases hx
      exact h.setSession c fun t ht => by cases ht; exact htx.savepoint
    | insertReceipt actor commandId receipt =>
      simp only [execInTx] at hx
      split_ifs at hx
      cases hx
      exact h.setSession c fun t ht => by cases ht; exact htx.write (hop _ htx.1)
    | data st =>
      simp only [execInTx] at hx
      split_ifs at hx
      cases hx
      exact h.setSession c fun t ht => by cases ht; exact htx.write (hop _ htx.1)
    | _ =>
      simp only [execInTx] at hx
      split_ifs at hx
      cases hx
      exact h

theorem World.All.refuse {w : World T E} (h : w.All P) (c : Connection) (sql : Sql W) :
    (w.refuse c sql).All P := by
  unfold World.refuse
  cases hs : w.session c with
  | inTx tx =>
    have htx := (h.session hs).abort
    have habort : (w.setSession c (.inTx tx.abort)).All P :=
      h.setSession c fun t ht => by cases ht; exact htx
    cases sql with
    | commit => exact h.setSession c fun t ht => by cases ht
    | savepoint name => exact habort
    | _ => exact habort
  | _ => exact h

theorem World.All.handleQuery {w : World T E} (h : w.All P) {fault : Fault} {c : Connection}
    {sql : Sql W} (hop : Keeping b P (.query c sql : Await W E)) :
    (handleQuery b w fault c sql).2.All P := by
  have hlost : ∀ v : World T E, v.All P → (v.setSession c .lost).All P :=
    fun v hv => hv.setSession c fun t ht => by cases ht
  rcases handleQuery_cases b w fault c sql with hw | hw | hw | ⟨w', a, hx, hw | ⟨-, hw⟩⟩ <;> rw [hw]
  · exact hlost w h
  · exact h.refuse c sql
  · exact h
  · exact h.execOn hop hx
  · have hl := hlost w' (h.execOn hop hx)
    unfold World.loseAnswer
    cases c with
    | command => cases sql <;> exact hl
    | _ => exact hl

theorem World.All.handle {w : World T E} (h : w.All P) {op : Await W E} (hop : Keeping b P op) :
    (handle b w op).2.All P := by
  have hadv : w.advance.All P := h
  cases op with
  | connect c =>
    unfold CommandSession.handle
    cases w.faults.headD .none with
    | none => exact hadv.setSession c fun t ht => by cases ht
    | _ => exact h
  | query c sql => exact hadv.handleQuery hop
  | release c => exact hadv.setSession c fun t ht => by cases ht
  | register effect => exact h
  | runEffect effect =>
    unfold CommandSession.handle
    cases w.faults.headD .none with
    | none => exact ⟨hop _ h.1, h.2⟩
    | lostAfter => exact ⟨hop _ h.1, h.2⟩
    | _ => exact h

end FactoryServer.CommandSession
