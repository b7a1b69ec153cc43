import FactoryServer.CommandProtocol
import FactoryServer.CommandSession

/-!
# A durable command leaves all or nothing

The tables of a call of `execute` that runs alone: until its commit is
executed they are those it found, and no effect has run before the commit was
answered. When the command commits, what it wrote in its transaction and its
receipt become permanent together.
-/

namespace FactoryServer.CommandAtomicity

open JsonValue AsyncProgram SqlTransaction CommandTransaction CommandReceipts CommandSession
open CommandProtocol hiding Session

variable {T W E : Type} {A : W → Type} {b : Backend T W E A}

/-- The command's connection is in a transaction, or it is lost. -/
def InTxOrLost (w : World T E) (P : Tx T → Prop) : Prop :=
  w.command = .lost ∨ ∃ tx, w.command = .inTx tx ∧ P tx

/-- Nothing has changed so far. -/
structure Untouched (tables : T) (w : World T E) : Prop where
  tables : w.tables = tables
  effects : w.effects = []

/-- What holds of a call that runs alone, at each stage of the protocol. -/
def Intact (tables : T) : Stage E → World T E → Prop
  | .start, w => Untouched tables w ∧ w.command = .closed
  | .connected, w => Untouched tables w ∧ (w.command = .idle ∨ w.command = .lost)
  | .begun, w => Untouched tables w ∧ InTxOrLost w (· = Tx.start tables)
  | .locked, w => Untouched tables w ∧ InTxOrLost w (· = Tx.start tables)
  | .applying _, w => Untouched tables w ∧ InTxOrLost w fun _ => True
  | .stored _ _, w => Untouched tables w ∧ InTxOrLost w fun _ => True
  | .replaying _, w => Untouched tables w ∧ InTxOrLost w (· = Tx.start tables)
  | .committed true _ _, _ => True
  | .committed false _ todo, w => Untouched tables w ∧ todo = []
  | .failing _, w => (w.commitLost = false → w.tables = tables) ∧ w.effects = []
  | .ended _, w => (w.commitLost = false → w.tables = tables) ∧ w.effects = []
  | .broken, _ => False

/-- Two worlds with the same tables and history; connections may differ. -/
structure SameTables (w w' : World T E) : Prop where
  tables : w'.tables = w.tables
  effects : w'.effects = w.effects
  commitLost : w'.commitLost = w.commitLost

theorem SameTables.refl (w : World T E) : SameTables w w := ⟨rfl, rfl, rfl⟩

theorem SameTables.trans {w w' w'' : World T E} (h : SameTables w w') (h' : SameTables w' w'') :
    SameTables w w'' :=
  ⟨h'.tables.trans h.tables, h'.effects.trans h.effects, h'.commitLost.trans h.commitLost⟩

theorem sameTables_setSession (w : World T E) (c : Connection) (s : Session T) :
    SameTables w (w.setSession c s) := by
  cases c <;> exact ⟨rfl, rfl, rfl⟩

theorem SameTables.untouched {tables : T} {w w' : World T E} (h : SameTables w w')
    (hu : Untouched tables w) : Untouched tables w' :=
  ⟨h.tables.trans hu.tables, h.effects.trans hu.effects⟩

/-- A refused statement changes the session only. -/
theorem sameTables_refuse (w : World T E) (c : Connection) (sql : Sql W) :
    SameTables w (w.refuse c sql) := by
  unfold World.refuse
  cases w.session c with
  | inTx tx =>
    have h := sameTables_setSession w c (.inTx tx.abort)
    cases sql with
    | commit => exact sameTables_setSession w c .idle
    | savepoint name => exact ⟨h.tables, h.effects, h.commitLost⟩
    | _ => exact h
  | _ => exact SameTables.refl w

/-- A statement that cannot change the committed tables: a commit can, and so
can a data statement outside a transaction. -/
def Quiet (s : Session T) : Sql W → Prop
  | .commit => False
  | .begin => True
  | .rollback => True
  | _ => s ≠ .idle

theorem sameTables_execOn {w w' : World T E} {c : Connection} {sql : Sql W} {a : sql.Answer A}
    (hq : Quiet (w.session c) sql) (h : execOn b w c sql = some (w', a)) : SameTables w w' := by
  unfold execOn at h
  cases hs : w.session c with
  | closed => rw [hs] at h; cases h
  | lost => rw [hs] at h; cases h
  | idle =>
    rw [hs] at h hq
    cases sql with
    | begin => cases h; exact sameTables_setSession w c _
    | rollback => cases h; exact SameTables.refl w
    | commit => exact hq.elim
    | _ => exact (hq rfl).elim
  | inTx tx =>
    rw [hs] at h
    cases sql with
    | commit => exact hq.elim
    | rollback => cases h; exact sameTables_setSession w c _
    | rollbackTo name =>
      obtain ⟨tx', -, he⟩ := Option.map_eq_some_iff.mp h
      cases he
      exact sameTables_setSession w c _
    | releaseSavepoint name =>
      simp only [execInTx] at h
      split_ifs at h
      obtain ⟨tx', -, he⟩ := Option.map_eq_some_iff.mp h
      cases he
      exact sameTables_setSession w c _
    | begin =>
      simp only [execInTx] at h
      split_ifs at h
      cases h
      exact SameTables.refl w
    | lock actor commandId =>
      simp only [execInTx] at h
      split_ifs at h
      cases h
      exact SameTables.refl w
    | selectReceipt actor commandId =>
      simp only [execInTx] at h
      split_ifs at h
      cases h
      exact SameTables.refl w
    | _ =>
      simp only [execInTx] at h
      split_ifs at h
      cases h
      exact sameTables_setSession w c _

/-- Whatever goes wrong, such a statement leaves the committed tables alone. -/
theorem sameTables_handleQuery {w : World T E} {fault : Fault} {c : Connection} {sql : Sql W}
    (hq : Quiet (w.session c) sql) : SameTables w (handleQuery b w fault c sql).2 := by
  rcases handleQuery_cases b w fault c sql with hw | hw | hw | ⟨w', a, hx, hw | ⟨-, hw⟩⟩ <;> rw [hw]
  · exact sameTables_setSession w c .lost
  · exact sameTables_refuse w c sql
  · exact SameTables.refl w
  · exact sameTables_execOn hq hx
  · have h := (sameTables_execOn hq hx).trans (sameTables_setSession w' c .lost)
    cases c with
    | command => cases sql <;> first | exact h | exact hq.elim
    | _ => exact h

theorem handle_query (w : World T E) (c : Connection) (sql : Sql W) :
    handle b w (.query c sql) = handleQuery b w.advance (w.faults.headD .none) c sql := rfl

theorem sameTables_advance (w : World T E) : SameTables w w.advance := ⟨rfl, rfl, rfl⟩

theorem sameTables_query {w : World T E} {c : Connection} (sql : Sql W)
    (hq : Quiet (w.session c) sql) : SameTables w (handle b w (.query c sql)).2 := by
  have hq' : Quiet (w.advance.session c) sql := by
    cases c <;> exact hq
  exact (sameTables_advance w).trans (sameTables_handleQuery hq')

/-- Statements that do not end a transaction. -/
def Stays : Sql W → Prop
  | .commit => False
  | .rollback => False
  | _ => True

theorem inTx_execOn {w w' : World T E} {sql : Sql W} {a : sql.Answer A} {tx : Tx T}
    (hs : w.command = .inTx tx) (hsql : Stays sql)
    (h : execOn b w .command sql = some (w', a)) : ∃ tx', w'.command = .inTx tx' := by
  have hsess : w.session .command = .inTx tx := hs
  unfold execOn at h
  rw [hsess] at h
  cases sql with
  | commit => exact hsql.elim
  | rollback => exact hsql.elim
  | rollbackTo name =>
    obtain ⟨tx', -, he⟩ := Option.map_eq_some_iff.mp h
    cases he
    exact ⟨tx', rfl⟩
  | releaseSavepoint name =>
    simp only [execInTx] at h
    split_ifs at h
    obtain ⟨tx', -, he⟩ := Option.map_eq_some_iff.mp h
    cases he
    exact ⟨tx', rfl⟩
  | begin => simp only [execInTx] at h; split_ifs at h; cases h; exact ⟨tx, hs⟩
  | lock actor commandId => simp only [execInTx] at h; split_ifs at h; cases h; exact ⟨tx, hs⟩
  | selectReceipt actor commandId =>
    simp only [execInTx] at h; split_ifs at h; cases h; exact ⟨tx, hs⟩
  | _ => simp only [execInTx] at h; split_ifs at h; cases h; exact ⟨_, rfl⟩

/-- Such a statement leaves the session in the transaction, or loses it. -/
theorem inTx_handleQuery {w : World T E} {fault : Fault} {sql : Sql W}
    (hs : InTxOrLost w fun _ => True) (hsql : Stays sql) :
    InTxOrLost (handleQuery b w fault .command sql).2 fun _ => True := by
  have hrefuse : InTxOrLost (w.refuse .command sql) fun _ => True := by
    rcases hs with hs | ⟨tx, hs, -⟩
    · have hsess : w.session .command = .lost := hs
      simp only [World.refuse, hsess]
      exact Or.inl hs
    · have hsess : w.session .command = .inTx tx := hs
      simp only [World.refuse, hsess]
      cases sql with
      | commit => exact hsql.elim
      | savepoint name => exact Or.inr ⟨tx.abort, rfl, trivial⟩
      | _ => exact Or.inr ⟨tx.abort, rfl, trivial⟩
  have hexec : ∀ out, execOn b w .command sql = some out → InTxOrLost out.1 fun _ => True := by
    intro out hx
    rcases hs with hs | ⟨tx, hs, -⟩
    · have hsess : w.session .command = .lost := hs
      simp only [execOn, hsess] at hx
      cases hx
    · obtain ⟨tx', h⟩ := inTx_execOn hs hsql hx
      exact Or.inr ⟨tx', h, trivial⟩
  cases fault with
  | lostBefore => exact Or.inl rfl
  | refused =>
    cases sql with
    | rollback => exact hsql.elim
    | _ => exact hrefuse
  | lostAfter =>
    simp only [handleQuery]
    cases hx : execOn b w .command sql with
    | none => exact Or.inl rfl
    | some out => left; cases sql <;> rfl
  | none =>
    simp only [handleQuery]
    cases hx : execOn b w .command sql with
    | none => exact hrefuse
    | some out => exact hexec out hx

/-- Only an executed statement is answered. -/
theorem execOn_of_ok {w w' : World T E} {fault : Fault} {c : Connection} {sql : Sql W}
    {a : sql.Answer A} (h : handleQuery b w fault c sql = (.ok a, w')) :
    execOn b w c sql = some (w', a) := by
  cases fault with
  | lostBefore => cases h
  | refused =>
    cases sql with
    | rollback =>
      simp only [handleQuery] at h
      cases hx : execOn b w c .rollback with
      | none => rw [hx] at h; cases h
      | some out => rw [hx] at h; cases h; rfl
    | _ => cases h
  | lostAfter =>
    simp only [handleQuery] at h
    cases hx : execOn b w c sql with
    | none => rw [hx] at h; cases h
    | some out => rw [hx] at h; cases h
  | none =>
    simp only [handleQuery] at h
    cases hx : execOn b w c sql with
    | none => rw [hx] at h; cases h
    | some out => rw [hx] at h; cases h; rfl

/-! ## The stages of a call that runs alone -/

section Stages

variable {tables : T} {identity : CommandIdentity} {w : World T E}

/-- A session in a transaction, or a lost one, is not idle. -/
theorem InTxOrLost.quiet {P : Tx T → Prop} (h : InTxOrLost w P) (sql : Sql W)
    (hsql : Stays sql) : Quiet (w.session .command) sql := by
  have hne : w.session .command ≠ .idle := by
    intro he
    rw [show w.session .command = w.command from rfl] at he
    rcases h with hs | ⟨tx, hs, -⟩ <;> rw [hs] at he <;> cases he
  cases sql with
  | commit => exact hsql.elim
  | begin => trivial
  | rollback => trivial
  | _ => exact hne

theorem InTxOrLost.imp {P Q : Tx T → Prop} (h : InTxOrLost w P) (hPQ : ∀ tx, P tx → Q tx) :
    InTxOrLost w Q := by
  rcases h with h | ⟨tx, h, hp⟩
  · exact Or.inl h
  · exact Or.inr ⟨tx, h, hPQ tx hp⟩

/-- In a transaction, a statement that does not end it leaves the call intact. -/
theorem intact_inside {P : Tx T → Prop} (hu : Untouched tables w) (hs : InTxOrLost w P)
    (sql : Sql W) (hsql : Stays sql) :
    Untouched tables (handle b w (.query .command sql)).2 ∧
      InTxOrLost (handle b w (.query .command sql)).2 fun _ => True := by
  refine ⟨(sameTables_query sql (hs.quiet sql hsql)).untouched hu, ?_⟩
  rw [handle_query]
  have hs' : InTxOrLost w.advance P := hs
  exact inTx_handleQuery (hs'.imp fun _ _ => trivial) hsql

/-- The tables and effects after a statement that cannot change the tables. -/
theorem intact_quiet (sql : Sql W) (hq : Quiet (w.session .command) sql)
    (h : (w.commitLost = false → w.tables = tables) ∧ w.effects = []) :
    ((handle b w (.query .command sql)).2.commitLost = false →
      (handle b w (.query .command sql)).2.tables = tables) ∧
    (handle b w (.query .command sql)).2.effects = [] := by
  have hsame := sameTables_query (b := b) sql hq
  rw [hsame.tables, hsame.effects, hsame.commitLost]
  exact h

/-- An answered statement was executed after its fault was used up. -/
theorem execOn_of_answer {c : Connection} {sql : Sql W} {a : sql.Answer A} {w' : World T E}
    (h : handle b w (.query c sql) = (.ok a, w')) : execOn b w.advance c sql = some (w', a) :=
  execOn_of_ok (h := by rw [← handle_query]; exact h)

theorem Untouched.failing (hu : Untouched tables w) :
    (w.commitLost = false → w.tables = tables) ∧ w.effects = [] :=
  ⟨fun _ => hu.tables, hu.effects⟩

/-- An answered `BEGIN` has opened a transaction on the tables. -/
theorem answered_begin (hu : Untouched tables w) (hs : w.command = .idle ∨ w.command = .lost)
    {a : Unit} {w' : World T E} (hr : handle b w (.query .command .begin) = (.ok a, w')) :
    Untouched tables w' ∧ w'.command = .inTx (Tx.start tables) := by
  have hx := execOn_of_answer hr
  rcases hs with hs | hs
  · have hsess : w.advance.session .command = .idle := hs
    simp only [execOn, hsess, execIdle, Option.some.injEq, Prod.mk.injEq] at hx
    obtain ⟨rfl, -⟩ := hx
    have hsame := (sameTables_advance w).trans
      (sameTables_setSession w.advance .command (.inTx (Tx.start w.advance.tables)))
    exact ⟨hsame.untouched hu,
      congrArg (fun t => CommandSession.Session.inTx (Tx.start t)) hu.tables⟩
  · have hsess : w.advance.session .command = .lost := hs
    simp only [execOn, hsess] at hx
    cases hx

theorem intact_begin (h : Intact tables (.connected : Stage E) w) :
    Intact tables (next (A := A) identity .connected (.query .command .begin)
      (handle b w (.query .command .begin)).1) (handle b w (.query .command .begin)).2 := by
  obtain ⟨hu, hs⟩ := h
  have hquiet := intact_quiet (b := b) .begin trivial hu.failing
  cases hr : handle b w (.query .command .begin) with
  | mk r w' =>
    rw [hr] at hquiet
    cases r with
    | error e => exact hquiet
    | ok a =>
      obtain ⟨hu', hs'⟩ := answered_begin hu hs hr
      exact ⟨hu', Or.inr ⟨_, hs', rfl⟩⟩

/-- An answered read of an open transaction changes nothing. -/
theorem answered_read {sql : Sql W} {a : sql.Answer A} {w' : World T E} {tx : Tx T}
    (hs : w.command = .inTx tx) (hr : handle b w (.query .command sql) = (.ok a, w'))
    (hread : ∀ out, execInTx b w.advance .command tx sql = some out → out.1 = w.advance) :
    w' = w.advance := by
  have hx := execOn_of_answer hr
  have hsess : w.advance.session .command = .inTx tx := hs
  simp only [execOn, hsess] at hx
  exact hread _ hx

theorem not_answered_lost {sql : Sql W} {a : sql.Answer A} {w' : World T E}
    (hs : w.command = .lost) (hr : handle b w (.query .command sql) = (.ok a, w')) : False := by
  have hx := execOn_of_answer hr
  have hsess : w.advance.session .command = .lost := hs
  simp only [execOn, hsess] at hx
  cases hx

theorem intact_lock {actor commandId : String} (h : Intact tables (.begun : Stage E) w) :
    Intact tables (next (A := A) identity .begun (.query .command (.lock actor commandId))
      (handle b w (.query .command (.lock actor commandId))).1)
      (handle b w (.query .command (.lock actor commandId))).2 := by
  obtain ⟨hu, hs⟩ := h
  have hin := (intact_inside (b := b) hu hs (.lock actor commandId) trivial).1
  cases hr : handle b w (.query .command (.lock actor commandId)) with
  | mk r w' =>
    rw [hr] at hin
    cases r with
    | error e => exact hin.failing
    | ok a =>
      refine ⟨hin, ?_⟩
      rcases hs with hs | ⟨tx, hs, hp⟩
      · exact (not_answered_lost hs hr).elim
      · have hw : w' = w.advance := answered_read hs hr fun out hx => by
          simp only [execInTx] at hx
          split_ifs at hx
          cases hx
          rfl
        rw [hw]
        exact Or.inr ⟨tx, hs, hp⟩

theorem intact_select {actor commandId : String} (h : Intact tables (.locked : Stage E) w) :
    Intact tables (next (A := A) identity .locked (.query .command (.selectReceipt actor commandId))
      (handle b w (.query .command (.selectReceipt actor commandId))).1)
      (handle b w (.query .command (.selectReceipt actor commandId))).2 := by
  obtain ⟨hu, hs⟩ := h
  have hin := (intact_inside (b := b) hu hs (.selectReceipt actor commandId) trivial).1
  cases hr : handle b w (.query .command (.selectReceipt actor commandId)) with
  | mk r w' =>
    rw [hr] at hin
    cases r with
    | error e => exact hin.failing
    | ok prior =>
      have hstart : InTxOrLost w' (· = Tx.start tables) := by
        rcases hs with hs | ⟨tx, hs, hp⟩
        · exact (not_answered_lost hs hr).elim
        · have hw : w' = w.advance := answered_read hs hr fun out hx => by
            simp only [execInTx] at hx
            split_ifs at hx
            cases hx
            rfl
          rw [hw]
          exact Or.inr ⟨tx, hs, hp⟩
      cases prior with
      | none => exact ⟨hin, hstart.imp fun _ _ => trivial⟩
      | some receipt =>
        by_cases hf : receipt.fingerprint = identity.fingerprint
        · simp only [next, if_pos hf]
          exact ⟨hin, hstart⟩
        · simp only [next, if_neg hf]
          exact hin.failing

/-- The outcomes of a commit: an error that left the tables alone, an executed
commit whose answer was lost, or an answered one. -/
theorem commit_cases {P : Tx T → Prop} (hs : InTxOrLost w P) :
    (∃ e w', handle b w (.query .command .commit) = (.error e, w') ∧ SameTables w w') ∨
    (∃ tx e w', P tx ∧ w.command = .inTx tx ∧
      handle b w (.query .command .commit) = (.error e, w') ∧ w'.commitLost = true ∧
      w'.effects = w.effects ∧ w'.tables = if tx.aborted then w.tables else tx.content) ∨
    (∃ tx w', P tx ∧ w.command = .inTx tx ∧
      handle b w (.query .command .commit) = (.ok (), w') ∧ w'.command = .idle ∧
      w'.commitLost = w.commitLost ∧ w'.effects = w.effects ∧
      w'.tables = if tx.aborted then w.tables else tx.content) := by
  rw [handle_query]
  have hrefuse := (sameTables_advance w).trans
    (sameTables_refuse w.advance .command (Sql.commit : Sql W))
  have hlost := (sameTables_advance w).trans (sameTables_setSession w.advance .command .lost)
  rcases hs with hs | ⟨tx, hs, hp⟩
  · have hx : execOn b w.advance .command .commit = none := by
      have hsess : w.advance.session .command = .lost := hs
      simp only [execOn, hsess]
    left
    cases w.faults.headD .none with
    | none => simp only [handleQuery, hx]; exact ⟨_, _, rfl, hrefuse⟩
    | refused => exact ⟨_, _, rfl, hrefuse⟩
    | lostBefore => exact ⟨_, _, rfl, hlost⟩
    | lostAfter => simp only [handleQuery, hx]; exact ⟨_, _, rfl, hlost⟩
  · let done : World T E := if tx.aborted then w.advance.setSession .command .idle
      else (w.advance.setTables tx.content).setSession .command .idle
    have hx : execOn b w.advance .command .commit = some (done, ()) := by
      have hsess : w.advance.session .command = .inTx tx := hs
      simp only [execOn, hsess, execInTx]
      rfl
    have hdone : done.command = .idle ∧ done.commitLost = w.commitLost ∧
        done.effects = w.effects ∧ done.tables = if tx.aborted then w.tables else tx.content := by
      cases hab : tx.aborted <;> simp only [done, hab] <;> exact ⟨rfl, rfl, rfl, rfl⟩
    cases w.faults.headD .none with
    | none =>
      refine Or.inr (Or.inr ⟨tx, done, hp, hs, ?_, hdone⟩)
      simp only [handleQuery, hx]
    | refused => exact Or.inl ⟨_, _, rfl, hrefuse⟩
    | lostBefore => exact Or.inl ⟨_, _, rfl, hlost⟩
    | lostAfter =>
      refine Or.inr (Or.inl ⟨tx, databaseError, done.loseAnswer .command (Sql.commit : Sql W), hp,
        hs, ?_, rfl, hdone.2.2.1, hdone.2.2.2⟩)
      simp only [handleQuery, hx]

/-- The commit of a replay changes nothing, executed or not. -/
theorem intact_recommit {receipt : Receipt} (h : Intact tables (.replaying receipt : Stage E) w) :
    Intact tables (next (A := A) identity (.replaying receipt) (.query .command .commit)
      (handle b w (.query .command .commit)).1) (handle b w (.query .command .commit)).2 := by
  obtain ⟨hu, hs⟩ := h
  rcases commit_cases (b := b) hs with ⟨e, w', he, hsame⟩ | ⟨tx, e, w', rfl, -, he, -, heff, ht⟩ |
    ⟨tx, w', rfl, -, he, -, -, heff, ht⟩
  · rw [he]
    exact (hsame.untouched hu).failing
  · rw [he]
    exact ⟨fun _ => ht, heff.trans hu.effects⟩
  · rw [he]
    exact ⟨⟨ht, heff.trans hu.effects⟩, rfl⟩

theorem intact_commit {receipt : Receipt} {effects : List E}
    (h : Intact tables (.stored receipt effects : Stage E) w) :
    Intact tables (next (A := A) identity (.stored receipt effects) (.query .command .commit)
      (handle b w (.query .command .commit)).1) (handle b w (.query .command .commit)).2 := by
  obtain ⟨hu, hs⟩ := h
  rcases commit_cases (b := b) hs with ⟨e, w', he, hsame⟩ | ⟨tx, e, w', -, -, he, hl, heff, -⟩ |
    ⟨tx, w', -, -, he, -⟩
  · rw [he]
    exact (hsame.untouched hu).failing
  · rw [he]
    refine ⟨fun hn => ?_, heff.trans hu.effects⟩
    rw [hl] at hn
    cases hn
  · rw [he]
    exact trivial

/-- Every allowed await keeps a call that runs alone intact. -/
theorem intact_step {stage : Stage E} {op : Await W E} (h : Intact tables stage w)
    (hop : Allowed identity stage op) :
    Intact tables (next identity stage op (handle b w op).1) (handle b w op).2 := by
  cases hop with
  | connect =>
    obtain ⟨hu, hs⟩ := h
    have hfail : Intact tables (.start : Stage E) w.advance :=
      ⟨(sameTables_advance w).untouched hu, hs⟩
    unfold handle
    cases w.faults.headD .none with
    | none =>
      have hsame := (sameTables_advance w).trans (sameTables_setSession w.advance .command .idle)
      exact ⟨hsame.untouched hu, Or.inl rfl⟩
    | _ => exact hfail
  | begin => exact intact_begin h
  | lock => exact intact_lock h
  | select => exact intact_select h
  | body hop =>
    rw [next_body identity hop]
    cases op with
    | register effect => exact ⟨(sameTables_advance w).untouched h.1, h.2⟩
    | query c sql =>
      cases c with
      | command =>
        refine intact_inside h.1 h.2 _ ?_
        cases sql <;> trivial
      | _ => exact hop.elim
    | _ => exact hop.elim
  | @insert effects receipt hf =>
    have hin := intact_inside (b := b) h.1 h.2
      (.insertReceipt identity.actor identity.commandId receipt) trivial
    cases hr : handle b w (.query .command
        (.insertReceipt identity.actor identity.commandId receipt)) with
    | mk r w' =>
      rw [hr] at hin
      cases r with
      | error e => exact hin.1.failing
      | ok _ => exact hin
  | refuse => exact intact_quiet _ trivial h.1.failing
  | commit => exact intact_commit h
  | recommit => exact intact_recommit h
  | catching => exact intact_quiet _ trivial h
  | rollbackAgain => exact intact_quiet _ trivial h
  | releaseEnded => exact h
  | @releaseCommitted fresh receipt todo =>
    show Intact tables (next (A := A) identity (.committed fresh receipt todo)
      (.release .command) (.ok ())) _
    rw [next_release]
    cases fresh with
    | true => exact trivial
    | false =>
      have hsame := (sameTables_advance w).trans (sameTables_setSession w.advance .command .closed)
      exact ⟨hsame.untouched h.1, h.2⟩
  | @effect fresh receipt effect todo =>
    cases fresh with
    | true => exact trivial
    | false => cases h.2

end Stages

/-- A call that runs alone and does not answer a committed success has run no
effect, and leaves the tables as they were unless its commit was executed and
the answer lost. -/
theorem nothing_left_behind (storedJson : Json → Json) (payload : Json)
    {apply : Server W E A (Option Json)} (ha : apply.Uses InCommand) (tables : T)
    (faults : List Fault) :
    let r := (execute storedJson payload apply).run (handle b) (World.start tables faults)
    (∀ answer, r.1 = .ok answer → succeeded answer = false) →
      r.2.effects = [] ∧ (r.2.commitLost = false → r.2.tables = tables) := by
  intro r hfail
  have hstart : Intact tables (.start : Stage E) (World.start tables faults) :=
    ⟨⟨rfl, rfl⟩, rfl⟩
  cases hid : identityOf payload with
  | none =>
    have hr : r = (.error invalidIdentity, World.start tables faults) := by
      simp only [r, execute, hid, Prog.run_fail]
    rw [hr]
    exact ⟨rfl, fun _ => rfl⟩
  | some identity =>
    have hf : Prog.Follows (Allowed identity) (next identity) (Outcome storedJson) .start
        (execute storedJson payload apply) := follows_execute hid ha
    have hstep : ∀ stage (w : World T E) op, Intact tables stage w → Allowed identity stage op →
        Intact tables (next identity stage op (handle b w op).1) (handle b w op).2 :=
      fun stage w op h hop => intact_step h hop
    obtain ⟨stage, hi, hout⟩ := Prog.run_follows hstep hf hstart
    change Intact tables stage r.2 at hi
    change Outcome storedJson stage r.1 at hout
    cases stage with
    | start => exact ⟨hi.1.effects, fun _ => hi.1.tables⟩
    | ended applied => exact ⟨hi.2, hi.1⟩
    | broken => exact hi.elim
    | committed fresh receipt todo =>
      cases fresh with
      | false => exact ⟨hi.1.effects, fun _ => hi.1.tables⟩
      | true =>
        cases todo with
        | cons effect todo => cases hr : r.1 <;> rw [hr] at hout <;> exact hout.elim
        | nil =>
          cases hr : r.1 with
          | error e => rw [hr] at hout; exact hout.elim
          | ok answer =>
            rw [hr] at hout
            cases answer with
            | none => exact hout.elim
            | some value =>
              have hs := hfail _ hr
              rw [hout.2] at hs
              cases hs
    | _ => cases hr : r.1 <;> rw [hr] at hout <;> exact hout.elim

end FactoryServer.CommandAtomicity
