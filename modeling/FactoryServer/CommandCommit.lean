import FactoryServer.CommandAtomicity

/-!
# What a durable command commits

Pre- and postconditions of code that runs on the command's connection. They
speak of the content of the open transaction: a statement maps it, a failed
one aborts the transaction, and a savepoint brings a known content back. What
a successful command left in its transaction is what its commit makes
permanent, together with the receipt.
-/

namespace FactoryServer.CommandCommit

open JsonValue AsyncProgram SqlTransaction CommandTransaction CommandReceipts CommandSession
  CommandAtomicity
open AsyncProgram.Prog (Ensures Keeps)

variable {T W E : Type} {A : W → Type} {b : Backend T W E A}

/-- The command's connection is lost, or a `SAVEPOINT` was refused on it. -/
def Off (w : World T E) : Prop := w.savepointRefused = true ∨ w.command = .lost

/-- Unless it is off, the command's connection is in a transaction with `P`. -/
def On (P : Tx T → Prop) (w : World T E) : Prop :=
  Off w ∨ ∃ tx, w.command = .inTx tx ∧ P tx

/-- A transaction that is not aborted has a content with `P`. -/
def Sound (P : T → Prop) (tx : Tx T) : Prop := tx.aborted = false → P tx.content

/-- A sound transaction whose newest savepoint restores a content with `P`. -/
def Under (name : String) (P : T → Prop) (tx : Tx T) : Prop :=
  Sound P tx ∧ ∃ c older, tx.savepoints = (name, c) :: older ∧ P c

theorem On.mono {P Q : Tx T → Prop} {w : World T E} (h : On P w) (hPQ : ∀ tx, P tx → Q tx) :
    On Q w := by
  rcases h with h | ⟨tx, hs, hp⟩
  · exact Or.inl h
  · exact Or.inr ⟨tx, hs, hPQ tx hp⟩

theorem Sound.mono {P Q : T → Prop} {tx : Tx T} (h : Sound P tx) (hPQ : ∀ c, P c → Q c) :
    Sound Q tx :=
  fun ha => hPQ _ (h ha)

/-- An aborted transaction is sound for any content. -/
theorem sound_abort (P : T → Prop) (tx : Tx T) : Sound P tx.abort := fun h => by cases h

/-! ## Statements -/

/-- The flag of a refused `SAVEPOINT` stays. -/
theorem savepointRefused_execOn {w w' : World T E} {c : Connection} {sql : Sql W}
    {a : sql.Answer A} (h : execOn b w c sql = some (w', a)) :
    w'.savepointRefused = w.savepointRefused := by
  have hset : ∀ (v : World T E) s, (v.setSession c s).savepointRefused = v.savepointRefused := by
    intro v s
    cases c <;> rfl
  exact Framed.execOn (f := World.savepointRefused) ⟨hset, fun _ _ => rfl⟩ h

theorem savepointRefused_refuse {w : World T E} {c : Connection} {sql : Sql W}
    (h : w.savepointRefused = true) : (w.refuse c sql).savepointRefused = true := by
  have hset : ∀ s, (w.setSession c s).savepointRefused = true := by
    intro s
    cases c <;> exact h
  unfold World.refuse
  cases w.session c with
  | inTx tx =>
    cases sql with
    | commit => exact hset _
    | savepoint name => simp [h]
    | _ => exact hset _
  | _ => exact h

theorem savepointRefused_handle {w : World T E} {c : Connection} {sql : Sql W}
    (h : w.savepointRefused = true) :
    (handle b w (.query c sql)).2.savepointRefused = true := by
  have ha : w.advance.savepointRefused = true := h
  have hlost : ∀ v : World T E, v.savepointRefused = true →
      (v.setSession c .lost).savepointRefused = true := by
    intro v hv
    cases c <;> exact hv
  rw [handle_query]
  rcases handleQuery_cases b w.advance (w.faults.headD .none) c sql with
    hw | hw | hw | ⟨w', a, hx, hw | ⟨-, hw⟩⟩ <;> rw [hw]
  · exact hlost _ ha
  · exact savepointRefused_refuse ha
  · exact ha
  · exact (savepointRefused_execOn hx).trans ha
  · have hl := hlost w' ((savepointRefused_execOn hx).trans ha)
    unfold World.loseAnswer
    cases c with
    | command => cases sql <;> exact hl
    | _ => exact hl

/-- A lost connection stays lost. -/
theorem lost_handle {w : World T E} {sql : Sql W} (h : w.command = .lost) :
    (handle b w (.query .command sql)).2.command = .lost := by
  have hsess : w.advance.session .command = .lost := h
  have hx : ∀ sql' : Sql W, execOn b w.advance .command sql' = none := by
    intro sql'
    simp only [execOn, hsess]
  have hrefuse : (w.advance.refuse .command sql).command = .lost := by
    simp only [World.refuse, hsess]
    exact h
  rw [handle_query]
  cases w.faults.headD .none with
  | lostBefore => rfl
  | refused =>
    cases sql with
    | rollback => simp only [handleQuery, hx]; exact h
    | _ => exact hrefuse
  | lostAfter => simp only [handleQuery, hx]; rfl
  | none => simp only [handleQuery, hx]; exact hrefuse

theorem off_handle {w : World T E} {sql : Sql W} (h : Off w) :
    Off (handle b w (.query .command sql)).2 := by
  rcases h with h | h
  · exact Or.inl (savepointRefused_handle h)
  · exact Or.inr (lost_handle h)

/-- What a statement inside the transaction comes to: the connection is lost,
the statement is refused, or it is executed and answered. -/
theorem query_cases {w : World T E} {tx : Tx T} (hs : w.command = .inTx tx) {sql : Sql W}
    (hsql : Stays sql) :
    (handle b w (.query .command sql)).2.command = .lost ∨
    handle b w (.query .command sql) = (.error databaseError, w.advance.refuse .command sql) ∨
    ∃ w' a, execInTx b w.advance .command tx sql = some (w', a) ∧
      handle b w (.query .command sql) = (.ok a, w') := by
  have hsess : w.advance.session .command = .inTx tx := hs
  have hx : execOn b w.advance .command sql = execInTx b w.advance .command tx sql := by
    simp only [execOn, hsess]
  rw [handle_query]
  cases w.faults.headD .none with
  | lostBefore => exact Or.inl rfl
  | refused =>
    right; left
    cases sql with
    | rollback => exact hsql.elim
    | _ => rfl
  | lostAfter =>
    left
    simp only [handleQuery]
    cases execOn b w.advance .command sql with
    | none => rfl
    | some out => cases sql <;> rfl
  | none =>
    right
    cases he : execInTx b w.advance .command tx sql with
    | none => left; simp only [handleQuery, hx, he]
    | some out => exact Or.inr ⟨out.1, out.2, rfl, by simp only [handleQuery, hx, he]⟩

/-- The rule of a statement that does not end the transaction. -/
theorem ensures_query (sql : Sql W) (hsql : Stays sql) {P : Tx T → Prop}
    {Q : Except Thrown (sql.Answer A) → Tx T → Prop}
    (hexec : ∀ (w : World T E) tx w' a, P tx → execInTx b w .command tx sql = some (w', a) →
      ∃ tx', w'.command = .inTx tx' ∧ Q (.ok a) tx')
    (hrefuse : ∀ tx, P tx → (∀ name, sql ≠ .savepoint name) → Q (.error databaseError) tx.abort) :
    Ensures (handle b) (On P) (query .command sql) fun out => On (Q out) := by
  refine Prog.ensures_perform fun w hw => ?_
  rcases hw with hoff | ⟨tx, hs, hp⟩
  · exact Or.inl (off_handle hoff)
  rcases query_cases (b := b) hs hsql with hl | he | ⟨w', a, hx, he⟩
  · exact Or.inl (Or.inr hl)
  · rw [he]
    have hsess : w.advance.session .command = .inTx tx := hs
    simp only [World.refuse, hsess]
    cases sql with
    | commit => exact hsql.elim
    | savepoint name => exact Or.inl (Or.inl (by simp))
    | _ => exact Or.inr ⟨tx.abort, rfl, hrefuse tx hp fun name h => by cases h⟩
  · rw [he]
    exact Or.inr (hexec _ tx w' a hp hx)

/-- A data statement maps the content of the transaction. -/
theorem ensures_data (st : W) {P : T → Prop} {Q : A st → T → Prop}
    (h : ∀ c, P c → Q (b.exec st c).2 (b.exec st c).1) :
    Ensures (handle b) (On (Sound P)) (query .command (.data st)) fun out =>
      On (match out with
        | .ok a => Sound (Q a)
        | .error _ => Sound P) := by
  refine (ensures_query (b := b) (.data st) trivial (P := Sound P)
    (Q := fun out => match out with
      | .ok a => Sound (Q a)
      | .error _ => Sound P) ?_ ?_).mono (fun _ h => h) fun _ _ h => h
  · intro w tx w' a hp hx
    simp only [execInTx] at hx
    split_ifs at hx with ha
    cases hx
    exact ⟨_, rfl, fun _ => h _ (hp (by simpa using ha))⟩
  · exact fun tx hp _ => sound_abort P tx

/-- A data statement that keeps `P`, below a savepoint. -/
theorem keeps_data_under (name : String) (st : W) {P : T → Prop}
    (h : ∀ c, P c → P (b.exec st c).1) :
    Keeps (handle b) (On (Under name P)) (query .command (.data st)) := by
  refine ensures_query (b := b) (.data st) trivial (P := Under name P)
    (Q := fun _ => Under name P) ?_ ?_
  · intro w tx w' a hp hx
    simp only [execInTx] at hx
    split_ifs at hx with ha
    cases hx
    exact ⟨_, rfl, fun _ => h _ (hp.1 (by simpa using ha)), hp.2⟩
  · exact fun tx hp _ => ⟨sound_abort P tx, hp.2⟩

/-- `SAVEPOINT`: refused, it takes the command off. -/
theorem ensures_savepoint (name : String) {P : T → Prop} :
    Ensures (handle b) (On (Sound P)) (query .command (.savepoint name)) fun _ =>
      On (Under name P) := by
  refine ensures_query (b := b) (.savepoint name) trivial (P := Sound P)
    (Q := fun _ => Under name P) ?_ ?_
  · intro w tx w' a hp hx
    simp only [execInTx] at hx
    split_ifs at hx with ha
    cases hx
    have hc : P tx.content := hp (by simpa using ha)
    exact ⟨_, rfl, fun _ => hc, tx.content, tx.savepoints, rfl, hc⟩
  · exact fun tx _ h => (h name rfl).elim

/-- After work below a savepoint that releases it when it succeeds. -/
def Released {α : Type} (name : String) (P : T → Prop) : Except Thrown α → Tx T → Prop
  | .ok _ => Sound P
  | .error _ => Under name P

/-- `RELEASE SAVEPOINT` of the newest savepoint keeps the content. -/
theorem ensures_releaseSavepoint (name : String) {P : T → Prop} :
    Ensures (handle b) (On (Under name P)) (query .command (.releaseSavepoint name)) fun out =>
      On (Released name P out) := by
  refine ensures_query (b := b) (.releaseSavepoint name) trivial (P := Under name P)
    (Q := Released name P) ?_ ?_
  · intro w tx w' a hp hx
    obtain ⟨hc, c, older, hsp, -⟩ := hp
    simp only [execInTx] at hx
    split_ifs at hx with ha
    obtain ⟨tx', htx, he⟩ := Option.map_eq_some_iff.mp hx
    cases he
    simp only [Tx.releaseSavepoint, Tx.from, hsp, List.dropWhile_cons, bne_self_eq_false,
      Bool.false_eq_true, if_false, Option.some.injEq] at htx
    subst htx
    exact ⟨_, rfl, fun _ => hc (by simpa using ha)⟩
  · exact fun tx hp _ => ⟨sound_abort P tx, hp.2⟩

/-- `ROLLBACK TO SAVEPOINT` of the newest savepoint restores its content. -/
theorem ensures_rollbackTo (name : String) {P : T → Prop} :
    Ensures (handle b) (On (Under name P)) (query .command (.rollbackTo name)) fun _ =>
      On (Sound P) := by
  refine ensures_query (b := b) (.rollbackTo name) trivial (P := Under name P)
    (Q := fun _ => Sound P) ?_ ?_
  · intro w tx w' a hp hx
    obtain ⟨-, c, older, hsp, hc⟩ := hp
    simp only [execInTx] at hx
    obtain ⟨tx', htx, he⟩ := Option.map_eq_some_iff.mp hx
    cases he
    simp only [Tx.rollbackTo, Tx.from, hsp, List.dropWhile_cons, bne_self_eq_false,
      Bool.false_eq_true, if_false, Option.some.injEq] at htx
    subst htx
    exact ⟨_, rfl, fun _ => hc⟩
  · exact fun tx _ _ => sound_abort P tx

/-- Deferring an effect changes nothing. -/
theorem keeps_register (effect : E) {P : Tx T → Prop} :
    Keeps (handle b) (On P)
      (perform (.register effect) : Server W E A Unit) :=
  Prog.keeps_perform fun _ hw => hw

/-! ## The whole command -/

/-- The command's connection is in a transaction or lost, nothing has changed
outside it, and no commit was executed without an answer. -/
def Inside (tables : T) (w : World T E) : Prop :=
  Untouched tables w ∧ (InTxOrLost w fun _ => True) ∧ w.commitLost = false

variable {tables : T}

theorem inside_query {w : World T E} {sql : Sql W} (h : Inside tables w) (hsql : Stays sql) :
    Inside tables (handle b w (.query .command sql)).2 := by
  obtain ⟨hu, hs⟩ := intact_inside (b := b) h.1 h.2.1 sql hsql
  exact ⟨hu, hs, (sameTables_query sql (h.2.1.quiet sql hsql)).commitLost.trans h.2.2⟩

theorem inside_inCommand {w : World T E} {op : Await W E} (hop : InCommand op)
    (h : Inside tables w) : Inside tables (handle b w op).2 := by
  cases op with
  | register effect => exact ⟨(sameTables_advance w).untouched h.1, h.2⟩
  | query c sql =>
    cases c with
    | command =>
      refine inside_query h ?_
      cases sql <;> trivial
    | _ => exact hop.elim
  | _ => exact hop.elim

/-- A statement inside the transaction, with what it does to its content. -/
theorem ensures_inside (tables : T) (sql : Sql W) (hsql : Stays sql) {P : Tx T → Prop}
    {Q : Except Thrown (sql.Answer A) → Tx T → Prop}
    (h : Ensures (handle b) (On P) (query .command sql) fun out => On (Q out)) :
    Ensures (handle b) (fun w => On P w ∧ Inside tables w) (query .command sql) fun out w =>
      On (Q out) w ∧ Inside tables w := by
  intro w hw
  refine ⟨h w hw.1, ?_⟩
  simp only [query, Prog.run_perform]
  exact inside_query hw.2 hsql

/-- The effects an await registers or runs. -/
def emitted : Await W E → List E
  | .register effect => [effect]
  | .runEffect effect => [effect]
  | _ => []

/-- Collecting the registered effects does not change how a command runs. -/
theorem run_collect {α : Type} {p : Server W E A α} (hp : p.Uses InCommand) (effects : List E)
    (w : World T E) :
    (collect p effects).run (handle b) w =
      (.ok ((p.run (handle b) w).1, effects ++ p.trace (handle b) emitted w),
        (p.run (handle b) w).2) := by
  induction p generalizing effects w with
  | ret a => simp [collect]
  | fail e => simp [collect]
  | await op k ih =>
    have hregistered : registered op = emitted op := by
      cases op with
      | runEffect effect => exact hp.1.elim
      | _ => rfl
    simp only [collect, Prog.run_await]
    rw [ih _ (hp.2 _), Prog.trace, hregistered, List.append_assoc]

section Commit

variable {storedJson : Json → Json} {identity : CommandIdentity} {K : T → Prop}
  {L : List E → T → Prop}

/-- A part of a command is over: if it committed, the tables satisfy `K`. -/
def Settled (K : T → Prop) (committed : Prop) (w : World T E) : Prop :=
  w.savepointRefused = false → committed ∨ w.commitLost = true → K w.tables

/-- Without an executed commit there is nothing to show. -/
theorem Inside.settled {w : World T E} (h : Inside tables w) {committed : Prop}
    (hc : ¬committed) : Settled K committed w := by
  rintro - (h' | h')
  · exact (hc h').elim
  · rw [h.2.2] at h'
    cases h'

theorem Settled.mono {committed committed' : Prop} {w : World T E} (h : Settled K committed w)
    (hc : committed' → committed) : Settled K committed' w :=
  fun hf hc' => h hf (hc'.imp_left hc)

/-- The flag of a refused `SAVEPOINT` was not set before, if it is not set now. -/
theorem flag_before {w : World T E} {c : Connection} {sql : Sql W}
    (h : (handle b w (.query c sql)).2.savepointRefused = false) : w.savepointRefused = false := by
  cases hw : w.savepointRefused with
  | false => rfl
  | true => rw [savepointRefused_handle hw] at h; cases h

/-- Statements that cannot change the tables leave an ended command as it is. -/
theorem Settled.query {committed : Prop} {w : World T E} {sql : Sql W}
    (hq : Quiet (w.session .command) sql) (h : Settled K committed w) :
    Settled K committed (handle b w (.query .command sql)).2 := by
  have hsame := sameTables_query (b := b) sql hq
  intro hflag hc
  rw [hsame.commitLost] at hc
  rw [hsame.tables]
  exact h (flag_before hflag) hc

/-- A commit makes the content permanent: whether it is answered or not, the
tables satisfy what the content did. -/
theorem ensures_commit {P : Tx T → Prop}
    (hP : ∀ tx, P tx → K (if tx.aborted then tables else tx.content)) :
    Ensures (handle b) (fun w => On P w ∧ Inside tables w) (query .command .commit) fun out w =>
      Settled K (∃ a, out = .ok a) w := by
  refine Prog.ensures_perform fun w hw hflag hc => ?_
  obtain ⟨hon, hu, -, hl₀⟩ := hw
  have hflag' := flag_before hflag
  have htx : InTxOrLost w P := by
    rcases hon with (hf | hl) | h
    · rw [hflag'] at hf
      cases hf
    · exact Or.inl hl
    · exact Or.inr h
  rcases commit_cases (b := b) htx with ⟨e, w', he, hsame⟩ | ⟨tx, e, w', hp, -, he, -, -, htab⟩ |
    ⟨tx, w', hp, -, he, -, -, -, htab⟩
  · rw [he] at hc
    rcases hc with ⟨a, ha⟩ | hl
    · cases ha
    · rw [hsame.commitLost, hl₀] at hl
      cases hl
  · rw [he, htab, hu.tables]
    exact hP tx hp
  · rw [he, htab, hu.tables]
    exact hP tx hp


/-- Storing the receipt of a successful command. -/
theorem ensures_insertReceipt (receipt : Receipt) {P : T → Prop} :
    Ensures (handle b) (On (Sound P))
      (query .command (.insertReceipt identity.actor identity.commandId receipt)) fun out =>
        On fun tx => ∀ a, out = .ok a → tx.aborted = false ∧ ∃ c, P c ∧
          tx.content = b.insertReceipt c identity.actor identity.commandId receipt := by
  refine ensures_query (b := b) (.insertReceipt identity.actor identity.commandId receipt) trivial
    (P := Sound P) (Q := fun out tx => ∀ a, out = .ok a → tx.aborted = false ∧ ∃ c, P c ∧
      tx.content = b.insertReceipt c identity.actor identity.commandId receipt) ?_ ?_
  · intro w tx w' a hp hx
    simp only [execInTx] at hx
    split_ifs at hx with ha
    cases hx
    have ha' : tx.aborted = false := by simpa using ha
    exact ⟨_, rfl, fun _ _ => ⟨ha', tx.content, hp ha', rfl⟩⟩
  · intro tx hp _ a h
    cases h

/-- What the tables of a command satisfy that committed with some effects. -/
def CommitLeaves (L : List E → T → Prop) : Except Thrown (CommandReceipts.Ended E) → T → Prop
  | .ok (.committed _ effects) => L effects
  | _ => fun t => ∃ effects, L effects t

/-- How a part of the `try` block ends. -/
def EndsWell (L : List E → T → Prop) (out : Except Thrown (CommandReceipts.Ended E))
    (w : World T E) : Prop :=
  Settled (CommitLeaves L out) (∃ r e, out = .ok (.committed r e)) w ∧
    ∀ r, out = .ok (.rolledBack r) → succeeded r = false

theorem Settled.imp {K' : T → Prop} {committed : Prop} {w : World T E}
    (h : Settled K committed w) (hK : ∀ t, K t → K' t) : Settled K' committed w :=
  fun hf hc => hK _ (h hf hc)

theorem endsWell_error {e : Thrown} {w : World T E} (h : Inside tables w) :
    EndsWell L (.error e) w :=
  ⟨h.settled (by simp), by simp⟩

/-- A part that throws after a commit with these effects. -/
theorem endsWell_failed {e : Thrown} {w : World T E} {effects : List E} {committed : Prop}
    (h : Settled (L effects) committed w) (hc : ¬committed) : EndsWell L (.error e) w :=
  ⟨(h.imp fun _ hl => ⟨effects, hl⟩).mono (by simp [hc]), by simp⟩

/-- A replay commits the tables as they were. -/
theorem ensures_replay (receipt : Receipt) (hL : L [] tables) :
    Ensures (handle b) (fun w => On (· = Tx.start tables) w ∧ Inside tables w)
      (replay (E := E) identity receipt) (EndsWell L) := by
  unfold replay
  by_cases hf : receipt.fingerprint ≠ identity.fingerprint
  · rw [if_pos hf]
    exact Prog.ensures_fail fun w hw => endsWell_error hw.2
  · rw [if_neg hf]
    refine Prog.ensures_bind (ensures_commit (K := L []) ?_) (fun a => Prog.ensures_ret ?_) ?_
    · rintro tx rfl
      exact hL
    · exact fun w hw => ⟨hw.mono fun _ => ⟨a, rfl⟩, by simp⟩
    · exact fun e w hw => endsWell_failed hw (by simp)

variable {apply : Server W E A (Option Json)} {Post : List E → Option Json → T → Prop}

/-- What is asked of the command: from the tables it finds, it leaves a
content with `Post` in the transaction when it answers a success. -/
def Leaves (b : Backend T W E A) (tables : T) (apply : Server W E A (Option Json))
    (Post : List E → Option Json → T → Prop) : Prop :=
  ∀ w, On (Sound (· = tables)) w → ∀ r, (apply.run (handle b) w).1 = .ok r →
    succeeded r = true →
      On (Sound (Post (apply.trace (handle b) emitted w) r)) (apply.run (handle b) w).2

theorem ensures_applyFresh (ha : apply.Uses InCommand) (hleaves : Leaves b tables apply Post)
    (hfresh : ∀ effects r c, succeeded r = true → Post effects r c →
      L effects (b.insertReceipt c identity.actor identity.commandId
        ⟨identity.fingerprint, storedJson (withReceipt r identity.commandId)⟩)) :
    Ensures (handle b) (fun w => On (· = Tx.start tables) w ∧ Inside tables w)
      (applyFresh storedJson identity apply) (EndsWell L) := by
  have hcollect : Ensures (handle b) (fun w => On (· = Tx.start tables) w ∧ Inside tables w)
      (collect apply []) fun out w => ∃ applied effects, out = .ok (applied, effects) ∧
        (∀ r, applied = .ok r → succeeded r = true → On (Sound (Post effects r)) w) ∧
          Inside tables w := by
    intro w hw
    rw [run_collect ha [] w]
    refine ⟨_, _, rfl, ?_, ?_⟩
    · refine hleaves w (hw.1.mono ?_)
      rintro tx rfl -
      rfl
    · have hstep : ∀ (w : World T E) op, InCommand op → Inside tables w →
          Inside tables (handle b w op).2 := fun w op hop h => inside_inCommand hop h
      exact Prog.run_invariant hstep ha hw.2
  refine Prog.ensures_bind hcollect ?_ ?_
  · rintro ⟨applied, effects⟩
    cases applied with
    | error e =>
      refine Prog.ensures_fail fun w hw => ?_
      obtain ⟨-, -, -, -, hin⟩ := hw
      exact endsWell_error hin
    | ok r =>
      dsimp only
      by_cases hs : succeeded r = true
      · rw [if_pos hs]
        let receipt : Receipt :=
          ⟨identity.fingerprint, storedJson (withReceipt r identity.commandId)⟩
        have hinsert := ensures_inside (b := b) tables
          (.insertReceipt identity.actor identity.commandId receipt) trivial
          (ensures_insertReceipt receipt (P := Post effects r))
        refine Prog.ensures_bind (hinsert.mono ?_ fun _ _ h => h) ?_ ?_
        · rintro w ⟨_, _, he, hpost, hin⟩
          cases he
          exact ⟨hpost r rfl hs, hin⟩
        · intro a
          refine Prog.ensures_bind (ensures_commit (K := L effects) ?_) ?_ ?_
          · intro tx htx
            obtain ⟨hab, c, hc, hcontent⟩ := htx a rfl
            rw [if_neg (by simp [hab]), hcontent]
            exact hfresh effects r c hs hc
          · exact fun a => Prog.ensures_ret fun w hw => ⟨hw.mono fun _ => ⟨a, rfl⟩, by simp⟩
          · exact fun e w hw => endsWell_failed hw (by simp)
        · exact fun e w hw => endsWell_error hw.2
      · rw [if_neg hs]
        have hs' : succeeded r = false := by simpa using hs
        have hrollback : Ensures (handle b) (fun w => Inside tables w)
            (query (E := E) .command .rollback) fun _ w => Settled (L effects) False w := by
          refine Prog.ensures_perform fun w hw => ?_
          exact Settled.query trivial (hw.settled not_false)
        refine Prog.ensures_bind (hrollback.mono ?_ fun _ _ h => h) (fun a => ?_) ?_
        · rintro w ⟨_, _, he, -, hin⟩
          exact hin
        · split_ifs
          · exact Prog.ensures_fail fun w hw => endsWell_failed hw not_false
          · refine Prog.ensures_ret fun w hw => ⟨?_, ?_⟩
            · exact (hw.imp fun _ hl => ⟨effects, hl⟩).mono (by simp)
            · intro r' h
              cases h
              exact hs'
        · exact fun e w hw => endsWell_failed hw not_false
  · rintro e w ⟨_, _, he, -⟩
    cases he

/-- The command's transaction is open and has done nothing yet. -/
def Fresh (tables : T) (w : World T E) : Prop :=
  w.command = .inTx (Tx.start tables) ∧ Inside tables w

theorem Fresh.on {w : World T E} (h : Fresh tables w) :
    On (· = Tx.start tables) w ∧ Inside tables w :=
  ⟨Or.inr ⟨_, h.1, rfl⟩, h.2⟩

/-- `BEGIN` opens a transaction on the tables. -/
theorem ensures_begin :
    Ensures (handle b) (fun w => Untouched tables w ∧ w.command = .idle ∧ w.commitLost = false)
      (query (E := E) .command .begin) fun out w => match out with
        | .ok _ => Fresh tables w
        | .error _ => w.commitLost = false := by
  refine Prog.ensures_perform fun w hw => ?_
  obtain ⟨hu, hs, hl⟩ := hw
  have hsame := sameTables_query (b := b) (w := w) (c := .command) .begin trivial
  cases hr : handle b w (.query .command .begin) with
  | mk r w' =>
    rw [hr] at hsame
    have hl' : w'.commitLost = false := hsame.commitLost.trans hl
    cases r with
    | ok a =>
      obtain ⟨hu', hs'⟩ := answered_begin hu (Or.inl hs) hr
      exact ⟨hs', hu', Or.inr ⟨_, hs', trivial⟩, hl'⟩
    | error e => exact hl'

/-- A statement that only reads leaves a fresh transaction as it is. -/
theorem ensures_read (sql : Sql W) (hsql : Stays sql) {R : sql.Answer A → Prop}
    (hexec : ∀ (w : World T E) w' a, execInTx b w .command (Tx.start tables) sql = some (w', a) →
      w' = w ∧ R a) :
    Ensures (handle b) (Fresh tables) (query .command sql) fun out w => Inside tables w ∧
      ∀ a, out = .ok a → Fresh tables w ∧ R a := by
  refine Prog.ensures_perform fun w hw => ?_
  have hin := inside_query (b := b) hw.2 hsql
  refine ⟨hin, fun a ha => ?_⟩
  cases hr : handle b w (.query .command sql) with
  | mk r w' =>
    rw [hr] at hin ha
    cases ha
    have hx := execOn_of_answer hr
    have hsess : w.advance.session .command = .inTx (Tx.start tables) := hw.1
    simp only [execOn, hsess] at hx
    obtain ⟨rfl, hra⟩ := hexec _ _ _ hx
    exact ⟨⟨hw.1, hin⟩, hra⟩

theorem ensures_transact (ha : apply.Uses InCommand) (hleaves : Leaves b tables apply Post)
    (hreplay : b.selectReceipt tables identity.actor identity.commandId ≠ none → L [] tables)
    (hfresh : b.selectReceipt tables identity.actor identity.commandId = none →
      ∀ effects r c, succeeded r = true → Post effects r c →
        L effects (b.insertReceipt c identity.actor identity.commandId
          ⟨identity.fingerprint, storedJson (withReceipt r identity.commandId)⟩)) :
    Ensures (handle b) (fun w => Untouched tables w ∧ w.command = .idle ∧ w.commitLost = false)
      (transact storedJson identity apply) (EndsWell L) := by
  have hlock : Ensures (handle b) (Fresh tables)
      (query .command (.lock identity.actor identity.commandId)) fun out w => Inside tables w ∧
        ∀ a, out = .ok a → Fresh tables w ∧ True :=
    ensures_read _ (by trivial) (by
      intro w w' a hx
      simp only [execInTx] at hx
      split_ifs at hx
      cases hx
      exact ⟨rfl, trivial⟩)
  have hselect : Ensures (handle b) (Fresh tables)
      (query .command (.selectReceipt identity.actor identity.commandId)) fun out w =>
        Inside tables w ∧ ∀ a, out = .ok a → Fresh tables w ∧
          a = b.selectReceipt tables identity.actor identity.commandId :=
    ensures_read _ (by trivial) (by
      intro w w' a hx
      simp only [execInTx] at hx
      split_ifs at hx
      cases hx
      exact ⟨rfl, rfl⟩)
  refine Prog.ensures_bind ensures_begin (fun _ => ?_) ?_
  · refine Prog.ensures_bind hlock (fun _ => ?_) fun e w hw => endsWell_error hw.1
    refine Prog.ensures_bind (hselect.mono (fun w hw => (hw.2 _ rfl).1) fun _ _ h => h)
      (fun prior => ?_) fun e w hw => endsWell_error hw.1
    cases prior with
    | some receipt =>
      intro w hw
      obtain ⟨hfr, hra⟩ := hw.2 _ rfl
      exact ensures_replay receipt (hreplay (by rw [← hra]; exact Option.some_ne_none _)) w hfr.on
    | none =>
      intro w hw
      obtain ⟨hfr, hra⟩ := hw.2 _ rfl
      exact ensures_applyFresh ha hleaves (hfresh hra.symm) w hfr.on
  · intro e w hw
    refine ⟨?_, by simp⟩
    rintro - (h | h)
    · simp at h
    · rw [show w.commitLost = false from hw] at h
      cases h

theorem ensures_rollbackAndRethrow (error : Thrown) :
    Ensures (handle b) (Settled (fun t => ∃ effects, L effects t) False)
      (rollbackAndRethrow (E := E) error) (EndsWell L) := by
  have hrollback : Keeps (handle b) (Settled (fun t => ∃ effects, L effects t) False)
      (query (E := E) .command .rollback) :=
    Prog.ensures_perform fun w hw => Settled.query trivial hw
  have hguarded : Keeps (handle b) (Settled (fun t => ∃ effects, L effects t) False)
      ((query (E := E) .command .rollback).tryCatch fun _ => .ret ()) :=
    Prog.Keeps.tryCatch hrollback fun _ => Prog.keeps_ret ()
  refine Prog.ensures_bind hguarded (fun _ => Prog.ensures_fail ?_) ?_
  · exact fun w hw => ⟨hw.mono (by simp), by simp⟩
  · exact fun e w hw => ⟨hw.mono (by simp), by simp⟩

/-! ## The effects -/

/-- Awaits that start no effect. -/
def NoEffect : Await W E → Prop
  | .runEffect _ => False
  | _ => True

theorem effects_handle {w : World T E} {op : Await W E} (h : NoEffect op) :
    (handle b w op).2.effects = w.effects := by
  have hset : ∀ c (v : World T E) s, (v.setSession c s).effects = v.effects := by
    intro c v s
    cases c <;> rfl
  cases op with
  | query c sql =>
    exact Framed.handleQuery (f := World.effects) ⟨hset c, fun _ _ => rfl⟩ (fun _ _ => rfl)
      (fun _ _ => rfl) w.advance _ sql
  | connect c =>
    unfold handle
    cases w.faults.headD .none with
    | none => exact hset c _ _
    | _ => rfl
  | release c => exact hset c _ _
  | register effect => rfl
  | runEffect effect => exact h.elim

/-- A program that starts no effect leaves the list of effects alone. -/
theorem keeps_effects {α : Type} {p : Server W E A α} (hp : p.Uses NoEffect) (effects : List E) :
    Keeps (handle b) (·.effects = effects) p := by
  have hstep : ∀ (w : World T E) op, NoEffect op → w.effects = effects →
      (handle b w op).2.effects = effects := fun w op hop hw => (effects_handle hop).trans hw
  exact fun w hw => Prog.run_invariant hstep hp hw

/-- The transaction of a command starts no effect. -/
theorem uses_transaction (ha : apply.Uses InCommand) :
    (Prog.tryFinally ((transact storedJson identity apply).tryCatch rollbackAndRethrow)
      (perform (.release .command))).Uses NoEffect := by
  have hq : ∀ (sql : Sql W), (query (E := E) (A := A) .command sql).Uses NoEffect :=
    fun sql => Prog.uses_perform trivial
  have hreplay : ∀ receipt, (replay (W := W) (E := E) (A := A) identity receipt).Uses NoEffect := by
    intro receipt
    unfold replay
    split_ifs
    · trivial
    · exact Prog.uses_bind (hq _) fun _ => trivial
  have hfresh : (applyFresh storedJson identity apply).Uses NoEffect := by
    refine Prog.uses_bind ((collect_inCommand ha []).mono fun op hop => ?_) fun applied => ?_
    · cases op with
      | runEffect effect => exact hop.elim
      | _ => trivial
    · obtain ⟨out, effects⟩ := applied
      cases out with
      | error e => trivial
      | ok result =>
        dsimp only
        by_cases hs : succeeded result = true
        · rw [if_pos hs]
          exact Prog.uses_bind (hq _) fun _ => Prog.uses_bind (hq _) fun _ => trivial
        · rw [if_neg hs]
          refine Prog.uses_bind (hq _) fun _ => ?_
          by_cases ht : truthy (chain result "retryable") = true
          · rw [if_pos ht]
            trivial
          · rw [if_neg ht]
            trivial
  have htransact : (transact storedJson identity apply).Uses NoEffect := by
    refine Prog.uses_bind (hq _) fun _ => Prog.uses_bind (hq _) fun _ =>
      Prog.uses_bind (hq _) fun prior => ?_
    cases prior with
    | none => exact hfresh
    | some receipt => exact hreplay receipt
  have hrollback : ∀ e, (rollbackAndRethrow (W := W) (E := E) (A := A) e).Uses NoEffect := fun e =>
    Prog.uses_bind (Prog.uses_tryCatch (hq _) fun _ => trivial) fun _ => trivial
  refine Prog.uses_attempt (Prog.uses_tryCatch htransact hrollback) fun out => ?_
  exact Prog.uses_bind (Prog.uses_perform trivial) fun _ => Prog.uses_settled out

/-- Running an effect keeps what the committed tables satisfy. -/
theorem ensures_runEffect (heffect : ∀ e t, K t → K (b.effect e t)) (effect : E) (done : List E) :
    Ensures (handle b) (fun w => w.effects = done ∧ Settled K True w) (runEffect (A := A) effect)
      fun out w => out = .ok () ∧ w.effects = done ++ [effect] ∧ Settled K True w := by
  refine Prog.ensures_tryCatch
    (R := fun _ w => w.effects = done ++ [effect] ∧ Settled K True w)
    (Prog.ensures_perform fun w hw => ⟨?_, fun hflag _ => ?_⟩) (fun _ _ h => ⟨rfl, h⟩)
    fun _ => Prog.ensures_ret fun _ h => ⟨rfl, h⟩
  · rw [← hw.1]
    unfold handle
    cases w.faults.headD .none <;> rfl
  · have hflag' : w.savepointRefused = false := by
      revert hflag
      unfold handle
      cases w.faults.headD .none <;> exact id
    have hk : K w.tables := hw.2 hflag' (Or.inl trivial)
    unfold handle
    cases w.faults.headD .none with
    | none => exact heffect _ _ hk
    | lostAfter => exact heffect _ _ hk
    | _ => exact hk

/-- So does running them all, one after the other. -/
theorem ensures_runEffects (heffect : ∀ e t, K t → K (b.effect e t)) (effects done : List E) :
    Ensures (handle b) (fun w => w.effects = done ∧ Settled K True w)
      (Prog.forEach effects (runEffect (A := A)))
      fun out w => out = .ok () ∧ w.effects = done ++ effects ∧ Settled K True w := by
  induction effects generalizing done with
  | nil => exact Prog.ensures_ret fun w hw => ⟨rfl, by simpa using hw.1, hw.2⟩
  | cons effect rest ih =>
    refine Prog.ensures_bind (ensures_runEffect heffect effect done) (fun _ => ?_) ?_
    · refine (ih (done ++ [effect])).mono (fun w hw => hw.2) fun out w hw => ⟨hw.1, ?_, hw.2.2⟩
      rw [hw.2.1, List.append_assoc]
      rfl
    · rintro e w ⟨h, -⟩
      cases h

/-- A command that has answered a success has committed with the effects it
started, and one whose commit lost its answer has committed with some. -/
theorem committed_tables {payload : Json} (hid : identityOf payload = some identity)
    (ha : apply.Uses InCommand) (hleaves : Leaves b tables apply Post)
    (hreplay : b.selectReceipt tables identity.actor identity.commandId ≠ none → L [] tables)
    (hfresh : b.selectReceipt tables identity.actor identity.commandId = none →
      ∀ effects r c, succeeded r = true → Post effects r c →
        L effects (b.insertReceipt c identity.actor identity.commandId
          ⟨identity.fingerprint, storedJson (withReceipt r identity.commandId)⟩))
    (heffect : ∀ effects e t, L effects t → L effects (b.effect e t)) (faults : List Fault) :
    let r := (execute storedJson payload apply).run (handle b) (World.start tables faults)
    r.2.savepointRefused = false →
      ((∃ answer, r.1 = .ok answer ∧ succeeded answer = true) → L r.2.effects r.2.tables) ∧
      (r.2.commitLost = true → ∃ effects, L effects r.2.tables) := by
  let P₀ : World T E → Prop := fun w => Untouched tables w ∧ w.commitLost = false
  let P₁ : World T E → Prop := fun w => Untouched tables w ∧ w.command = .idle ∧
    w.commitLost = false
  let Q : Except Thrown (Option Json) → World T E → Prop := fun out w =>
    w.savepointRefused = false →
      ((∃ answer, out = .ok answer ∧ succeeded answer = true) → L w.effects w.tables) ∧
      (w.commitLost = true → ∃ effects, L effects w.tables)
  have hexec : Ensures (handle b) (fun w => P₀ w ∧ w.effects = [])
      (execute storedJson payload apply) Q := by
    have hconnect : Ensures (handle b) (fun w => P₀ w ∧ w.effects = [])
        (perform (.connect .command) : Server W E A Unit) fun out w =>
          (∀ a, out = .ok a → P₁ w ∧ w.effects = []) ∧ w.commitLost = false := by
      refine Prog.ensures_perform fun w hw => ?_
      obtain ⟨⟨hu, hl⟩, he⟩ := hw
      unfold handle
      cases w.faults.headD .none with
      | none =>
        have hsame := (sameTables_advance w).trans (sameTables_setSession w.advance .command .idle)
        exact ⟨fun _ _ => ⟨⟨hsame.untouched hu, rfl, hl⟩, he⟩, hl⟩
      | _ => exact ⟨fun a h => (by cases h), hl⟩
    have hguarded : Ensures (handle b) P₁
        ((transact storedJson identity apply).tryCatch rollbackAndRethrow) (EndsWell L) := by
      refine Prog.ensures_tryCatch (ensures_transact ha hleaves hreplay hfresh) (fun _ _ h => h)
        fun e => (ensures_rollbackAndRethrow e).mono (fun w hw => ?_) fun _ _ h => h
      exact (hw.1.imp fun t ht => ht).mono False.elim
    have hended : Ensures (handle b) P₁
        (Prog.tryFinally ((transact storedJson identity apply).tryCatch rollbackAndRethrow)
          (perform (.release .command))) (EndsWell L) := by
      refine Prog.ensures_attempt hguarded fun out => ?_
      refine Prog.ensures_bind (R := fun r w => r = .ok () ∧ EndsWell L out w)
        (Prog.ensures_perform fun w hw => ⟨rfl, hw⟩) (fun _ => ?_) ?_
      · cases out with
        | ok ended => exact Prog.ensures_ret fun w hw => hw.2
        | error e => exact Prog.ensures_fail fun w hw => hw.2
      · rintro e w ⟨h, -⟩
        cases h
    have hquiet : Ensures (handle b) (fun w => P₁ w ∧ w.effects = [])
        (Prog.tryFinally ((transact storedJson identity apply).tryCatch rollbackAndRethrow)
          (perform (.release .command))) fun out w => EndsWell L out w ∧ w.effects = [] :=
      fun w hw => ⟨hended w hw.1, keeps_effects (uses_transaction ha) [] w hw.2⟩
    unfold execute
    simp only [hid]
    refine Prog.ensures_bind hconnect (fun _ => ?_) ?_
    · refine Prog.ensures_bind (hquiet.mono (fun w hw => hw.1 _ rfl) fun _ _ h => h) ?_ ?_
      · intro ended
        cases ended with
        | rolledBack result =>
          refine Prog.ensures_ret fun w hw hflag => ⟨?_, fun hl => ?_⟩
          · rintro ⟨answer, h, hs⟩
            cases h
            rw [hw.1.2 _ rfl] at hs
            cases hs
          · exact hw.1.1 hflag (Or.inr hl)
        | committed result effects =>
          refine Prog.ensures_bind ((ensures_runEffects (heffect effects) effects []).mono
            (fun w hw => ⟨hw.2, ?_⟩) fun _ _ h => h) (fun _ => Prog.ensures_ret ?_) ?_
          · exact hw.1.1.mono fun _ => ⟨result, effects, rfl⟩
          · rintro w ⟨-, he, hsettled⟩ hflag
            rw [List.nil_append] at he
            have hl : L effects w.tables := hsettled hflag (Or.inl trivial)
            exact ⟨fun _ => he ▸ hl, fun _ => ⟨effects, hl⟩⟩
          · rintro e w ⟨h, -⟩
            cases h
      · rintro e w ⟨hw, -⟩ hflag
        refine ⟨?_, fun hl => hw.1 hflag (Or.inr hl)⟩
        rintro ⟨answer, h, -⟩
        cases h
    · rintro e w ⟨-, hl⟩ -
      refine ⟨?_, fun h => ?_⟩
      · rintro ⟨answer, h, -⟩
        cases h
      · rw [hl] at h
        cases h
  exact hexec _ ⟨⟨⟨rfl, rfl⟩, rfl⟩, rfl⟩

end Commit

end FactoryServer.CommandCommit
