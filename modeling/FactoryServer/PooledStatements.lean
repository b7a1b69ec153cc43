import FactoryServer.CommandAtomicity

/-!
# Code without a command

Pre- and postconditions of code that runs outside a durable command. Each
statement on a pooled connection is its own transaction, so a property of the
tables moves with every statement; a transaction on a connection of its own
changes them once, by its commit. An error may hide a statement that was
executed, if answers can be lost.
-/

namespace FactoryServer.PooledStatements

open AsyncProgram SqlTransaction CommandTransaction CommandSession CommandAtomicity
open AsyncProgram.Prog (Ensures Keeps)

variable {T W E : Type} {A : W → Type} {b : Backend T W E A}

/-- No connection is open, the tables satisfy `P`, and answers are lost only if `loss`. -/
structure Idle (loss : Prop) (P : T → Prop) (w : World T E) : Prop where
  command : w.command = .closed
  own : w.own = .closed
  answers : Fault.lostAfter ∈ w.faults → loss
  tables : P w.tables

variable {loss : Prop} {P Q : T → Prop}

theorem Idle.mono {w : World T E} (h : Idle loss P w) (hPQ : ∀ t, P t → Q t) : Idle loss Q w :=
  ⟨h.command, h.own, h.answers, hPQ _ h.tables⟩

/-- An await uses up a fault and adds none. -/
theorem answers_handle {w : World T E} (h : Fault.lostAfter ∈ w.faults → loss) (op : Await W E) :
    Fault.lostAfter ∈ (handle b w op).2.faults → loss := by
  rw [faults_handle]
  exact fun hm => h (List.mem_of_mem_tail hm)

/-- A fault that is met was to come. -/
theorem lostAfter_mem {w : World T E} (h : w.faults.headD .none = .lostAfter) :
    Fault.lostAfter ∈ w.faults := by
  cases hf : w.faults with
  | nil => rw [hf] at h; cases h
  | cons fault rest =>
    rw [hf] at h
    exact h ▸ List.mem_cons_self

/-- After a statement on a pooled connection: an answer tells that it was
executed, an error that it was not, unless the answer was lost. -/
def Executed (loss : Prop) (P : T → Prop) {α : Type} (R : α → T → Prop) : Except Thrown α → T → Prop
  | .ok a => R a
  | .error _ => fun t => P t ∨ (loss ∧ ∃ a, R a t)

/-- The rule of a data statement on a pooled connection. -/
theorem ensures_pool (st : W) {R : A st → T → Prop}
    (h : ∀ t, P t → R (b.exec st t).2 (b.exec st t).1) :
    Ensures (handle b) (Idle loss P) (query .pool (.data st)) fun out =>
      Idle loss (Executed loss P R out) := by
  refine Prog.ensures_perform fun w hw => ?_
  have hans := answers_handle (b := b) hw.answers (.query .pool (.data st))
  have hrun : execOn b w.advance .pool (.data st) =
      some (w.advance.setTables (b.exec st w.tables).1, (b.exec st w.tables).2) := rfl
  revert hans
  rw [handle_query]
  cases hfault : w.faults.headD .none with
  | none =>
    simp only [handleQuery, hrun]
    exact fun hans => ⟨hw.command, hw.own, hans, h _ hw.tables⟩
  | refused => exact fun hans => ⟨hw.command, hw.own, hans, Or.inl hw.tables⟩
  | lostBefore => exact fun hans => ⟨hw.command, hw.own, hans, Or.inl hw.tables⟩
  | lostAfter =>
    simp only [handleQuery, hrun]
    exact fun hans => ⟨hw.command, hw.own, hans,
      Or.inr ⟨hw.answers (lostAfter_mem hfault), _, h _ hw.tables⟩⟩

/-- A data statement that keeps `P`. -/
theorem keeps_pool (st : W) (h : ∀ t, P t → P (b.exec st t).1) :
    Keeps (handle b) (Idle loss P) (query .pool (.data st)) := by
  refine (ensures_pool (b := b) st (R := fun _ => P) h).mono (fun _ h => h) fun out w hw => ?_
  cases out with
  | ok a => exact hw
  | error e => exact hw.mono fun t ht => ht.elim id fun h => h.2.elim fun _ h => h

/-- An effect that runs at once. -/
theorem keeps_runEffect (effect : E) (h : ∀ t, P t → P (b.effect effect t)) :
    Keeps (handle b) (Idle loss P) (perform (.runEffect effect) : Server W E A Unit) := by
  refine Prog.keeps_perform fun w hw => ?_
  have hans := answers_handle (b := b) hw.answers (.runEffect effect)
  revert hans
  unfold handle
  cases w.faults.headD .none with
  | none => exact fun hans => ⟨hw.command, hw.own, hans, h _ hw.tables⟩
  | lostAfter => exact fun hans => ⟨hw.command, hw.own, hans, h _ hw.tables⟩
  | _ => exact fun hans => ⟨hw.command, hw.own, hans, hw.tables⟩

/-! ## Transactions of a storage class -/

/-- Awaits that stay off the command's connection and keep `P`. -/
def Aside (b : Backend T W E A) (P : T → Prop) (op : Await W E) : Prop :=
  Keeping b P op ∧ match op with
    | .connect c => c ≠ .command
    | .query c _ => c ≠ .command
    | .release c => c ≠ .command
    | _ => True

/-- What holds while a connection of its own may be open. -/
structure Working (loss : Prop) (P : T → Prop) (w : World T E) : Prop where
  command : w.command = .closed
  answers : Fault.lostAfter ∈ w.faults → loss
  all : w.All P

theorem command_handle {w : World T E} {op : Await W E} (h : Aside b P op) :
    (handle b w op).2.command = w.command := by
  have hset : ∀ c, c ≠ .command → ∀ (v : World T E) s, (v.setSession c s).command = v.command := by
    intro c hc v s
    cases c <;> first | rfl | exact (hc rfl).elim
  cases op with
  | query c sql =>
    exact Framed.handleQuery (f := World.command) ⟨hset c h.2, fun _ _ => rfl⟩ (fun _ _ => rfl)
      (fun _ _ => rfl) w.advance _ sql
  | connect c =>
    unfold handle
    cases w.faults.headD .none with
    | none => exact hset c h.2 _ _
    | _ => rfl
  | release c => exact hset c h.2 _ _
  | register effect => rfl
  | runEffect effect =>
    unfold handle
    cases w.faults.headD .none <;> rfl

/-- A program of such awaits keeps what holds meanwhile. -/
theorem keeps_working {α : Type} {p : Server W E A α} (hp : p.Uses (Aside b P)) :
    Keeps (handle b) (Working loss P) p := by
  have hstep : ∀ (w : World T E) op, Aside b P op → Working loss P w →
      Working loss P (handle b w op).2 := fun w op hop h =>
    ⟨(command_handle hop).trans h.command, answers_handle h.answers op, h.all.handle hop.1⟩
  exact fun w hw => Prog.run_invariant hstep hp hw

theorem Idle.working {w : World T E} (h : Idle loss P w) : Working loss P w :=
  ⟨h.command, h.answers, h.tables, fun tx ht => (by rw [h.command] at ht; cases ht),
    fun tx ht => (by rw [h.own] at ht; cases ht)⟩

/-- Work between checking a connection out and in again. -/
theorem keeps_checkedOut {work : Server W E A Unit} (h : work.Uses (Aside b P)) :
    Keeps (handle b) (Idle loss P) ((perform (.connect .own)).bind fun _ =>
      Prog.tryFinally work (perform (.release .own))) := by
  have hconnect : Ensures (handle b) (Idle loss P) (perform (.connect .own) : Server W E A Unit)
      fun out w => Working loss P w ∧ (out.isOk = false → Idle loss P w) := by
    refine Prog.ensures_perform fun w hw => ?_
    have hop : Aside b P (.connect .own : Await W E) := ⟨trivial, by simp⟩
    have hworking : Working loss P (handle b w (.connect .own)).2 :=
      ⟨(command_handle hop).trans hw.command, answers_handle hw.answers _,
        hw.working.all.handle hop.1⟩
    refine ⟨hworking, ?_⟩
    have hans := hworking.answers
    revert hans
    unfold handle
    cases w.faults.headD .none with
    | none => exact fun _ h => by cases h
    | _ => exact fun hans _ => ⟨hw.command, hw.own, hans, hw.tables⟩
  have hrelease : Ensures (handle b) (Working loss P) (perform (.release .own) : Server W E A Unit)
      fun _ => Idle loss P := by
    refine Prog.ensures_perform fun w hw => ?_
    exact ⟨hw.command, rfl, answers_handle hw.answers (.release .own), hw.all.1⟩
  refine Prog.ensures_bind hconnect (fun _ => ?_) fun e w hw => hw.2 rfl
  have hwork : Keeps (handle b) (Working loss P) work := keeps_working h
  refine Prog.ensures_attempt (hwork.mono (fun w hw => hw.1) fun _ _ h => h) fun out => ?_
  exact Prog.ensures_bind hrelease (fun _ => Prog.ensures_settled fun w hw => hw) fun e w hw => hw

end FactoryServer.PooledStatements
