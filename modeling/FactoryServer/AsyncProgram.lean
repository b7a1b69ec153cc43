import Mathlib.Logic.Function.Basic
import Mathlib.Logic.Relation

/-!
# Asynchronous programs

An asynchronous function runs without interruption from one `await` to the
next. `Prog` is its tree: at each await it issues an operation, and the
continuation receives the answer or the rejection. One program has two
semantics. `run` executes it alone against a handler. `System` interleaves
any number of programs over a shared state. Both come with the rules their
proofs use: invariants for the former, ghost protocols for the latter.
-/

namespace FactoryServer.AsyncProgram

/-- A program over operations `Op` with typed answers, rejections `ε` and result `α`. -/
inductive Prog (Op : Type) (Ans : Op → Type) (ε α : Type) where
  /-- Return a value. -/
  | ret (value : α)
  /-- Throw. -/
  | fail (error : ε)
  /-- Await the answer or the rejection of an operation. -/
  | await (op : Op) (k : Except ε (Ans op) → Prog Op Ans ε α)

variable {Op : Type} {Ans : Op → Type} {ε α β : Type}

namespace Prog

/-- Sequencing: an exception skips the rest. -/
def bind : Prog Op Ans ε α → (α → Prog Op Ans ε β) → Prog Op Ans ε β
  | ret a, f => f a
  | fail e, _ => fail e
  | await op k, f => await op fun r => (k r).bind f

/-- `try p catch (e) handler`, as a function of the error. -/
def tryCatch : Prog Op Ans ε α → (ε → Prog Op Ans ε α) → Prog Op Ans ε α
  | ret a, _ => ret a
  | fail e, handler => handler e
  | await op k, handler => await op fun r => (k r).tryCatch handler

/-- Continue with the outcome, whichever it is. -/
def attempt : Prog Op Ans ε α → (Except ε α → Prog Op Ans ε β) → Prog Op Ans ε β
  | ret a, f => f (.ok a)
  | fail e, f => f (.error e)
  | await op k, f => await op fun r => (k r).attempt f

/-- A settled outcome as a program. -/
def settled : Except ε α → Prog Op Ans ε α
  | .ok a => ret a
  | .error e => fail e

/-- One awaited operation: its rejection is thrown. -/
def perform (op : Op) : Prog Op Ans ε (Ans op) := await op settled

/-- `try p finally cleanup`: an exception of the cleanup replaces the outcome. -/
def tryFinally (p : Prog Op Ans ε α) (cleanup : Prog Op Ans ε Unit) : Prog Op Ans ε α :=
  p.attempt fun out => cleanup.bind fun _ => settled out

instance : Monad (Prog Op Ans ε) where
  pure := ret
  bind := bind

/-- A loop over a list that carries a state, one body after the other. -/
def forEach {γ : Type} : List γ → (γ → Prog Op Ans ε Unit) → Prog Op Ans ε Unit
  | [], _ => ret ()
  | x :: rest, body => (body x).bind fun _ => forEach rest body

@[simp] theorem pure_eq (a : α) : (pure a : Prog Op Ans ε α) = ret a := rfl

@[simp] theorem bind_eq (p : Prog Op Ans ε α) (f : α → Prog Op Ans ε β) :
    p >>= f = p.bind f := rfl

@[simp] theorem ret_bind (a : α) (f : α → Prog Op Ans ε β) : (ret a).bind f = f a := rfl

@[simp] theorem fail_bind (e : ε) (f : α → Prog Op Ans ε β) :
    (fail e : Prog Op Ans ε α).bind f = fail e := rfl

@[simp] theorem await_bind (op : Op) (k : Except ε (Ans op) → Prog Op Ans ε α)
    (f : α → Prog Op Ans ε β) : (await op k).bind f = await op fun r => (k r).bind f := rfl

@[simp] theorem settled_ok (a : α) : (settled (.ok a) : Prog Op Ans ε α) = ret a := rfl

@[simp] theorem settled_error (e : ε) : (settled (.error e) : Prog Op Ans ε α) = fail e := rfl

/-! ## Running alone -/

section Run

variable {σ : Type}

/-- Run a program against a handler that answers operations and keeps a state. -/
def run (handle : σ → (op : Op) → Except ε (Ans op) × σ) :
    Prog Op Ans ε α → σ → Except ε α × σ
  | ret a, s => (.ok a, s)
  | fail e, s => (.error e, s)
  | await op k, s => (k (handle s op).1).run handle (handle s op).2

variable (handle : σ → (op : Op) → Except ε (Ans op) × σ)

@[simp] theorem run_ret (a : α) (s : σ) : (ret a : Prog Op Ans ε α).run handle s = (.ok a, s) := rfl

@[simp] theorem run_fail (e : ε) (s : σ) :
    (fail e : Prog Op Ans ε α).run handle s = (.error e, s) := rfl

@[simp] theorem run_await (op : Op) (k : Except ε (Ans op) → Prog Op Ans ε α) (s : σ) :
    (await op k).run handle s = (k (handle s op).1).run handle (handle s op).2 := rfl

@[simp] theorem run_perform (op : Op) (s : σ) :
    (perform op : Prog Op Ans ε (Ans op)).run handle s = handle s op := by
  unfold perform
  rw [run_await]
  cases h : handle s op with
  | mk r s' => cases r <;> rfl

theorem run_bind (p : Prog Op Ans ε α) (f : α → Prog Op Ans ε β) (s : σ) :
    (p.bind f).run handle s =
      match p.run handle s with
      | (.ok a, s') => (f a).run handle s'
      | (.error e, s') => (.error e, s') := by
  induction p generalizing s with
  | ret a => rfl
  | fail e => rfl
  | await op k ih => exact ih (handle s op).1 (handle s op).2

theorem run_tryCatch (p : Prog Op Ans ε α) (handler : ε → Prog Op Ans ε α) (s : σ) :
    (p.tryCatch handler).run handle s =
      match p.run handle s with
      | (.ok a, s') => (.ok a, s')
      | (.error e, s') => (handler e).run handle s' := by
  induction p generalizing s with
  | ret a => rfl
  | fail e => rfl
  | await op k ih => exact ih (handle s op).1 (handle s op).2

theorem run_attempt (p : Prog Op Ans ε α) (f : Except ε α → Prog Op Ans ε β) (s : σ) :
    (p.attempt f).run handle s = (f (p.run handle s).1).run handle (p.run handle s).2 := by
  induction p generalizing s with
  | ret a => rfl
  | fail e => rfl
  | await op k ih => exact ih (handle s op).1 (handle s op).2

/-! ## Pre- and postconditions -/

/-- From every state satisfying `P` the program ends with an outcome and a
state that satisfy `Q`. -/
def Ensures (P : σ → Prop) (p : Prog Op Ans ε α) (Q : Except ε α → σ → Prop) : Prop :=
  ∀ s, P s → Q (p.run handle s).1 (p.run handle s).2

/-- The program keeps `I`, whatever its outcome. -/
def Keeps (I : σ → Prop) (p : Prog Op Ans ε α) : Prop := Ensures handle I p fun _ => I

variable {handle}
variable {P P' : σ → Prop} {Q Q' : Except ε α → σ → Prop} {I : σ → Prop}

theorem ensures_ret {a : α} (h : ∀ s, P s → Q (.ok a) s) : Ensures handle P (ret a) Q := h

theorem ensures_fail {e : ε} (h : ∀ s, P s → Q (.error e) s) : Ensures handle P (fail e) Q := h

theorem ensures_settled {out : Except ε α} (h : ∀ s, P s → Q out s) :
    Ensures handle P (settled out) Q := by
  cases out with
  | ok a => exact ensures_ret h
  | error e => exact ensures_fail h

theorem ensures_perform {op : Op} {Q : Except ε (Ans op) → σ → Prop}
    (h : ∀ s, P s → Q (handle s op).1 (handle s op).2) : Ensures handle P (perform op) Q := by
  intro s hs
  rw [run_perform]
  exact h s hs

theorem Ensures.mono {p : Prog Op Ans ε α} (h : Ensures handle P p Q) (hP : ∀ s, P' s → P s)
    (hQ : ∀ out s, Q out s → Q' out s) : Ensures handle P' p Q' :=
  fun s hs => hQ _ _ (h s (hP s hs))

/-- A program that cannot throw returns. -/
theorem Ensures.returns {p : Prog Op Ans ε α} (h : Ensures handle P p Q) {s : σ} (hs : P s)
    (hno : ∀ e s', ¬ Q (.error e) s') :
    ∃ a s', p.run handle s = (.ok a, s') ∧ Q (.ok a) s' := by
  have hq := h s hs
  cases hrun : p.run handle s with
  | mk out s' =>
    rw [hrun] at hq
    cases out with
    | ok a => exact ⟨a, s', rfl, hq⟩
    | error e => exact (hno e s' hq).elim

/-- Sequencing: `R` holds between the two parts. -/
theorem ensures_bind {p : Prog Op Ans ε α} {f : α → Prog Op Ans ε β}
    {R : Except ε α → σ → Prop} {Q : Except ε β → σ → Prop} (hp : Ensures handle P p R)
    (hf : ∀ a, Ensures handle (R (.ok a)) (f a) Q) (he : ∀ e s, R (.error e) s → Q (.error e) s) :
    Ensures handle P (p.bind f) Q := by
  intro s hs
  have hr := hp s hs
  rw [run_bind]
  cases hrun : p.run handle s with
  | mk out s' =>
    rw [hrun] at hr
    cases out with
    | ok a => exact hf a s' hr
    | error e => exact he e s' hr

theorem ensures_tryCatch {p : Prog Op Ans ε α} {handler : ε → Prog Op Ans ε α}
    {R : Except ε α → σ → Prop} (hp : Ensures handle P p R)
    (hok : ∀ a s, R (.ok a) s → Q (.ok a) s)
    (hh : ∀ e, Ensures handle (R (.error e)) (handler e) Q) :
    Ensures handle P (p.tryCatch handler) Q := by
  intro s hs
  have hr := hp s hs
  rw [run_tryCatch]
  cases hrun : p.run handle s with
  | mk out s' =>
    rw [hrun] at hr
    cases out with
    | ok a => exact hok a s' hr
    | error e => exact hh e s' hr

theorem ensures_attempt {p : Prog Op Ans ε α} {f : Except ε α → Prog Op Ans ε β}
    {R : Except ε α → σ → Prop} {Q : Except ε β → σ → Prop} (hp : Ensures handle P p R)
    (hf : ∀ out, Ensures handle (R out) (f out) Q) : Ensures handle P (p.attempt f) Q := by
  intro s hs
  rw [run_attempt]
  exact hf _ _ (hp s hs)

theorem keeps_ret (a : α) : Keeps handle I (ret a) := fun _ hs => hs

theorem keeps_fail (e : ε) : Keeps (α := α) handle I (fail e) := fun _ hs => hs

theorem keeps_perform {op : Op} (h : ∀ s, I s → I (handle s op).2) :
    Keeps handle I (perform op : Prog Op Ans ε (Ans op)) :=
  ensures_perform h

theorem Keeps.bind {p : Prog Op Ans ε α} {f : α → Prog Op Ans ε β} (hp : Keeps handle I p)
    (hf : ∀ a, Keeps handle I (f a)) : Keeps handle I (p.bind f) :=
  ensures_bind hp hf fun _ _ h => h

theorem Keeps.tryCatch {p : Prog Op Ans ε α} {handler : ε → Prog Op Ans ε α}
    (hp : Keeps handle I p) (hh : ∀ e, Keeps handle I (handler e)) :
    Keeps handle I (p.tryCatch handler) :=
  ensures_tryCatch hp (fun _ _ h => h) hh

theorem Keeps.forEach {γ : Type} {items : List γ} {body : γ → Prog Op Ans ε Unit}
    (h : ∀ x ∈ items, Keeps handle I (body x)) : Keeps handle I (forEach items body) := by
  induction items with
  | nil => exact keeps_ret ()
  | cons x rest ih =>
    exact (h x List.mem_cons_self).bind fun _ => ih fun y hy => h y (List.mem_cons_of_mem x hy)

end Run

/-! ## The operations a program may issue -/

/-- Every operation the program can ever issue satisfies `allowed`. -/
def Uses (allowed : Op → Prop) : Prog Op Ans ε α → Prop
  | ret _ => True
  | fail _ => True
  | await op k => allowed op ∧ ∀ r, (k r).Uses allowed

section Uses

variable {allowed : Op → Prop}

@[simp] theorem uses_ret (a : α) : (ret a : Prog Op Ans ε α).Uses allowed := trivial

@[simp] theorem uses_fail (e : ε) : (fail e : Prog Op Ans ε α).Uses allowed := trivial

theorem uses_settled (out : Except ε α) : (settled out : Prog Op Ans ε α).Uses allowed := by
  cases out <;> trivial

theorem uses_perform {op : Op} (h : allowed op) :
    (perform op : Prog Op Ans ε (Ans op)).Uses allowed :=
  ⟨h, uses_settled⟩

theorem uses_bind {p : Prog Op Ans ε α} {f : α → Prog Op Ans ε β} (hp : p.Uses allowed)
    (hf : ∀ a, (f a).Uses allowed) : (p.bind f).Uses allowed := by
  induction p with
  | ret a => exact hf a
  | fail e => trivial
  | await op k ih => exact ⟨hp.1, fun r => ih r (hp.2 r)⟩

theorem uses_tryCatch {p : Prog Op Ans ε α} {handler : ε → Prog Op Ans ε α}
    (hp : p.Uses allowed) (hh : ∀ e, (handler e).Uses allowed) :
    (p.tryCatch handler).Uses allowed := by
  induction p with
  | ret a => trivial
  | fail e => exact hh e
  | await op k ih => exact ⟨hp.1, fun r => ih r (hp.2 r)⟩

theorem uses_attempt {p : Prog Op Ans ε α} {f : Except ε α → Prog Op Ans ε β}
    (hp : p.Uses allowed) (hf : ∀ out, (f out).Uses allowed) : (p.attempt f).Uses allowed := by
  induction p with
  | ret a => exact hf (.ok a)
  | fail e => exact hf (.error e)
  | await op k ih => exact ⟨hp.1, fun r => ih r (hp.2 r)⟩

theorem uses_forEach {γ : Type} {items : List γ} {body : γ → Prog Op Ans ε Unit}
    (h : ∀ x, (body x).Uses allowed) : (forEach items body).Uses allowed := by
  induction items with
  | nil => trivial
  | cons x rest ih => exact uses_bind (h x) fun _ => ih

theorem Uses.mono {allowed' : Op → Prop} {p : Prog Op Ans ε α} (hp : p.Uses allowed)
    (h : ∀ op, allowed op → allowed' op) : p.Uses allowed' := by
  induction p with
  | ret a => trivial
  | fail e => trivial
  | await op k ih => exact ⟨h op hp.1, fun r => ih r (hp.2 r)⟩

/-- What every allowed operation preserves, a whole run preserves. -/
theorem run_invariant {σ : Type} {handle : σ → (op : Op) → Except ε (Ans op) × σ}
    {I : σ → Prop} (hstep : ∀ s op, allowed op → I s → I (handle s op).2)
    {p : Prog Op Ans ε α} (hp : p.Uses allowed) {s : σ} (hs : I s) : I (p.run handle s).2 := by
  induction p generalizing s with
  | ret a => exact hs
  | fail e => exact hs
  | await op k ih => exact ih _ (hp.2 _) (hstep s op hp.1 hs)

end Uses

/-! ## What a run emits -/

section Trace

variable {σ Event : Type} (handle : σ → (op : Op) → Except ε (Ans op) × σ)
  (emit : Op → List Event)

/-- The events of the operations that a run issues, in their order. -/
def trace : Prog Op Ans ε α → σ → List Event
  | ret _, _ => []
  | fail _, _ => []
  | await op k, s => emit op ++ (k (handle s op).1).trace (handle s op).2

@[simp] theorem trace_ret (a : α) (s : σ) :
    (ret a : Prog Op Ans ε α).trace handle emit s = [] := rfl

@[simp] theorem trace_fail (e : ε) (s : σ) :
    (fail e : Prog Op Ans ε α).trace handle emit s = [] := rfl

@[simp] theorem trace_settled (out : Except ε α) (s : σ) :
    (settled out : Prog Op Ans ε α).trace handle emit s = [] := by
  cases out <;> rfl

@[simp] theorem trace_perform (op : Op) (s : σ) :
    (perform op : Prog Op Ans ε (Ans op)).trace handle emit s = emit op := by
  simp [perform, trace]

/-- A sequence emits what its parts emit. -/
theorem trace_bind (p : Prog Op Ans ε α) (f : α → Prog Op Ans ε β) (s : σ) :
    (p.bind f).trace handle emit s = p.trace handle emit s ++
      match p.run handle s with
      | (.ok a, s') => (f a).trace handle emit s'
      | (.error _, _) => [] := by
  induction p generalizing s with
  | ret a => rfl
  | fail e => rfl
  | await op k ih =>
    simp only [await_bind, trace, run_await, List.append_assoc]
    rw [ih]

/-- So does a guarded program. -/
theorem trace_tryCatch (p : Prog Op Ans ε α) (handler : ε → Prog Op Ans ε α) (s : σ) :
    (p.tryCatch handler).trace handle emit s = p.trace handle emit s ++
      match p.run handle s with
      | (.ok _, _) => []
      | (.error e, s') => (handler e).trace handle emit s' := by
  induction p generalizing s with
  | ret a => rfl
  | fail e => rfl
  | await op k ih =>
    simp only [tryCatch, trace, run_await, List.append_assoc]
    rw [ih]

variable {handle emit}

/-- A program whose operations emit nothing emits nothing. -/
theorem trace_eq_nil {allowed : Op → Prop} (h : ∀ op, allowed op → emit op = [])
    {p : Prog Op Ans ε α} (hp : p.Uses allowed) (s : σ) : p.trace handle emit s = [] := by
  induction p generalizing s with
  | ret a => rfl
  | fail e => rfl
  | await op k ih => rw [trace, h op hp.1, ih _ (hp.2 _), List.append_nil]

/-- A log of the state that every allowed operation extends by what it emits, a run
extends by its trace. -/
theorem log_run {allowed : Op → Prop} {log : σ → List Event}
    (h : ∀ s op, allowed op → log (handle s op).2 = log s ++ emit op)
    {p : Prog Op Ans ε α} (hp : p.Uses allowed) (s : σ) :
    log (p.run handle s).2 = log s ++ p.trace handle emit s := by
  induction p generalizing s with
  | ret a => simp
  | fail e => simp
  | await op k ih => rw [run_await, ih _ (hp.2 _), h s op hp.1, trace, List.append_assoc]

variable (handle emit)

/-- However it runs, the outcome of the program and what it emits satisfy `Q`. -/
def Emits (p : Prog Op Ans ε α) (Q : Except ε α → List Event → Prop) : Prop :=
  ∀ s, Q (p.run handle s).1 (p.trace handle emit s)

variable {handle emit} {Q : Except ε α → List Event → Prop}

theorem emits_ret {a : α} (h : Q (.ok a) []) : Emits handle emit (ret a) Q := fun _ => h

theorem emits_fail {e : ε} (h : Q (.error e) []) : Emits handle emit (fail e) Q := fun _ => h

theorem emits_perform {op : Op} {Q : Except ε (Ans op) → List Event → Prop}
    (h : ∀ out, Q out (emit op)) : Emits handle emit (perform op) Q := by
  intro s
  rw [trace_perform]
  exact h _

theorem Emits.mono {Q' : Except ε α → List Event → Prop} {p : Prog Op Ans ε α}
    (h : Emits handle emit p Q) (hQ : ∀ out es, Q out es → Q' out es) : Emits handle emit p Q' :=
  fun s => hQ _ _ (h s)

/-- Sequencing: the second part adds to what the first has emitted. -/
theorem emits_bind {p : Prog Op Ans ε α} {f : α → Prog Op Ans ε β}
    {Q' : Except ε β → List Event → Prop} (hp : Emits handle emit p Q)
    (hf : ∀ a es, Q (.ok a) es → Emits handle emit (f a) fun out es' => Q' out (es ++ es'))
    (he : ∀ e es, Q (.error e) es → Q' (.error e) es) : Emits handle emit (p.bind f) Q' := by
  intro s
  have hq := hp s
  rw [trace_bind, run_bind]
  cases hr : p.run handle s with
  | mk out s' =>
    rw [hr] at hq
    cases out with
    | ok a => exact hf a _ hq s'
    | error e => simpa using he e _ hq

theorem emits_tryCatch {p : Prog Op Ans ε α} {handler : ε → Prog Op Ans ε α}
    {Q' : Except ε α → List Event → Prop} (hp : Emits handle emit p Q)
    (hok : ∀ a es, Q (.ok a) es → Q' (.ok a) es)
    (hh : ∀ e es, Q (.error e) es →
      Emits handle emit (handler e) fun out es' => Q' out (es ++ es')) :
    Emits handle emit (p.tryCatch handler) Q' := by
  intro s
  have hq := hp s
  rw [trace_tryCatch, run_tryCatch]
  cases hr : p.run handle s with
  | mk out s' =>
    rw [hr] at hq
    cases out with
    | ok a => simpa using hok a _ hq
    | error e => exact hh e _ hq s'

/-- A loop whose bodies emit one event each and never throw. -/
theorem emits_forEach {γ : Type} {body : γ → Prog Op Ans ε Unit} {event : γ → Event}
    (h : ∀ x, Emits handle emit (body x) fun out es => out = .ok () ∧ es = [event x])
    (items : List γ) :
    Emits handle emit (forEach items body) fun out es => out = .ok () ∧ es = items.map event := by
  induction items with
  | nil => exact emits_ret ⟨rfl, rfl⟩
  | cons x rest ih =>
    refine emits_bind (h x) (fun _ es hx => ih.mono fun out es' hrest => ⟨hrest.1, ?_⟩) ?_
    · rw [hx.2, hrest.2]
      rfl
    · rintro e es ⟨hx, -⟩
      cases hx

end Trace

/-! ## What a run asks and is told -/

section Transcript

variable {σ : Type} (handle : σ → (op : Op) → Except ε (Ans op) × σ)

/-- An operation with its answer or rejection. -/
abbrev Exchange (Op : Type) (Ans : Op → Type) (ε : Type) : Type := Σ op : Op, Except ε (Ans op)

/-- The operations that a run issues and how they are answered, in their order. -/
def transcript : Prog Op Ans ε α → σ → List (Exchange Op Ans ε)
  | ret _, _ => []
  | fail _, _ => []
  | await op k, s => ⟨op, (handle s op).1⟩ :: (k (handle s op).1).transcript (handle s op).2

variable {handle}

/-- A sequence asks what its parts ask. -/
theorem transcript_bind (p : Prog Op Ans ε α) (f : α → Prog Op Ans ε β) (s : σ) :
    (p.bind f).transcript handle s = p.transcript handle s ++
      match p.run handle s with
      | (.ok a, s') => (f a).transcript handle s'
      | (.error _, _) => [] := by
  induction p generalizing s with
  | ret a => rfl
  | fail e => rfl
  | await op k ih =>
    simp only [await_bind, transcript, run_await, List.cons_append]
    rw [ih]

theorem transcript_bind_ok {p : Prog Op Ans ε α} {f : α → Prog Op Ans ε β} {s s' : σ} {a : α}
    (h : p.run handle s = (.ok a, s')) :
    (p.bind f).transcript handle s = p.transcript handle s ++ (f a).transcript handle s' := by
  rw [transcript_bind, h]

theorem transcript_bind_error {p : Prog Op Ans ε α} {f : α → Prog Op Ans ε β} {s s' : σ} {e : ε}
    (h : p.run handle s = (.error e, s')) :
    (p.bind f).transcript handle s = p.transcript handle s := by
  rw [transcript_bind, h, List.append_nil]

/-- Whatever is asked is allowed. -/
theorem allowed_of_mem_transcript {allowed : Op → Prop} {p : Prog Op Ans ε α}
    (hp : p.Uses allowed) {s : σ} {e : Exchange Op Ans ε} (he : e ∈ p.transcript handle s) :
    allowed e.1 := by
  induction p generalizing s with
  | ret a => cases he
  | fail e => cases he
  | await op k ih =>
    rcases List.mem_cons.mp he with rfl | he
    · exact hp.1
    · exact ih _ (hp.2 _) he

end Transcript

/-! ## Following a protocol -/

/-- The program follows a protocol: from ghost stage `stage` it issues only
operations the stage allows, whatever is answered, and its outcome satisfies
`post` at the stage it ends in. -/
def Follows {Stage : Type} (allowed : Stage → Op → Prop)
    (next : Stage → (op : Op) → Except ε (Ans op) → Stage)
    (post : Stage → Except ε α → Prop) : Stage → Prog Op Ans ε α → Prop
  | stage, ret a => post stage (.ok a)
  | stage, fail e => post stage (.error e)
  | stage, await op k => allowed stage op ∧ ∀ r, Follows allowed next post (next stage op r) (k r)

section Follows

variable {Stage : Type} {allowed : Stage → Op → Prop}
  {next : Stage → (op : Op) → Except ε (Ans op) → Stage}

theorem follows_settled {post : Stage → Except ε α → Prop} {stage : Stage} {out : Except ε α}
    (h : post stage out) : Follows allowed next post stage (settled out : Prog Op Ans ε α) := by
  cases out <;> exact h

theorem follows_bind {post : Stage → Except ε β → Prop} {stage : Stage} {p : Prog Op Ans ε α}
    {f : α → Prog Op Ans ε β} :
    Follows allowed next post stage (p.bind f) ↔
      Follows allowed next (fun stage' out =>
        match out with
        | .ok a => Follows allowed next post stage' (f a)
        | .error e => post stage' (.error e)) stage p := by
  induction p generalizing stage with
  | ret a => exact Iff.rfl
  | fail e => exact Iff.rfl
  | await op k ih => exact and_congr_right fun _ => forall_congr' fun r => ih r

theorem follows_tryCatch {post : Stage → Except ε α → Prop} {stage : Stage}
    {p : Prog Op Ans ε α} {handler : ε → Prog Op Ans ε α} :
    Follows allowed next post stage (p.tryCatch handler) ↔
      Follows allowed next (fun stage' out =>
        match out with
        | .ok a => post stage' (.ok a)
        | .error e => Follows allowed next post stage' (handler e)) stage p := by
  induction p generalizing stage with
  | ret a => exact Iff.rfl
  | fail e => exact Iff.rfl
  | await op k ih => exact and_congr_right fun _ => forall_congr' fun r => ih r

theorem follows_attempt {post : Stage → Except ε β → Prop} {stage : Stage}
    {p : Prog Op Ans ε α} {f : Except ε α → Prog Op Ans ε β} :
    Follows allowed next post stage (p.attempt f) ↔
      Follows allowed next (fun stage' out => Follows allowed next post stage' (f out)) stage
        p := by
  induction p generalizing stage with
  | ret a => exact Iff.rfl
  | fail e => exact Iff.rfl
  | await op k ih => exact and_congr_right fun _ => forall_congr' fun r => ih r

/-- A program that follows a protocol keeps, alone against a handler, every
invariant of stage and state that the allowed operations keep. -/
theorem run_follows {σ : Type} {handle : σ → (op : Op) → Except ε (Ans op) × σ}
    {post : Stage → Except ε α → Prop} {I : Stage → σ → Prop}
    (hstep : ∀ stage s op, I stage s → allowed stage op →
      I (next stage op (handle s op).1) (handle s op).2)
    {p : Prog Op Ans ε α} {stage : Stage} {s : σ} (hp : Follows allowed next post stage p)
    (hs : I stage s) :
    ∃ stage', I stage' (p.run handle s).2 ∧ post stage' (p.run handle s).1 := by
  induction p generalizing stage s with
  | ret a => exact ⟨stage, hs, hp⟩
  | fail e => exact ⟨stage, hs, hp⟩
  | await op k ih => exact ih _ (hp.2 _) (hstep stage s op hs hp.1)

theorem Follows.mono {post post' : Stage → Except ε α → Prop} {stage : Stage}
    {p : Prog Op Ans ε α} (hp : Follows allowed next post stage p)
    (h : ∀ stage out, post stage out → post' stage out) :
    Follows allowed next post' stage p := by
  induction p generalizing stage with
  | ret a => exact h stage _ hp
  | fail e => exact h stage _ hp
  | await op k ih => exact ⟨hp.1, fun r => ih r (hp.2 r)⟩

end Follows

end Prog

/-! ## Running interleaved -/

/-- How a shared state answers the operations of the threads `ι`, and how it
may move by itself. -/
structure System (ι Op : Type) (Ans : Op → Type) (ε σ : Type) where
  /-- Thread `i` is answered `r` and the state moves. -/
  answers : σ → ι → (op : Op) → Except ε (Ans op) → σ → Prop
  /-- A step of the environment. -/
  env : σ → σ → Prop

/-- The shared state and what every thread has left to do. -/
structure Config (ι Op : Type) (Ans : Op → Type) (ε α σ : Type) where
  /-- Shared state. -/
  shared : σ
  /-- Remaining programs. -/
  threads : ι → Prog Op Ans ε α

section System

variable {ι σ : Type} [DecidableEq ι] (sys : System ι Op Ans ε σ)

/-- One step: some thread's pending operation is answered, or the environment moves. -/
inductive Step : Config ι Op Ans ε α σ → Config ι Op Ans ε α σ → Prop
  /-- The pending operation of thread `i` is answered. -/
  | answer {c : Config ι Op Ans ε α σ} (i : ι) {op : Op}
      {k : Except ε (Ans op) → Prog Op Ans ε α} {r : Except ε (Ans op)} {s : σ}
      (hi : c.threads i = .await op k) (ha : sys.answers c.shared i op r s) :
      Step c ⟨s, Function.update c.threads i (k r)⟩
  /-- The environment moves. -/
  | env {c : Config ι Op Ans ε α σ} {s : σ} (he : sys.env c.shared s) : Step c ⟨s, c.threads⟩

/-- The configurations a system reaches. -/
def Reachable (start c : Config ι Op Ans ε α σ) : Prop := Relation.ReflTransGen (Step sys) start c

variable {sys}

/-- Answer one pending operation on the way to a configuration. -/
theorem reaches_answer {P : Config ι Op Ans ε α σ → Prop} {c : Config ι Op Ans ε α σ} (i : ι)
    {op : Op} {k : Except ε (Ans op) → Prog Op Ans ε α} (r : Except ε (Ans op)) {s : σ}
    (hi : c.threads i = .await op k) (ha : sys.answers c.shared i op r s)
    (h : ∃ d, Reachable sys ⟨s, Function.update c.threads i (k r)⟩ d ∧ P d) :
    ∃ d, Reachable sys c d ∧ P d := by
  obtain ⟨d, hd, hp⟩ := h
  exact ⟨d, .head (Step.answer i hi ha) hd, hp⟩

/-- Threads that follow their protocols keep every invariant of the shared
state and the ghost stages that the allowed operations and the environment
keep. -/
theorem reachable_follows {Stage : Type} {allowed : ι → Stage → Op → Prop}
    {next : ι → Stage → (op : Op) → Except ε (Ans op) → Stage}
    {post : ι → Stage → Except ε α → Prop} {I : σ → (ι → Stage) → Prop}
    (hanswer : ∀ s stages i op r s', I s stages → allowed i (stages i) op →
      sys.answers s i op r s' → I s' (Function.update stages i (next i (stages i) op r)))
    (henv : ∀ s stages s', I s stages → sys.env s s' → I s' stages)
    {start c : Config ι Op Ans ε α σ} {stages₀ : ι → Stage} (hI : I start.shared stages₀)
    (hf : ∀ i, Prog.Follows (allowed i) (next i) (post i) (stages₀ i) (start.threads i))
    (hr : Reachable sys start c) :
    ∃ stages, I c.shared stages ∧
      ∀ i, Prog.Follows (allowed i) (next i) (post i) (stages i) (c.threads i) := by
  induction hr with
  | refl => exact ⟨stages₀, hI, hf⟩
  | tail _ hstep ih =>
    obtain ⟨stages, hI, hf⟩ := ih
    cases hstep with
    | answer i hi ha =>
      have hfi := hf i
      rw [hi] at hfi
      refine ⟨_, hanswer _ _ _ _ _ _ hI hfi.1 ha, fun j => ?_⟩
      by_cases hj : j = i
      · subst hj
        simpa using hfi.2 _
      · simpa [hj] using hf j
    | env he => exact ⟨stages, henv _ _ _ hI he, hf⟩

end System

end FactoryServer.AsyncProgram
