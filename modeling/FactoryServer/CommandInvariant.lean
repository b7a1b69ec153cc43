import FactoryServer.CommandProtocol

/-!
# The invariant of concurrent durable commands

A call that may still insert the receipt of its key holds the advisory lock of
the key, and the receipt is absent. Every await of the protocol keeps this,
and the commit of a receipt is the one step that other calls can notice.
-/

namespace FactoryServer.CommandInvariant

open JsonValue AsyncProgram SqlTransaction CommandTransaction CommandReceipts CommandProtocol

variable {ι W E : Type} {A : W → Type}

/-- The session of a call is outside a transaction. -/
def Session.Outside (s : Session W) : Prop := ∀ tx locks, s ≠ .inTx tx locks

/-- Call `i` holds an advisory lock. -/
def Holds (db : Database ι W E) (i : ι) (lock : Int) : Prop :=
  ∃ tx locks, db.sessions i = .inTx tx locks ∧ lock ∈ locks

/-- The connection is lost, or the session is in a transaction as described. -/
def InTxOrLost (s : Session W) (P : Tx (Pending W) → List Int → Prop) : Prop :=
  s = .lost ∨ ∃ tx locks, s = .inTx tx locks ∧ P tx locks

/-- What holds of a call at each stage of the protocol. -/
def StageInv (hash : Key → Int) (receipts₀ : Key → Option Receipt) (db : Database ι W E) (i : ι)
    (identity : CommandIdentity) : Stage E → Prop
  | .start => db.sessions i = .closed ∧ db.registered i = [] ∧ db.ran i = []
  | .connected => (db.sessions i = .idle ∨ db.sessions i = .lost) ∧
    db.registered i = [] ∧ db.ran i = []
  | .begun => InTxOrLost (db.sessions i) (fun tx _ => tx = Tx.start Pending.empty) ∧
    db.registered i = [] ∧ db.ran i = []
  | .locked => InTxOrLost (db.sessions i) (fun tx locks =>
      tx = Tx.start Pending.empty ∧ hash (keyOf identity) ∈ locks) ∧
    db.registered i = [] ∧ db.ran i = []
  | .applying effects => InTxOrLost (db.sessions i) (fun tx locks =>
      tx.All (fun p => p.receipts = []) ∧ hash (keyOf identity) ∈ locks ∧
        db.receipts (keyOf identity) = none) ∧
    receipts₀ (keyOf identity) = none ∧ db.registered i = effects ∧ db.ran i = []
  | .stored receipt effects => InTxOrLost (db.sessions i) (fun tx locks =>
      tx.content.receipts = [(keyOf identity, receipt)] ∧ tx.aborted = false ∧
        hash (keyOf identity) ∈ locks ∧ db.receipts (keyOf identity) = none) ∧
    receipt.fingerprint = identity.fingerprint ∧ receipts₀ (keyOf identity) = none ∧
    db.registered i = effects ∧ db.ran i = []
  | .replaying receipt => InTxOrLost (db.sessions i) (fun tx _ => tx = Tx.start Pending.empty) ∧
    db.receipts (keyOf identity) = some receipt ∧ receipt.fingerprint = identity.fingerprint ∧
    db.registered i = [] ∧ db.ran i = []
  | .committed fresh receipt todo => Session.Outside (db.sessions i) ∧
    db.receipts (keyOf identity) = some receipt ∧ receipt.fingerprint = identity.fingerprint ∧
    db.commitReturned i = true ∧ db.registered i = db.ran i ++ todo ∧
    (fresh = true ∧ db.committer (keyOf identity) = some i ∨ fresh = false ∧ db.registered i = [])
  | .failing applied => (applied = true → receipts₀ (keyOf identity) = none) ∧ db.ran i = []
  | .ended applied => Session.Outside (db.sessions i) ∧
    (applied = true → receipts₀ (keyOf identity) = none) ∧ db.ran i = []
  | .broken => False

/-- What holds of a call: one without an identity never does anything. -/
def CallInv (hash : Key → Int) (receipts₀ : Key → Option Receipt) (db : Database ι W E) (i : ι)
    (identity : Option CommandIdentity) (stage : Stage E) : Prop :=
  match identity with
  | none => stage = .start ∧ db.sessions i = .closed ∧ db.ran i = []
  | some identity => StageInv hash receipts₀ db i identity stage

/-- The invariant of the database and all calls. -/
structure Inv (hash : Key → Int) (receipts₀ : Key → Option Receipt)
    (identities : ι → Option CommandIdentity) (db : Database ι W E) (stages : ι → Stage E) :
    Prop where
  /-- Every call is where its stage says. -/
  call : ∀ i, CallInv hash receipts₀ db i (identities i) (stages i)
  /-- No two transactions hold the same advisory lock. -/
  exclusive : ∀ i j lock, Holds db i lock → Holds db j lock → i = j
  /-- Receipts of earlier commands stay. -/
  kept : ∀ key receipt, receipts₀ key = some receipt → db.receipts key = some receipt
  /-- Every other receipt was inserted by a committed call of its key and intent. -/
  origin : ∀ key receipt, db.receipts key = some receipt → receipts₀ key = none →
    ∃ i identity, db.committer key = some i ∧ identities i = some identity ∧
      keyOf identity = key ∧ receipt.fingerprint = identity.fingerprint
  /-- A committer is recorded only for a new receipt. -/
  committer : ∀ key i, db.committer key = some i → receipts₀ key = none ∧ db.receipts key ≠ none
  /-- Committed data writes belong to the committer of their key. -/
  writes : ∀ i, db.committedWrites i ≠ [] →
    ∃ identity, identities i = some identity ∧ db.committer (keyOf identity) = some i

/-- Outside call `i` nothing changed, and no receipt was committed. -/
structure Agrees (db db' : Database ι W E) (i : ι) : Prop where
  receipts : db'.receipts = db.receipts
  committer : db'.committer = db.committer
  committedWrites : db'.committedWrites = db.committedWrites
  sessions : ∀ j, j ≠ i → db'.sessions j = db.sessions j
  commitReturned : ∀ j, j ≠ i → db'.commitReturned j = db.commitReturned j
  registered : ∀ j, j ≠ i → db'.registered j = db.registered j
  ran : ∀ j, j ≠ i → db'.ran j = db.ran j

section Frame

variable {hash : Key → Int} {receipts₀ : Key → Option Receipt}
  {identities : ι → Option CommandIdentity} {db db' : Database ι W E} {stages : ι → Stage E}

/-- The invariant of a call only reads its own components, the receipts and the committers. -/
theorem CallInv.congr {j : ι} {identity : Option CommandIdentity} {stage : Stage E}
    (h : CallInv hash receipts₀ db j identity stage) (hr : db'.receipts = db.receipts)
    (hc : db'.committer = db.committer) (hs : db'.sessions j = db.sessions j)
    (hcr : db'.commitReturned j = db.commitReturned j)
    (hreg : db'.registered j = db.registered j) (hran : db'.ran j = db.ran j) :
    CallInv hash receipts₀ db' j identity stage := by
  cases identity with
  | none => exact ⟨h.1, hs.trans h.2.1, hran.trans h.2.2⟩
  | some identity =>
    cases stage with
    | broken => exact h
    | _ => simpa only [CallInv, StageInv, hr, hc, hs, hcr, hreg, hran] using h

variable [DecidableEq ι]

theorem agrees_setSession (db : Database ι W E) (i : ι) (s : Session W) :
    Agrees db (db.setSession i s) i :=
  ⟨rfl, rfl, rfl, fun _ hj => Function.update_of_ne hj _ _, fun _ _ => rfl, fun _ _ => rfl,
    fun _ _ => rfl⟩

@[simp] theorem setSession_sessions (db : Database ι W E) (i : ι) (s : Session W) :
    (db.setSession i s).sessions i = s := by
  simp [Database.setSession]

@[simp] theorem setSession_self (db : Database ι W E) (i : ι) :
    db.setSession i (db.sessions i) = db := by
  simp [Database.setSession]

@[simp] theorem setSession_setSession (db : Database ι W E) (i : ι) (s s' : Session W) :
    (db.setSession i s).setSession i s' = db.setSession i s' := by
  simp [Database.setSession]

/-- A step of call `i` that commits no receipt keeps the invariant when it
keeps the call's own part of it and takes no lock another call holds. -/
theorem Inv.local {i : ι} {stage : Stage E} (h : Inv hash receipts₀ identities db stages)
    (ha : Agrees db db' i) (hl : ∀ lock, Holds db' i lock → Holds db i lock ∨ db.LockFree i lock)
    (hi : CallInv hash receipts₀ db' i (identities i) stage) :
    Inv hash receipts₀ identities db' (Function.update stages i stage) where
  call j := by
    by_cases hj : j = i
    · subst hj
      simpa using hi
    · rw [Function.update_of_ne hj]
      exact (h.call j).congr ha.receipts ha.committer (ha.sessions j hj) (ha.commitReturned j hj)
        (ha.registered j hj) (ha.ran j hj)
  exclusive := by
    have hback : ∀ j lock, j ≠ i → Holds db' j lock → Holds db j lock := by
      rintro j lock hj ⟨tx, locks, hs, hm⟩
      exact ⟨tx, locks, (ha.sessions j hj).symm.trans hs, hm⟩
    have hself : ∀ j lock, j ≠ i → Holds db' i lock → Holds db' j lock → False := by
      intro j lock hj hi' hj'
      obtain ⟨tx, locks, hs, hm⟩ := hback j lock hj hj'
      rcases hl lock hi' with hold | hfree
      · exact hj (h.exclusive j i lock ⟨tx, locks, hs, hm⟩ hold)
      · exact hj (hfree j tx locks hs hm)
    intro j k lock hj hk
    by_cases hji : j = i
    · by_cases hki : k = i
      · rw [hji, hki]
      · exact (hself k lock hki (hji ▸ hj) hk).elim
    · by_cases hki : k = i
      · exact (hself j lock hji (hki ▸ hk) hj).elim
      · exact h.exclusive j k lock (hback j lock hji hj) (hback k lock hki hk)
  kept key receipt hr := by rw [ha.receipts]; exact h.kept key receipt hr
  origin key receipt hr h₀ := by
    rw [ha.receipts] at hr
    rw [ha.committer]
    exact h.origin key receipt hr h₀
  committer key j hj := by
    rw [ha.committer] at hj
    rw [ha.receipts]
    exact h.committer key j hj
  writes j hj := by
    rw [ha.committedWrites] at hj
    rw [ha.committer]
    exact h.writes j hj

/-- The same for a step that only changes the session of the call. -/
theorem Inv.setSession {i : ι} {stage : Stage E} (h : Inv hash receipts₀ identities db stages)
    (s : Session W) (hl : ∀ tx locks, s = .inTx tx locks →
      ∀ lock ∈ locks, Holds db i lock ∨ db.LockFree i lock)
    (hi : CallInv hash receipts₀ (db.setSession i s) i (identities i) stage) :
    Inv hash receipts₀ identities (db.setSession i s) (Function.update stages i stage) := by
  refine h.local (agrees_setSession db i s) ?_ hi
  rintro lock ⟨tx, locks, hs, hm⟩
  rw [setSession_sessions] at hs
  exact hl tx locks hs lock hm

/-- Leaving a transaction, or staying outside of one, takes no lock. -/
theorem Inv.setOutside {i : ι} {stage : Stage E} (h : Inv hash receipts₀ identities db stages)
    {s : Session W} (hs : Session.Outside s)
    (hi : CallInv hash receipts₀ (db.setSession i s) i (identities i) stage) :
    Inv hash receipts₀ identities (db.setSession i s) (Function.update stages i stage) :=
  h.setSession s (fun tx locks he => (hs tx locks he).elim) hi

end Frame

/-! ## What a statement does to the session -/

/-- A session after a failed statement: unchanged, lost, or with its transaction aborted. -/
def Degrades (s s' : Session W) : Prop :=
  s' = s ∨ s' = .lost ∨ ∃ tx locks, s = .inTx tx locks ∧ s' = .inTx tx.abort locks

section Statements

variable [DecidableEq ι] {hash : Key → Int} {db db' : Database ι W E} {i : ι} {sql : Sql W}

/-- Statements that change nothing but the session of their call. -/
def SessionOnly (s : Session W) : Sql W → Prop
  | .begin => True
  | .rollback => True
  | .commit => False
  | _ => s ≠ .idle

theorem executes_setSession {r : sql.Answer A} (hsql : SessionOnly (db.sessions i) sql)
    (h : Executes hash db i sql r db') : ∃ s, db' = db.setSession i s := by
  unfold Executes at h
  cases hs : db.sessions i with
  | closed => rw [hs] at h; exact h.elim
  | lost => rw [hs] at h; exact h.elim
  | idle =>
    rw [hs] at h hsql
    cases sql with
    | begin => exact ⟨_, h⟩
    | rollback => exact ⟨db.sessions i, by rw [setSession_self]; exact h⟩
    | commit => exact hsql.elim
    | _ => exact (hsql rfl).elim
  | inTx tx locks =>
    rw [hs] at h
    cases sql with
    | begin => exact ⟨db.sessions i, by rw [setSession_self]; exact h.2⟩
    | commit => exact hsql.elim
    | rollback => exact ⟨_, h⟩
    | savepoint name => exact ⟨_, h.2⟩
    | releaseSavepoint name => obtain ⟨-, tx', -, h⟩ := h; exact ⟨_, h⟩
    | rollbackTo name => obtain ⟨tx', -, h⟩ := h; exact ⟨_, h⟩
    | lock actor commandId => exact ⟨_, h.2.2⟩
    | selectReceipt actor commandId =>
      exact ⟨db.sessions i, by rw [setSession_self]; exact h.2.2⟩
    | insertReceipt actor commandId receipt => exact ⟨_, h.2.2⟩
    | data w => exact ⟨_, h.2⟩

theorem executes_of_ok {r : sql.Answer A}
    (h : answers hash db i (.query .command sql) (.ok r : Except Thrown (sql.Answer A)) db') :
    ∃ db₁, Executes hash db i sql r db₁ ∧ db' = db₁.acknowledge i sql := by
  rcases h with ⟨e, h, -⟩ | ⟨e, h, -⟩ | ⟨e, h, -⟩ | ⟨e, a, db₁, h, -⟩ | ⟨a, db₁, h, hx, hd⟩
  · cases h
  · cases h
  · cases h
  · cases h
  · cases h
    exact ⟨db₁, hx, hd⟩

theorem degrades_of_error (sql : Sql W) {e : Thrown} (hsql : SessionOnly (db.sessions i) sql)
    (h : answers hash db i (.query .command sql) (.error e : Except Thrown (sql.Answer A)) db') :
    ∃ s, db' = db.setSession i s ∧ Degrades (db.sessions i) s := by
  rcases h with ⟨-, -, -, hd⟩ | ⟨-, -, hd⟩ | ⟨-, -, hd⟩ | ⟨-, a, db₁, -, hx, hd⟩ | ⟨a, db₁, h, -⟩
  · exact ⟨_, hd.trans (setSession_self db i).symm, Or.inl rfl⟩
  · unfold Refuses at hd
    cases hs : db.sessions i with
    | closed => rw [hs] at hd; exact hd.elim
    | lost => rw [hs] at hd; exact hd.elim
    | idle =>
      rw [hs] at hd
      exact ⟨db.sessions i, hd.trans (setSession_self db i).symm, Or.inl hs⟩
    | inTx tx locks =>
      rw [hs] at hd
      cases sql with
      | commit => exact hsql.elim
      | rollback => exact hd.elim
      | _ => exact ⟨_, hd, Or.inr (Or.inr ⟨tx, locks, rfl, rfl⟩)⟩
  · exact ⟨_, hd, Or.inr (Or.inl rfl)⟩
  · obtain ⟨s, rfl⟩ := executes_setSession hsql hx
    exact ⟨_, hd.trans (setSession_setSession db i s _), Or.inr (Or.inl rfl)⟩
  · cases h

/-- However a rollback is answered, its session is outside a transaction. -/
theorem outside_of_rollback {r : Except Thrown Unit}
    (h : answers (A := A) hash db i (.query .command .rollback) r db') :
    ∃ s, db' = db.setSession i s ∧ Session.Outside s := by
  have hexec : ∀ {r : Unit} {db₁ : Database ι W E},
      Executes (A := A) hash db i .rollback r db₁ →
      ∃ s, db₁ = db.setSession i s ∧ Session.Outside s := by
    intro r db₁ hx
    unfold Executes at hx
    cases hs : db.sessions i with
    | closed => rw [hs] at hx; exact hx.elim
    | lost => rw [hs] at hx; exact hx.elim
    | idle =>
      rw [hs] at hx
      exact ⟨.idle, by rw [← hs, setSession_self]; exact hx, fun _ _ h => by cases h⟩
    | inTx tx locks => rw [hs] at hx; exact ⟨.idle, hx, fun _ _ h => by cases h⟩
  rcases h with ⟨-, -, hs, hd⟩ | ⟨-, -, hd⟩ | ⟨-, -, hd⟩ | ⟨-, a, db₁, -, hx, hd⟩ |
    ⟨a, db₁, -, hx, hd⟩
  · refine ⟨_, hd.trans (setSession_self db i).symm, fun tx locks he => ?_⟩
    rcases hs with hs | hs <;> rw [hs] at he <;> cases he
  · unfold Refuses at hd
    cases hs : db.sessions i with
    | closed => rw [hs] at hd; exact hd.elim
    | lost => rw [hs] at hd; exact hd.elim
    | idle =>
      rw [hs] at hd
      exact ⟨.idle, by rw [← hs, setSession_self]; exact hd, fun _ _ h => by cases h⟩
    | inTx tx locks => rw [hs] at hd; exact hd.elim
  · exact ⟨_, hd, fun _ _ h => by cases h⟩
  · obtain ⟨s, rfl, -⟩ := hexec hx
    exact ⟨_, hd.trans (setSession_setSession db i s _), fun _ _ h => by cases h⟩
  · obtain ⟨s, rfl, hs⟩ := hexec hx
    exact ⟨s, hd, hs⟩

end Statements

/-! ## The commit of a new receipt -/

/-- Call `i` left its transaction by making `p` permanent. -/
structure Commits (db db' : Database ι W E) (i : ι) (p : Pending W) : Prop where
  receipts : ∀ key, db'.receipts key = (p.receipts.lookup key).or (db.receipts key)
  committer : ∀ key, db'.committer key =
    if (p.receipts.lookup key).isSome then some i else db.committer key
  committedWrites : ∀ j, j ≠ i → db'.committedWrites j = db.committedWrites j
  outside : Session.Outside (db'.sessions i)
  sessions : ∀ j, j ≠ i → db'.sessions j = db.sessions j
  commitReturned : ∀ j, j ≠ i → db'.commitReturned j = db.commitReturned j
  registered : ∀ j, db'.registered j = db.registered j
  ran : ∀ j, db'.ran j = db.ran j

section Commit

variable {hash : Key → Int} {receipts₀ : Key → Option Receipt}
  {identities : ι → Option CommandIdentity} {db db' : Database ι W E} {stages : ι → Stage E}

/-- A commit of another key does not reach the invariant of a call. -/
theorem StageInv.commits {i j : ι} {identity : CommandIdentity} {stage : Stage E} {p : Pending W}
    (h : StageInv hash receipts₀ db j identity stage) (hc : Commits db db' i p) (hj : j ≠ i)
    (hk : p.receipts.lookup (keyOf identity) = none) :
    StageInv hash receipts₀ db' j identity stage := by
  have hr : db'.receipts (keyOf identity) = db.receipts (keyOf identity) := by
    rw [hc.receipts, hk, Option.none_or]
  have hm : db'.committer (keyOf identity) = db.committer (keyOf identity) := by
    rw [hc.committer, hk]
    rfl
  cases stage with
  | broken => exact h
  | _ => simpa only [StageInv, hr, hm, hc.sessions j hj, hc.commitReturned j hj, hc.registered,
      hc.ran] using h

/-- While the lock of its key is held elsewhere and the receipt is absent, a
call is in none of the stages that read the receipt on an open connection. -/
theorem StageInv.commits_same {i j : ι} {identity : CommandIdentity} {stage : Stage E}
    {p : Pending W} (h : StageInv hash receipts₀ db j identity stage) (hc : Commits db db' i p)
    (hj : j ≠ i) (hn : db.receipts (keyOf identity) = none)
    (hlock : ¬ Holds db j (hash (keyOf identity))) :
    StageInv hash receipts₀ db' j identity stage := by
  have hs := hc.sessions j hj
  cases stage with
  | applying effects =>
    obtain ⟨hs' | ⟨tx, locks, hs', -, hl, -⟩, hrest⟩ := h
    · exact ⟨Or.inl (hs.trans hs'), hrest.1, (hc.registered j).trans hrest.2.1,
        (hc.ran j).trans hrest.2.2⟩
    · exact (hlock ⟨tx, locks, hs', hl⟩).elim
  | stored receipt effects =>
    obtain ⟨hs' | ⟨tx, locks, hs', -, -, hl, -⟩, hf, h₀, hreg, hran⟩ := h
    · exact ⟨Or.inl (hs.trans hs'), hf, h₀, (hc.registered j).trans hreg, (hc.ran j).trans hran⟩
    · exact (hlock ⟨tx, locks, hs', hl⟩).elim
  | replaying receipt => rw [h.2.1] at hn; cases hn
  | committed fresh receipt todo => rw [h.2.1] at hn; cases hn
  | broken => exact h
  | _ => simpa only [StageInv, hs, hc.registered, hc.ran] using h

/-- The commit of a stored receipt keeps the invariant. -/
theorem Inv.commits {i : ι} {identity : CommandIdentity} {receipt : Receipt} {effects : List E}
    {tx : Tx (Pending W)} {locks : List Int} {stage : Stage E} [DecidableEq ι]
    (h : Inv hash receipts₀ identities db stages) (hid : identities i = some identity)
    (hst : StageInv hash receipts₀ db i identity (.stored receipt effects))
    (hs : db.sessions i = .inTx tx locks) (hc : Commits db db' i tx.content)
    (hi : StageInv hash receipts₀ db' i identity stage) :
    Inv hash receipts₀ identities db' (Function.update stages i stage) := by
  obtain ⟨hs' | ⟨tx', locks', hs', hp, -, hl, hn⟩, hf, h₀, -⟩ := hst
  · rw [hs] at hs'; cases hs'
  rw [hs] at hs'
  cases hs'
  have hsame : tx.content.receipts.lookup (keyOf identity) = some receipt := by simp [hp]
  have hother : ∀ key, key ≠ keyOf identity → tx.content.receipts.lookup key = none := by
    intro key hne
    rw [hp, List.lookup_cons, beq_false_of_ne hne]
    rfl
  have hholds : Holds db i (hash (keyOf identity)) := ⟨tx, locks, hs, hl⟩
  have hback : ∀ j lock, Holds db' j lock → Holds db j lock := by
    rintro j lock ⟨tx', locks', hj, hm⟩
    by_cases hji : j = i
    · subst hji
      exact (hc.outside _ _ hj).elim
    · exact ⟨tx', locks', (hc.sessions j hji).symm.trans hj, hm⟩
  constructor
  · intro j
    by_cases hji : j = i
    · subst hji
      rw [Function.update_self, hid]
      exact hi
    · rw [Function.update_of_ne hji]
      have hj := h.call j
      cases hidj : identities j with
      | none =>
        rw [hidj] at hj
        exact ⟨hj.1, (hc.sessions j hji).trans hj.2.1, (hc.ran j).trans hj.2.2⟩
      | some identity' =>
        rw [hidj] at hj
        by_cases hk : keyOf identity' = keyOf identity
        · refine StageInv.commits_same hj hc hji (hk ▸ hn) fun hlock => hji ?_
          exact h.exclusive j i _ hlock (hk ▸ hholds)
        · exact StageInv.commits hj hc hji (hother _ hk)
  · exact fun j k lock hj hk => h.exclusive j k lock (hback j lock hj) (hback k lock hk)
  · intro key r hr
    have hne : key ≠ keyOf identity := by
      rintro rfl
      rw [h₀] at hr
      cases hr
    rw [hc.receipts, hother key hne, Option.none_or]
    exact h.kept key r hr
  · intro key r hr hkey
    by_cases hk : key = keyOf identity
    · subst hk
      rw [hc.receipts, hsame, Option.some_or, Option.some.injEq] at hr
      refine ⟨i, identity, ?_, hid, rfl, hr ▸ hf⟩
      rw [hc.committer, hsame]
      rfl
    · rw [hc.receipts, hother key hk, Option.none_or] at hr
      obtain ⟨j, identity', hj, hrest⟩ := h.origin key r hr hkey
      refine ⟨j, identity', ?_, hrest⟩
      rw [hc.committer, hother key hk]
      exact hj
  · intro key j hj
    by_cases hk : key = keyOf identity
    · subst hk
      rw [hc.receipts, hsame]
      exact ⟨h₀, by simp⟩
    · rw [hc.committer, hother key hk] at hj
      rw [hc.receipts, hother key hk, Option.none_or]
      exact h.committer key j hj
  · intro j hj
    by_cases hji : j = i
    · subst hji
      exact ⟨identity, hid, by rw [hc.committer, hsame]; rfl⟩
    · rw [hc.committedWrites j hji] at hj
      obtain ⟨identity', hidj, hm⟩ := h.writes j hj
      refine ⟨identity', hidj, ?_⟩
      have hne : keyOf identity' ≠ keyOf identity := by
        intro he
        rw [he] at hm
        exact (h.committer _ _ hm).2 hn
      rw [hc.committer, hother _ hne]
      exact hm

end Commit

/-! ## The steps of one call -/

section Steps

variable [DecidableEq ι] {hash : Key → Int} {receipts₀ : Key → Option Receipt}
  {identities : ι → Option CommandIdentity} {db db' : Database ι W E} {stages : ι → Stage E}
  {i : ι} {identity : CommandIdentity}

/-- The invariant after an await of call `i`, at the stage the answer leads to. -/
def StepKeeps (hash : Key → Int) (receipts₀ : Key → Option Receipt)
    (identities : ι → Option CommandIdentity) (db' : Database ι W E) (stages : ι → Stage E)
    (i : ι) (stage : Stage E) : Prop :=
  Inv hash receipts₀ identities db' (Function.update stages i stage)

omit [DecidableEq ι] in
/-- A failed statement never takes a lock. -/
theorem Degrades.locks {s : Session W} (hd : Degrades (db.sessions i) s) :
    ∀ tx locks, s = .inTx tx locks → ∀ lock ∈ locks, Holds db i lock ∨ db.LockFree i lock := by
  intro tx locks he lock hm
  rcases hd with rfl | rfl | ⟨tx', locks', hs, rfl⟩
  · exact Or.inl ⟨tx, locks, he, hm⟩
  · cases he
  · cases he
    exact Or.inl ⟨tx', locks, hs, hm⟩

/-- A failed statement leads to the `catch` block. -/
theorem step_failing {s : Session W} {applied : Bool}
    (h : Inv hash receipts₀ identities db stages) (hid : identities i = some identity)
    (hd : Degrades (db.sessions i) s) (h₀ : applied = true → receipts₀ (keyOf identity) = none)
    (hran : db.ran i = []) :
    StepKeeps hash receipts₀ identities (db.setSession i s) stages i (.failing applied) := by
  refine h.setSession s hd.locks ?_
  rw [hid]
  exact ⟨h₀, hran⟩

theorem step_connect {r : Except Thrown Unit} (h : Inv hash receipts₀ identities db stages)
    (hid : identities i = some identity) (hst : StageInv hash receipts₀ db i identity .start)
    (ha : answers (A := A) hash db i (.connect .command) r db') :
    StepKeeps hash receipts₀ identities db' stages i
      (next (A := A) identity .start (.connect .command) r) := by
  obtain ⟨hs, ⟨⟨e, rfl⟩, rfl⟩ | ⟨rfl, rfl⟩⟩ := ha
  · rw [← setSession_self db' i]
    refine h.setOutside (fun tx locks he => by rw [hs] at he; cases he) ?_
    rw [hid, setSession_self]
    exact hst
  · refine h.setOutside (fun tx locks he => by cases he) ?_
    rw [hid]
    exact ⟨Or.inl (setSession_sessions db i _), hst.2⟩

theorem step_begin {r : Except Thrown Unit} (h : Inv hash receipts₀ identities db stages)
    (hid : identities i = some identity) (hst : StageInv hash receipts₀ db i identity .connected)
    (ha : answers (A := A) hash db i (.query .command .begin) r db') :
    StepKeeps hash receipts₀ identities db' stages i
      (next (A := A) identity .connected (.query .command .begin) r) := by
  cases r with
  | error e =>
    obtain ⟨s, rfl, hd⟩ := degrades_of_error (A := A) .begin trivial ha
    exact step_failing h hid hd (fun h => by cases h) hst.2.2
  | ok _ =>
    obtain ⟨db₁, hx, rfl⟩ := executes_of_ok (A := A) ha
    unfold Executes at hx
    rcases hst.1 with hs | hs <;> rw [hs] at hx
    · cases hx
      refine h.setSession _ (fun tx locks he lock hm => ?_) ?_
      · cases he
        cases hm
      · rw [hid]
        exact ⟨Or.inr ⟨_, _, setSession_sessions db i _, rfl⟩, hst.2⟩
    · exact hx.elim

theorem step_lock {r : Except Thrown Unit} (h : Inv hash receipts₀ identities db stages)
    (hid : identities i = some identity) (hst : StageInv hash receipts₀ db i identity .begun)
    {actor commandId : String} (hkey : (actor, commandId) = keyOf identity)
    (ha : answers (A := A) hash db i (.query .command (.lock actor commandId)) r db') :
    StepKeeps hash receipts₀ identities db' stages i
      (next (A := A) identity .begun (.query .command (.lock actor commandId)) r) := by
  have hidle : db.sessions i ≠ .idle := by
    rcases hst.1 with hs | ⟨tx, locks, hs, -⟩ <;> rw [hs] <;> intro he <;> cases he
  cases r with
  | error e =>
    obtain ⟨s, rfl, hd⟩ := degrades_of_error (A := A) (.lock actor commandId) hidle ha
    exact step_failing h hid hd (fun h => by cases h) hst.2.2
  | ok _ =>
    obtain ⟨db₁, hx, rfl⟩ := executes_of_ok (A := A) ha
    unfold Executes at hx
    rcases hst.1 with hs | ⟨tx, locks, hs, rfl⟩ <;> rw [hs] at hx
    · exact hx.elim
    · obtain ⟨-, hfree, rfl⟩ := hx
      refine h.setSession _ (fun tx' locks' he lock hm => ?_) ?_
      · cases he
        rcases List.mem_cons.mp hm with rfl | hm
        · exact Or.inr hfree
        · exact Or.inl ⟨_, _, hs, hm⟩
      · rw [hid]
        exact ⟨Or.inr ⟨_, _, setSession_sessions db i _, rfl, by rw [← hkey]; simp⟩, hst.2⟩

theorem step_select {r : Except Thrown (Option Receipt)}
    (h : Inv hash receipts₀ identities db stages) (hid : identities i = some identity)
    (hst : StageInv hash receipts₀ db i identity .locked) {actor commandId : String}
    (hkey : (actor, commandId) = keyOf identity)
    (ha : answers (A := A) hash db i (.query .command (.selectReceipt actor commandId)) r db') :
    StepKeeps hash receipts₀ identities db' stages i
      (next (A := A) identity .locked (.query .command (.selectReceipt actor commandId)) r) := by
  have hidle : db.sessions i ≠ .idle := by
    rcases hst.1 with hs | ⟨tx, locks, hs, -⟩ <;> rw [hs] <;> intro he <;> cases he
  cases r with
  | error e =>
    obtain ⟨s, rfl, hd⟩ := degrades_of_error (A := A) (.selectReceipt actor commandId) hidle ha
    exact step_failing h hid hd (fun h => by cases h) hst.2.2
  | ok prior =>
    obtain ⟨db₁, hx, rfl⟩ := executes_of_ok (A := A) ha
    unfold Executes at hx
    rcases hst.1 with hs | ⟨tx, locks, hs, rfl, hl⟩ <;> rw [hs] at hx
    · exact hx.elim
    · obtain ⟨-, hprior, hd⟩ := hx
      have hprior : prior = db.receipts (keyOf identity) := by
        rw [hprior, hkey]
        rfl
      have hself : Degrades (db.sessions i) (db.sessions i) := Or.inl rfl
      rw [hd, ← setSession_self db i]
      cases prior with
      | none =>
        refine h.setSession _ hself.locks ?_
        rw [hid, setSession_self]
        have h₀ : receipts₀ (keyOf identity) = none := by
          cases h₀ : receipts₀ (keyOf identity) with
          | none => rfl
          | some receipt => rw [h.kept _ _ h₀] at hprior; cases hprior
        exact ⟨Or.inr ⟨_, _, hs, Tx.all_start rfl, hl, hprior.symm⟩, h₀, hst.2⟩
      | some receipt =>
        by_cases hf : receipt.fingerprint = identity.fingerprint
        · simp only [next, if_pos hf]
          refine h.setSession _ hself.locks ?_
          rw [hid, setSession_self]
          exact ⟨Or.inr ⟨_, _, hs, rfl⟩, hprior.symm, hf, hst.2⟩
        · simp only [next, if_neg hf]
          exact step_failing h hid hself (fun h => by cases h) hst.2.2

/-- No receipt is pending, in the transaction or behind a savepoint. -/
def NoReceipts (tx : Tx (Pending W)) : Prop := tx.All fun p => p.receipts = []

/-- A failed statement leaves the pending receipts as they were. -/
theorem Degrades.noReceipts {s s' : Session W} {P : List Int → Prop} (hd : Degrades s s')
    (h : InTxOrLost s fun tx locks => NoReceipts tx ∧ P locks) :
    InTxOrLost s' fun tx locks => NoReceipts tx ∧ P locks := by
  rcases hd with rfl | rfl | ⟨tx, locks, rfl, rfl⟩
  · exact h
  · exact Or.inl rfl
  · rcases h with h | ⟨tx', locks', he, hn, hp⟩
    · cases h
    · cases he
      exact Or.inr ⟨_, _, rfl, Tx.All.abort hn, hp⟩

/-- A statement of the command writes no receipt and keeps the locks. -/
theorem inCommand_session {sql : Sql W} {r : Except Thrown (sql.Answer A)} {P : List Int → Prop}
    (hsql : InCommand (E := E) (.query .command sql))
    (hs : InTxOrLost (db.sessions i) fun tx locks => NoReceipts tx ∧ P locks)
    (ha : answers hash db i (.query .command sql) r db') :
    ∃ s, db' = db.setSession i s ∧ (InTxOrLost s fun tx locks => NoReceipts tx ∧ P locks) ∧
      ∀ tx locks, s = .inTx tx locks → ∀ lock ∈ locks, Holds db i lock := by
  have hidle : db.sessions i ≠ .idle := by
    rcases hs with hs | ⟨tx, locks, hs, -⟩ <;> rw [hs] <;> intro he <;> cases he
  have honly : SessionOnly (db.sessions i) sql := by
    cases sql <;> first | exact hidle | exact hsql.elim
  cases r with
  | error e =>
    obtain ⟨s, rfl, hd⟩ := degrades_of_error (A := A) _ honly ha
    refine ⟨s, rfl, hd.noReceipts hs, fun tx locks he lock hm => ?_⟩
    rcases hd with rfl | rfl | ⟨tx', locks', hs', rfl⟩
    · exact ⟨tx, locks, he, hm⟩
    · cases he
    · cases he
      exact ⟨tx', _, hs', hm⟩
  | ok a =>
    obtain ⟨db₁, hx, rfl⟩ := executes_of_ok (A := A) ha
    unfold Executes at hx
    rcases hs with hs | ⟨tx, locks, hs, hn, hp⟩ <;> rw [hs] at hx
    · exact hx.elim
    · have hkeep : ∀ tx' : Tx (Pending W), NoReceipts tx' → ∃ s,
          db.setSession i (.inTx tx' locks) = db.setSession i s ∧
          (InTxOrLost s fun tx locks => NoReceipts tx ∧ P locks) ∧
          ∀ tx locks, s = .inTx tx locks → ∀ lock ∈ locks, Holds db i lock := by
        intro tx' hn'
        refine ⟨_, rfl, Or.inr ⟨tx', locks, rfl, hn', hp⟩, fun tx₁ locks₁ he lock hm => ?_⟩
        cases he
        exact ⟨tx, locks, hs, hm⟩
      cases sql with
      | savepoint name => obtain ⟨-, rfl⟩ := hx; exact hkeep _ (Tx.All.savepoint hn)
      | releaseSavepoint name =>
        obtain ⟨-, tx', hr, rfl⟩ := hx
        exact hkeep _ (Tx.All.releaseSavepoint hn hr)
      | rollbackTo name =>
        obtain ⟨tx', hr, rfl⟩ := hx
        exact hkeep _ (Tx.All.rollbackTo hn hr)
      | data w => obtain ⟨-, rfl⟩ := hx; exact hkeep _ (Tx.All.write hn hn.1)
      | _ => exact hsql.elim

/-- An await of the command itself. -/
theorem step_apply {op : Await W E} {effects : List E} {r : Except Thrown (op.Answer A)}
    (h : Inv hash receipts₀ identities db stages) (hid : identities i = some identity)
    (hst : StageInv hash receipts₀ db i identity (.applying effects)) (hop : InCommand op)
    (ha : answers hash db i op r db') :
    StepKeeps hash receipts₀ identities db' stages i (.applying (effects ++ registered op)) := by
  obtain ⟨hs, h₀, hreg, hran⟩ := hst
  cases op with
  | register effect =>
    obtain ⟨-, rfl⟩ := ha
    refine h.local ⟨rfl, rfl, rfl, fun _ _ => rfl, fun _ _ => rfl,
      fun j hj => Function.update_of_ne hj _ _, fun _ _ => rfl⟩ (fun lock hl => Or.inl hl) ?_
    rw [hid]
    refine ⟨hs, h₀, ?_, hran⟩
    rw [← hreg]
    exact Function.update_self i _ db.registered
  | query c sql =>
    cases c with
    | command =>
      obtain ⟨s, rfl, hs', hl⟩ := inCommand_session hop hs ha
      refine h.setSession s (fun tx locks he lock hm => Or.inl (hl tx locks he lock hm)) ?_
      have hreg' : registered (E := E) (.query .command sql) = [] := rfl
      rw [hid, hreg', List.append_nil]
      refine ⟨?_, h₀, hreg, hran⟩
      rw [setSession_sessions]
      exact hs'
    | _ => exact hop.elim
  | _ => exact hop.elim

theorem step_insert {r : Except Thrown Unit} {effects : List E} {receipt : Receipt}
    (h : Inv hash receipts₀ identities db stages) (hid : identities i = some identity)
    (hst : StageInv hash receipts₀ db i identity (.applying effects)) {actor commandId : String}
    (hkey : (actor, commandId) = keyOf identity)
    (hf : receipt.fingerprint = identity.fingerprint)
    (ha : answers (A := A) hash db i (.query .command (.insertReceipt actor commandId receipt))
      r db') :
    StepKeeps hash receipts₀ identities db' stages i (next (A := A) identity (.applying effects)
      (.query .command (.insertReceipt actor commandId receipt)) r) := by
  obtain ⟨hs, h₀, hreg, hran⟩ := hst
  have hidle : db.sessions i ≠ .idle := by
    rcases hs with hs | ⟨tx, locks, hs, -⟩ <;> rw [hs] <;> intro he <;> cases he
  cases r with
  | error e =>
    obtain ⟨s, rfl, hd⟩ :=
      degrades_of_error (A := A) (.insertReceipt actor commandId receipt) hidle ha
    exact step_failing h hid hd (fun _ => h₀) hran
  | ok _ =>
    obtain ⟨db₁, hx, rfl⟩ := executes_of_ok (A := A) ha
    unfold Executes at hx
    rcases hs with hs | ⟨tx, locks, hs, hn, hl, hnone⟩ <;> rw [hs] at hx
    · exact hx.elim
    · obtain ⟨hab, -, rfl⟩ := hx
      refine h.setSession _ (fun tx' locks' he lock hm => ?_) ?_
      · cases he
        exact Or.inl ⟨_, _, hs, hm⟩
      · rw [hid]
        refine ⟨Or.inr ⟨_, _, setSession_sessions db i _, ?_, hab, hl, hnone⟩, hf, h₀, hreg, hran⟩
        show (_, receipt) :: tx.content.receipts = _
        rw [hn.1, hkey]

/-- A rollback, in the command's own refusal or in the `catch` block. -/
theorem step_rollback {r : Except Thrown Unit} {applied : Bool}
    (h : Inv hash receipts₀ identities db stages) (hid : identities i = some identity)
    (h₀ : applied = true → receipts₀ (keyOf identity) = none) (hran : db.ran i = [])
    (ha : answers (A := A) hash db i (.query .command .rollback) r db') :
    StepKeeps hash receipts₀ identities db' stages i (.ended applied) := by
  obtain ⟨s, rfl, hs⟩ := outside_of_rollback ha
  refine h.setOutside hs ?_
  rw [hid]
  refine ⟨?_, h₀, hran⟩
  rw [setSession_sessions]
  exact hs

/-- The server executed the commit, whether or not the answer arrived. -/
theorem commits_of_executes {tx : Tx (Pending W)} {locks : List Int} {s : Session W}
    (hs : db.sessions i = .inTx tx locks) (hab : tx.aborted = false) {r : Unit}
    {db₁ : Database ι W E} (hx : Executes (A := A) hash db i .commit r db₁)
    (hout : Session.Outside s) : Commits db (db₁.setSession i s) i tx.content := by
  unfold Executes at hx
  rw [hs] at hx
  simp only [ExecutesInTx, hab, Bool.false_eq_true, if_false] at hx
  subst hx
  rw [setSession_setSession]
  exact ⟨fun _ => rfl, fun _ => rfl, fun j hj => Function.update_of_ne hj _ _,
    by rw [setSession_sessions]; exact hout, fun j hj => Function.update_of_ne hj _ _,
    fun _ _ => rfl, fun _ => rfl, fun _ => rfl⟩

theorem executes_commit_session {tx : Tx (Pending W)} {locks : List Int}
    (hs : db.sessions i = .inTx tx locks) {r : Unit} {db₁ : Database ι W E}
    (hx : Executes (A := A) hash db i .commit r db₁) : db₁.sessions i = .idle := by
  unfold Executes at hx
  rw [hs] at hx
  rw [hx, setSession_sessions]

theorem step_commit {r : Except Thrown Unit} {effects : List E} {receipt : Receipt}
    (h : Inv hash receipts₀ identities db stages) (hid : identities i = some identity)
    (hst : StageInv hash receipts₀ db i identity (.stored receipt effects))
    (ha : answers (A := A) hash db i (.query .command .commit) r db') :
    StepKeeps hash receipts₀ identities db' stages i
      (next (A := A) identity (.stored receipt effects) (.query .command .commit) r) := by
  obtain ⟨hs, hf, h₀, hreg, hran⟩ := hst
  have hlost : Session.Outside (W := W) .lost := fun tx locks he => by cases he
  have hidle : Session.Outside (W := W) .idle := fun tx locks he => by cases he
  rcases ha with ⟨e, rfl, -, rfl⟩ | ⟨e, rfl, hd⟩ | ⟨e, rfl, rfl⟩ | ⟨e, a, db₁, rfl, hx, rfl⟩ |
    ⟨a, db₁, rfl, hx, rfl⟩
  · rw [← setSession_self db' i]
    exact step_failing h hid (Or.inl rfl) (fun _ => h₀) hran
  · unfold Refuses at hd
    rcases hs with hs | ⟨tx, locks, hs, -⟩ <;> rw [hs] at hd
    · exact hd.elim
    · subst hd
      refine h.setOutside hidle ?_
      rw [hid]
      exact ⟨fun _ => h₀, hran⟩
  · exact step_failing h hid (Or.inr (Or.inl rfl)) (fun _ => h₀) hran
  · rcases hs with hs | ⟨tx, locks, hs, hp, hab, hl, hn⟩
    · simp only [Executes, hs] at hx
    · have hc := commits_of_executes (A := A) hs hab hx hlost
      refine h.commits hid ⟨Or.inr ⟨tx, locks, hs, hp, hab, hl, hn⟩, hf, h₀, hreg, hran⟩ hs hc ?_
      exact ⟨fun _ => h₀, (hc.ran i).trans hran⟩
  · rcases hs with hs | ⟨tx, locks, hs, hp, hab, hl, hn⟩
    · simp only [Executes, hs] at hx
    · have hsess := executes_commit_session (A := A) hs hx
      have hc := commits_of_executes (A := A) hs hab hx hidle
      rw [← hsess, setSession_self] at hc
      have hc' : Commits db (db₁.acknowledge i .commit) i tx.content :=
        ⟨hc.receipts, hc.committer, hc.committedWrites, hc.outside, hc.sessions,
          fun j hj => (Function.update_of_ne hj _ _).trans (hc.commitReturned j hj),
          hc.registered, hc.ran⟩
      have hsame : tx.content.receipts.lookup (keyOf identity) = some receipt := by simp [hp]
      refine h.commits hid ⟨Or.inr ⟨tx, locks, hs, hp, hab, hl, hn⟩, hf, h₀, hreg, hran⟩ hs hc' ?_
      refine ⟨hc'.outside, ?_, hf, Function.update_self i _ db₁.commitReturned, ?_,
        Or.inl ⟨rfl, ?_⟩⟩
      · rw [hc'.receipts, hsame]
        rfl
      · rw [hc'.registered, hc'.ran, hreg, hran]
        rfl
      · rw [hc'.committer, hsame]
        rfl

/-- Committing an empty transaction changes nothing. -/
theorem commitWrites_empty (db : Database ι W E) (i : ι) :
    db.commitWrites i Pending.empty = db := by
  simp [Database.commitWrites, Pending.empty]

theorem step_replay {r : Except Thrown Unit} {receipt : Receipt}
    (h : Inv hash receipts₀ identities db stages) (hid : identities i = some identity)
    (hst : StageInv hash receipts₀ db i identity (.replaying receipt))
    (ha : answers (A := A) hash db i (.query .command .commit) r db') :
    StepKeeps hash receipts₀ identities db' stages i
      (next (A := A) identity (.replaying receipt) (.query .command .commit) r) := by
  obtain ⟨hs, hr, hf, hreg, hran⟩ := hst
  have hidle : Session.Outside (W := W) .idle := fun tx locks he => by cases he
  have hexec : ∀ {r : Unit} {db₁ : Database ι W E},
      Executes (A := A) hash db i .commit r db₁ → db₁ = db.setSession i .idle := by
    intro r db₁ hx
    unfold Executes at hx
    rcases hs with hs | ⟨tx, locks, hs, rfl⟩ <;> rw [hs] at hx
    · exact hx.elim
    · rw [hx]
      show (db.commitWrites i Pending.empty).setSession i .idle = _
      rw [commitWrites_empty]
  have hfail : ∀ s, Degrades (db.sessions i) s → StepKeeps hash receipts₀ identities
      (db.setSession i s) stages i (.failing false) :=
    fun s hd => step_failing h hid hd (fun h => by cases h) hran
  rcases ha with ⟨e, rfl, -, rfl⟩ | ⟨e, rfl, hd⟩ | ⟨e, rfl, rfl⟩ | ⟨e, a, db₁, rfl, hx, rfl⟩ |
    ⟨a, db₁, rfl, hx, rfl⟩
  · rw [← setSession_self db' i]
    exact hfail _ (Or.inl rfl)
  · unfold Refuses at hd
    rcases hs with hs | ⟨tx, locks, hs, -⟩ <;> rw [hs] at hd
    · exact hd.elim
    · subst hd
      refine h.setOutside hidle ?_
      rw [hid]
      exact ⟨fun h => (by cases h), hran⟩
  · exact hfail _ (Or.inr (Or.inl rfl))
  · rw [hexec hx, setSession_setSession]
    exact hfail _ (Or.inr (Or.inl rfl))
  · rw [hexec hx]
    refine h.local ⟨rfl, rfl, rfl, fun j hj => Function.update_of_ne hj _ _,
      fun j hj => Function.update_of_ne hj _ _, fun _ _ => rfl, fun _ _ => rfl⟩ ?_ ?_
    · rintro lock ⟨tx, locks, he, -⟩
      have he' : (db.setSession i .idle).sessions i = .inTx tx locks := he
      rw [setSession_sessions] at he'
      cases he'
    · rw [hid]
      refine ⟨?_, hr, hf, Function.update_self i _ _, ?_, Or.inr ⟨rfl, hreg⟩⟩
      · show Session.Outside ((db.setSession i .idle).sessions i)
        rw [setSession_sessions]
        exact hidle
      · show db.registered i = db.ran i ++ []
        rw [hreg, hran]
        rfl

theorem step_release {r : Except Thrown Unit} {stage : Stage E}
    (h : Inv hash receipts₀ identities db stages) (hid : identities i = some identity)
    (hst : StageInv hash receipts₀ db i identity stage)
    (hstage : (∃ applied, stage = .ended applied) ∨
      ∃ fresh receipt todo, stage = .committed fresh receipt todo)
    (ha : answers (A := A) hash db i (.release .command) r db') :
    StepKeeps hash receipts₀ identities db' stages i stage := by
  obtain ⟨-, -, rfl⟩ := ha
  have hout : Session.Outside (W := W) .closed := fun tx locks he => by cases he
  refine h.setOutside hout ?_
  rw [hid]
  rcases hstage with ⟨applied, rfl⟩ | ⟨fresh, receipt, todo, rfl⟩
  · exact ⟨by rw [setSession_sessions]; exact hout, hst.2⟩
  · exact ⟨by rw [setSession_sessions]; exact hout, hst.2⟩

theorem step_effect {r : Except Thrown Unit} {fresh : Bool} {receipt : Receipt} {effect : E}
    {todo : List E} (h : Inv hash receipts₀ identities db stages)
    (hid : identities i = some identity)
    (hst : StageInv hash receipts₀ db i identity (.committed fresh receipt (effect :: todo)))
    (ha : answers (A := A) hash db i (.runEffect effect) r db') :
    StepKeeps hash receipts₀ identities db' stages i (.committed fresh receipt todo) := by
  obtain ⟨hs, hr, hf, hc, hreg, hfresh⟩ := hst
  subst ha
  refine h.local ⟨rfl, rfl, rfl, fun _ _ => rfl, fun _ _ => rfl, fun _ _ => rfl,
    fun j hj => Function.update_of_ne hj _ _⟩ (fun lock hl => Or.inl hl) ?_
  rw [hid]
  refine ⟨hs, hr, hf, hc, ?_, hfresh⟩
  simp [hreg]

/-- Every answer to an allowed await keeps the invariant. -/
theorem step_keeps {op : Await W E} {r : Except Thrown (op.Answer A)}
    (h : Inv hash receipts₀ identities db stages) (hid : identities i = some identity)
    (hop : Allowed identity (stages i) op) (ha : answers hash db i op r db') :
    Inv hash receipts₀ identities db'
      (Function.update stages i (next identity (stages i) op r)) := by
  have hst : StageInv hash receipts₀ db i identity (stages i) := by
    have hcall := h.call i
    rw [hid] at hcall
    exact hcall
  generalize stages i = stage at hop hst ⊢
  cases hop with
  | connect => exact step_connect h hid hst ha
  | begin => exact step_begin h hid hst ha
  | lock => exact step_lock h hid hst rfl ha
  | select => exact step_select h hid hst rfl ha
  | body hop =>
    rw [next_body identity hop]
    exact step_apply h hid hst hop ha
  | insert hf => exact step_insert h hid hst rfl hf ha
  | refuse => exact step_rollback h hid (fun _ => hst.2.1) hst.2.2.2 ha
  | commit => exact step_commit h hid hst ha
  | recommit => exact step_replay h hid hst ha
  | catching => exact step_rollback h hid hst.1 hst.2 ha
  | rollbackAgain => exact step_rollback h hid hst.2.1 hst.2.2 ha
  | releaseEnded => exact step_release h hid hst (Or.inl ⟨_, rfl⟩) ha
  | releaseCommitted =>
    obtain rfl : r = .ok () := ha.2.1
    rw [next_release]
    exact step_release h hid hst (Or.inr ⟨_, _, _, rfl⟩) ha
  | effect => exact step_effect h hid hst ha

/-- A lost connection ends the transaction of its call and nothing else. -/
theorem step_dies (h : Inv hash receipts₀ identities db stages) (hd : dies db db') :
    Inv hash receipts₀ identities db' stages := by
  obtain ⟨i, hs, rfl⟩ := hd
  have hout : Session.Outside (W := W) .lost := fun tx locks he => by cases he
  have hcall := h.call i
  rw [← Function.update_eq_self i stages]
  refine h.setOutside hout ?_
  cases hid : identities i with
  | none =>
    rw [hid] at hcall
    exact (hs hcall.2.1).elim
  | some identity =>
    rw [hid] at hcall
    have hlost : (db.setSession i .lost).sessions i = .lost := setSession_sessions db i _
    show StageInv hash receipts₀ (db.setSession i .lost) i identity (stages i)
    cases hstage : stages i with
    | start => rw [hstage] at hcall; exact (hs hcall.1).elim
    | connected => rw [hstage] at hcall; exact ⟨Or.inr hlost, hcall.2⟩
    | committed fresh receipt todo =>
      rw [hstage] at hcall
      exact ⟨by rw [hlost]; exact hout, hcall.2⟩
    | failing applied => rw [hstage] at hcall; exact hcall
    | ended applied => rw [hstage] at hcall; exact ⟨by rw [hlost]; exact hout, hcall.2⟩
    | broken => rw [hstage] at hcall; exact hcall.elim
    | _ => rw [hstage] at hcall; exact ⟨Or.inl hlost, hcall.2⟩

end Steps

end FactoryServer.CommandInvariant
