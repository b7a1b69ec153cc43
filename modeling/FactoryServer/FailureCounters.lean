import FactoryServer.GuardedRuns
import FactoryServer.SerialChains

/-!
# Failure counters of the audit trail

The audit service counts the failed appends of each action type in memory and mirrors the
count to a table. The writes of one action type are chained, so that an increment and a
clear reach the table in the order in which they were recorded. A process that starts
loads the table; its appends do not wait for the answer, which replaces what they have
counted meanwhile.
-/

namespace FactoryServer.FailureCounters

open GuardedRuns SerialChains

/-- A write of the persisted counter. -/
inductive CounterOp where
  /-- `incrementFailureCount`. -/
  | increment
  /-- `clearFailureCount`. -/
  | clear
  deriving DecidableEq

/-- What a write makes of a count; an action type without a row counts zero. -/
def CounterOp.applyTo : CounterOp → ℕ → ℕ
  | .increment, count => count + 1
  | .clear, _ => 0

/-- How far the load of `onModuleInit` has come. -/
inductive LoadStage where
  /-- The query is on its way. -/
  | asking
  /-- The database has answered with the rows of the table. -/
  | answering (rows : String → ℕ)
  /-- The counters were set, or the load has failed or timed out. -/
  | finished

/-- The audit service, the table and the history. -/
structure CounterState where
  /-- `failureCounts`. -/
  failureCounts : String → ℕ := fun _ => 0
  /-- `counterDbWriteChain` and the writes chained on it. -/
  counterDbWriteChain : Chains String CounterOp := {}
  /-- The load. -/
  load : LoadStage := .asking
  /-- `audit_failure_counts`. -/
  table : String → ℕ
  /-- The failures and recoveries of an action type, in the order in which they occurred. -/
  occurred : String → List CounterOp := fun _ => []
  /-- The writes of an action type that the table has applied, in their order. -/
  applied : String → List CounterOp := fun _ => []

/-- The first process starts over a table. -/
def CounterState.start (table : String → ℕ) : CounterState := { table := table }

/-- The writes of an action type that have not reached the table. -/
def CounterState.pending (s : CounterState) (actionType : String) : List CounterOp :=
  s.counterDbWriteChain.pending actionType

/-- What the table counts once the writes chained so far have reached it. -/
def expected (s : CounterState) (actionType : String) : ℕ :=
  (s.pending actionType).foldl (fun count op => op.applyTo count) (s.table actionType)

/-- `chainCounterWrite`, and what it is for. -/
def chainCounterWrite (s : CounterState) (actionType : String) (op : CounterOp) : CounterState :=
  { s with
    counterDbWriteChain := s.counterDbWriteChain.chain actionType op
    occurred := Function.update s.occurred actionType (s.occurred actionType ++ [op]) }

/-- `recordFailure`. -/
def recordFailure (s : CounterState) (actionType : String) : CounterState :=
  let count := s.failureCounts actionType + 1
  chainCounterWrite { s with failureCounts := Function.update s.failureCounts actionType count }
    actionType .increment

/-- `recordRecovery`. -/
def recordRecovery (s : CounterState) (actionType : String) : CounterState :=
  if s.failureCounts actionType = 0 then s
  else
    chainCounterWrite { s with failureCounts := Function.update s.failureCounts actionType 0 }
      actionType .clear

/-- A chained write starts once the promise it waits for has settled. -/
def startWrite (s : CounterState) (id : ℕ) : CounterState :=
  match s.counterDbWriteChain.links[id]? with
  | some link =>
    if link.stage = .waiting ∧ s.counterDbWriteChain.isReady link = true then
      { s with counterDbWriteChain := s.counterDbWriteChain.setStage id .running }
    else s
  | none => s

/-- The database applies the write or not. -/
def executeWrite (s : CounterState) (id : ℕ) (applied : Bool) : CounterState :=
  match s.counterDbWriteChain.links[id]? with
  | some link =>
    if link.stage = .running then
      let executed := { s with counterDbWriteChain := s.counterDbWriteChain.setStage id .executed }
      if applied then
        { executed with
          table := Function.update s.table link.key (link.op.applyTo (s.table link.key))
          applied := Function.update s.applied link.key (s.applied link.key ++ [link.op]) }
      else executed
    else s
  | none => s

/-- The promise of a write settles; its rejection is caught. -/
def settleWrite (s : CounterState) (id : ℕ) : CounterState :=
  match s.counterDbWriteChain.links[id]? with
  | some link =>
    if link.stage = .executed then
      { s with counterDbWriteChain := s.counterDbWriteChain.setStage id .settled }
    else s
  | none => s

/-- The `finally` of a write: the chain is dropped where nothing newer has joined it. -/
def finishWrite (s : CounterState) (id : ℕ) : CounterState :=
  match s.counterDbWriteChain.links[id]? with
  | some link =>
    if s.counterDbWriteChain.isSettled id = true ∧
        s.counterDbWriteChain.tail link.key = some id then
      { s with counterDbWriteChain := s.counterDbWriteChain.forget link.key }
    else s
  | none => s

/-- The answer of the load arrives: every row sets its counter. -/
def hydrate (s : CounterState) : CounterState :=
  match s.load with
  | .answering rows =>
    { s with
      failureCounts := fun actionType =>
        if rows actionType = 0 then s.failureCounts actionType else rows actionType
      load := .finished }
  | _ => s

/-- What may happen next. -/
inductive CounterAction where
  /-- An append of an action type fails. -/
  | appendFailed (actionType : String)
  /-- An append of an action type succeeds. -/
  | appendSucceeded (actionType : String)
  /-- A chained write starts. -/
  | start (id : ℕ)
  /-- The database executes a write, or rejects it. -/
  | execute (id : ℕ) (applied : Bool)
  /-- The promise of a write settles. -/
  | settle (id : ℕ)
  /-- The `finally` of a write runs. -/
  | finish (id : ℕ)
  /-- The database reads the table for the load. -/
  | query
  /-- The answer of the load arrives. -/
  | answer
  /-- The load fails, or is given up after five seconds. -/
  | loadFailed
  /-- The process ends and another one starts. -/
  | restart

/-- One step. -/
def step (s : CounterState) : CounterAction → CounterState
  | .appendFailed actionType => recordFailure s actionType
  | .appendSucceeded actionType => recordRecovery s actionType
  | .start id => startWrite s id
  | .execute id applied => executeWrite s id applied
  | .settle id => settleWrite s id
  | .finish id => finishWrite s id
  | .query =>
    match s.load with
    | .asking => { s with load := .answering s.table }
    | _ => s
  | .answer => hydrate s
  | .loadFailed => { s with load := .finished }
  | .restart => { table := s.table, occurred := s.occurred, applied := s.applied }

/-! ## What a step does to one action type -/

/-- A step in which the database rejects a write. -/
def CounterAction.rejects : CounterAction → Bool
  | .execute _ applied => !applied
  | _ => false

/-- What a step does to the counter, the pending writes, the table and the history of an action
type; whether it may reject a write. -/
inductive Change (rejects : Bool) (s s' : CounterState) (key : String) : Prop where
  /-- Nothing changes. -/
  | same (hcount : s'.failureCounts key = s.failureCounts key)
      (hpending : s'.pending key = s.pending key) (htable : s'.table key = s.table key)
      (hoccurred : s'.occurred key = s.occurred key) (happlied : s'.applied key = s.applied key)
  /-- A failure or recovery is counted, and its write is chained. -/
  | recorded (op : CounterOp) (hcount : s'.failureCounts key = op.applyTo (s.failureCounts key))
      (hpending : s'.pending key = s.pending key ++ [op]) (htable : s'.table key = s.table key)
      (hoccurred : s'.occurred key = s.occurred key ++ [op])
      (happlied : s'.applied key = s.applied key)
  /-- The first pending write is applied. -/
  | written (op : CounterOp) (hcount : s'.failureCounts key = s.failureCounts key)
      (hpending : s.pending key = op :: s'.pending key)
      (htable : s'.table key = op.applyTo (s.table key))
      (hoccurred : s'.occurred key = s.occurred key)
      (happlied : s'.applied key = s.applied key ++ [op])
  /-- The first pending write is rejected. -/
  | refused (op : CounterOp) (hrejects : rejects = true)
      (hcount : s'.failureCounts key = s.failureCounts key)
      (hpending : s.pending key = op :: s'.pending key) (htable : s'.table key = s.table key)
      (hoccurred : s'.occurred key = s.occurred key) (happlied : s'.applied key = s.applied key)

/-- A write that is chained. -/
theorem change_chained (s : CounterState) (actionType : String) (op : CounterOp) {count : ℕ}
    (hcount : count = op.applyTo (s.failureCounts actionType)) (key : String) :
    Change false s (chainCounterWrite { s with
      failureCounts := Function.update s.failureCounts actionType count } actionType op) key := by
  by_cases hsame : key = actionType
  · subst hsame
    refine .recorded op ?_ ?_ rfl (Function.update_self key _ _) rfl
    · exact (Function.update_self key _ _).trans hcount
    · refine (pending_chain s.counterDbWriteChain key key op).trans ?_
      rw [if_pos rfl]
      rfl
  · refine .same (Function.update_of_ne hsame _ _) ?_ rfl (Function.update_of_ne hsame _ _) rfl
    refine (pending_chain s.counterDbWriteChain actionType key op).trans ?_
    rw [if_neg hsame, List.append_nil]
    rfl

/-- A write that starts has still to reach the table. -/
theorem change_startWrite (s : CounterState) (id : ℕ) (key : String) :
    Change false s (startWrite s id) key := by
  rw [startWrite]
  split
  next link hlink =>
    split
    next hready =>
      refine .same rfl (pending_setStage .running hlink ?_ key) rfl rfl rfl
      rw [hready.1]
      rfl
    next => exact .same rfl rfl rfl rfl rfl
  next => exact .same rfl rfl rfl rfl rfl

/-- The write that the database executes is the first of its action type that has not reached
the table. -/
theorem change_executeWrite {s : CounterState} (hserial : s.counterDbWriteChain.Serial) (id : ℕ)
    (applied : Bool) (key : String) : Change (!applied) s (executeWrite s id applied) key := by
  rw [executeWrite]
  split
  next link hlink =>
    split
    next hrunning =>
      by_cases hsame : key = link.key
      · subst hsame
        have hpending := hserial.pending_execute hlink hrunning
        cases applied with
        | true =>
          exact .written link.op rfl hpending (Function.update_self link.key _ _) rfl
            (Function.update_self link.key _ _)
        | false => exact .refused link.op rfl rfl hpending rfl rfl rfl
      · have hother := pending_setStage_other .executed hlink (Ne.symm hsame)
        cases applied with
        | true =>
          exact .same rfl hother (Function.update_of_ne hsame _ _) rfl
            (Function.update_of_ne hsame _ _)
        | false => exact .same rfl hother rfl rfl rfl
    next => exact .same rfl rfl rfl rfl rfl
  next => exact .same rfl rfl rfl rfl rfl

/-- A write that settles has reached the table, or was rejected, before. -/
theorem change_settleWrite (s : CounterState) (id : ℕ) (key : String) :
    Change false s (settleWrite s id) key := by
  rw [settleWrite]
  split
  next link hlink =>
    split
    next hexecuted =>
      refine .same rfl (pending_setStage .settled hlink ?_ key) rfl rfl rfl
      rw [hexecuted]
      rfl
    next => exact .same rfl rfl rfl rfl rfl
  next => exact .same rfl rfl rfl rfl rfl

/-- Dropping a chain changes no write. -/
theorem change_finishWrite (s : CounterState) (id : ℕ) (key : String) :
    Change false s (finishWrite s id) key := by
  rw [finishWrite]
  split
  · split <;> exact .same rfl rfl rfl rfl rfl
  · exact .same rfl rfl rfl rfl rfl

/-- What a step other than a restart or the answer of the load does to an action type. -/
theorem change_step {s : CounterState} (hserial : s.counterDbWriteChain.Serial)
    {a : CounterAction} (hrestart : a ≠ .restart) (hanswer : a ≠ .answer) (key : String) :
    Change a.rejects s (step s a) key := by
  cases a with
  | appendFailed actionType => exact change_chained s actionType .increment rfl key
  | appendSucceeded actionType =>
    simp only [step, recordRecovery]
    split
    · exact .same rfl rfl rfl rfl rfl
    · exact change_chained s actionType .clear rfl key
  | start id => exact change_startWrite s id key
  | execute id applied => exact change_executeWrite hserial id applied key
  | settle id => exact change_settleWrite s id key
  | finish id => exact change_finishWrite s id key
  | query =>
    simp only [step]
    split <;> exact .same rfl rfl rfl rfl rfl
  | answer => exact absurd rfl hanswer
  | loadFailed => exact .same rfl rfl rfl rfl rfl
  | restart => exact absurd rfl hrestart

/-- The writes of an action type stay one after the other. -/
theorem serial_step (s : CounterState) (a : CounterAction)
    (h : s.counterDbWriteChain.Serial) : (step s a).counterDbWriteChain.Serial := by
  have hmoves : ∀ {id link} stage, s.counterDbWriteChain.links[id]? = some link →
      link.stage ≠ .waiting → link.stage ≠ .settled →
        (s.counterDbWriteChain.setStage id stage).Serial := fun stage hlink hstarted hnot =>
    h.setStage stage hlink hnot (h.order _ _ hlink hstarted)
  cases a with
  | appendFailed actionType => exact h.chain actionType .increment
  | appendSucceeded actionType =>
    simp only [step, recordRecovery]
    split
    · exact h
    · exact h.chain actionType .clear
  | start id =>
    simp only [step, startWrite]
    split
    next link hlink =>
      split
      next hready =>
        have hnot : link.stage ≠ .settled := hready.1 ▸ LinkStage.noConfusion
        exact h.setStage .running hlink hnot (h.earlier_of_ready hlink hready.2)
      next => exact h
    next => exact h
  | execute id applied =>
    simp only [step, executeWrite]
    split
    next link hlink =>
      split
      next hrunning =>
        have hexecuted := hmoves .executed hlink (hrunning ▸ LinkStage.noConfusion)
          (hrunning ▸ LinkStage.noConfusion)
        split <;> exact hexecuted
      next => exact h
    next => exact h
  | settle id =>
    simp only [step, settleWrite]
    split
    next link hlink =>
      split
      next hexecuted =>
        exact hmoves .settled hlink (hexecuted ▸ LinkStage.noConfusion)
          (hexecuted ▸ LinkStage.noConfusion)
      next => exact h
    next => exact h
  | finish id =>
    simp only [step, finishWrite]
    split
    next link hlink =>
      split
      next htail => exact h.forget htail.2 htail.1
      next => exact h
    next => exact h
  | query =>
    simp only [step]
    split <;> exact h
  | answer =>
    simp only [step, hydrate]
    split <;> exact h
  | loadFailed => exact h
  | restart => exact serial_start

/-! ## The order of the writes -/

/-- The writes that the table has applied, and then those that have not reached it, are those
of the failures and recoveries in the order in which they occurred. -/
def Ordered (s : CounterState) (key : String) : Prop :=
  (s.applied key ++ s.pending key).Sublist (s.occurred key)

/-- A change of an action type keeps the order. -/
theorem ordered_change {rejects : Bool} {s s' : CounterState} {key : String} (h : Ordered s key)
    (hchange : Change rejects s s' key) : Ordered s' key := by
  rw [Ordered] at h ⊢
  cases hchange with
  | same hcount hpending htable hoccurred happlied =>
    rw [hpending, hoccurred, happlied]
    exact h
  | recorded op hcount hpending htable hoccurred happlied =>
    rw [hpending, hoccurred, happlied, ← List.append_assoc]
    exact h.append (List.Sublist.refl [op])
  | written op hcount hpending htable hoccurred happlied =>
    rw [hpending] at h
    rw [hoccurred, happlied, List.append_assoc]
    exact h
  | refused op hrejects hcount hpending htable hoccurred happlied =>
    rw [hpending] at h
    rw [hoccurred, happlied]
    exact ((List.sublist_cons_self op _).append_left _).trans h

/-- Every step keeps the order. -/
theorem ordered_step {s : CounterState} (hserial : s.counterDbWriteChain.Serial)
    (a : CounterAction) {key : String} (h : Ordered s key) : Ordered (step s a) key := by
  by_cases hrestart : a = .restart
  · subst hrestart
    have happlied : (s.applied key).Sublist (s.occurred key) :=
      (List.sublist_append_left _ _).trans h
    have hnone : (step s .restart).pending key = [] := rfl
    rw [Ordered, hnone, List.append_nil]
    exact happlied
  · by_cases hanswer : a = .answer
    · subst hanswer
      simp only [step, hydrate]
      split <;> exact h
    · exact ordered_change h (change_step hserial hrestart hanswer key)

/-! ## The counts -/

/-- The count in memory is what the chained writes make of the persisted one. -/
def Counted (s : CounterState) (key : String) : Prop := s.failureCounts key = expected s key

/-- A write that the database is asked for is applied. The counts that the load brings are
those that the writes chained so far make of the table, and the load does not fail while the
table has counts that the memory does not have. -/
def LoadsInTime (s : CounterState) : CounterAction → Prop
  | .execute _ applied => applied = true
  | .answer => ∀ rows, s.load = .answering rows → ∀ key, rows key ≠ 0 → rows key = expected s key
  | .loadFailed => s.load ≠ .finished → ∀ key, s.table key ≠ 0 → Counted s key
  | _ => True

/-- Before the load is over, the memory counts what the writes make of the table, or the table
has a row that no pending write clears. -/
def CountedOrLoaded (s : CounterState) (key : String) : Prop :=
  Counted s key ∨ s.table key ≠ 0 ∧ .clear ∉ s.pending key

/-- The change of an action type, with no write rejected, keeps what is counted. -/
theorem counted_change {s s' : CounterState} {key : String} (h : Counted s key)
    (hchange : Change false s s' key) : Counted s' key := by
  rw [Counted, expected] at h ⊢
  cases hchange with
  | same hcount hpending htable hoccurred happlied =>
    rw [hcount, hpending, htable]
    exact h
  | recorded op hcount hpending htable hoccurred happlied =>
    rw [hcount, hpending, htable, List.foldl_append, ← h]
    rfl
  | written op hcount hpending htable hoccurred happlied =>
    rw [hpending, List.foldl_cons] at h
    rw [hcount, htable]
    exact h
  | refused op hrejects hcount hpending htable hoccurred happlied => cases hrejects

/-- The same before the load is over: a recovery clears the row. -/
theorem countedOrLoaded_change {s s' : CounterState} {key : String} (h : CountedOrLoaded s key)
    (hchange : Change false s s' key) : CountedOrLoaded s' key := by
  obtain hcounted | ⟨hrow, hclear⟩ := h
  · exact .inl (counted_change hcounted hchange)
  · cases hchange with
    | same hcount hpending htable hoccurred happlied =>
      exact .inr ⟨htable ▸ hrow, hpending ▸ hclear⟩
    | recorded op hcount hpending htable hoccurred happlied =>
      cases op with
      | increment =>
        refine .inr ⟨htable ▸ hrow, ?_⟩
        rw [hpending, List.mem_append, not_or]
        exact ⟨hclear, by decide⟩
      | clear =>
        refine .inl ?_
        rw [Counted, expected, hcount, hpending, List.foldl_append]
        rfl
    | written op hcount hpending htable hoccurred happlied =>
      rw [hpending, List.mem_cons, not_or] at hclear
      cases op with
      | increment => exact .inr ⟨htable ▸ Nat.succ_ne_zero _, hclear.2⟩
      | clear => exact absurd rfl hclear.1
    | refused op hrejects hcount hpending htable hoccurred happlied => cases hrejects

/-- What holds of the counts, by how far the load has come. -/
def CountsKept (s : CounterState) (key : String) : Prop :=
  match s.load with
  | .asking => CountedOrLoaded s key
  | .answering rows => CountedOrLoaded s key ∧ (rows key = 0 → Counted s key)
  | .finished => Counted s key

/-- The writes are serial and the counts are kept. -/
structure CountersKept (s : CounterState) : Prop where
  /-- The writes of an action type run one after the other. -/
  serial : s.counterDbWriteChain.Serial
  /-- The table has them in order. -/
  ordered : ∀ key, Ordered s key
  /-- The counts. -/
  counts : ∀ key, CountsKept s key

/-- A change that leaves the load where it is keeps the counts. -/
theorem countsKept_change {s s' : CounterState} {key : String} (h : CountsKept s key)
    (hload : s'.load = s.load) (hchange : Change false s s' key) : CountsKept s' key := by
  simp only [CountsKept, hload] at h ⊢
  cases hstage : s.load with
  | asking =>
    rw [hstage] at h
    exact countedOrLoaded_change h hchange
  | answering rows =>
    rw [hstage] at h
    exact ⟨countedOrLoaded_change h.1 hchange,
      fun hnone => counted_change (h.2 hnone) hchange⟩
  | finished =>
    rw [hstage] at h
    exact counted_change h hchange

/-- A step other than one of the load leaves the load where it is. -/
theorem load_step (s : CounterState) {a : CounterAction} (hrestart : a ≠ .restart)
    (hquery : a ≠ .query) (hanswer : a ≠ .answer) (hfailed : a ≠ .loadFailed) :
    (step s a).load = s.load := by
  cases a with
  | appendFailed actionType => rfl
  | appendSucceeded actionType =>
    simp only [step, recordRecovery]
    split <;> rfl
  | start id =>
    simp only [step, startWrite]
    split
    · split <;> rfl
    · rfl
  | execute id applied =>
    simp only [step, executeWrite]
    split
    · split
      · split <;> rfl
      · rfl
    · rfl
  | settle id =>
    simp only [step, settleWrite]
    split
    · split <;> rfl
    · rfl
  | finish id =>
    simp only [step, finishWrite]
    split
    · split <;> rfl
    · rfl
  | query => exact absurd rfl hquery
  | answer => exact absurd rfl hanswer
  | loadFailed => exact absurd rfl hfailed
  | restart => exact absurd rfl hrestart

/-- A row that is missing when the load reads the table is not counted by anybody else. -/
theorem counted_of_missing {s : CounterState} {key : String} (h : CountedOrLoaded s key)
    (hmissing : s.table key = 0) : Counted s key := by
  obtain hcounted | ⟨hrow, -⟩ := h
  · exact hcounted
  · exact absurd hmissing hrow

/-- The load reads the table. -/
theorem countsKept_query {s : CounterState} {key : String} (h : CountsKept s key) :
    CountsKept (step s .query) key := by
  simp only [step]
  split
  next hasking =>
    simp only [CountsKept, hasking] at h
    exact ⟨h, counted_of_missing h⟩
  next => exact h

/-- The answer of the load arrives in time. -/
theorem countsKept_answer {s : CounterState} {key : String} (h : CountsKept s key)
    (hintime : LoadsInTime s .answer) : CountsKept (step s .answer) key := by
  simp only [step, hydrate]
  split
  next rows hanswering =>
    simp only [CountsKept, hanswering] at h
    have hloaded := hintime rows hanswering key
    show (if rows key = 0 then s.failureCounts key else rows key) = expected s key
    split
    next hnone => exact h.2 hnone
    next hrow => exact hloaded hrow
  next => exact h

/-- The load fails while nothing is missing in memory. -/
theorem countsKept_loadFailed {s : CounterState} {key : String} (h : CountsKept s key)
    (hintime : LoadsInTime s .loadFailed) : CountsKept (step s .loadFailed) key := by
  show Counted s key
  have hcounted : s.load ≠ .finished → CountedOrLoaded s key → Counted s key := by
    intro hopen hkept
    by_cases hmissing : s.table key = 0
    · exact counted_of_missing hkept hmissing
    · exact hintime hopen key hmissing
  cases hload : s.load with
  | asking =>
    simp only [CountsKept, hload] at h
    exact hcounted (hload ▸ LoadStage.noConfusion) h
  | answering rows =>
    simp only [CountsKept, hload] at h
    exact hcounted (hload ▸ LoadStage.noConfusion) h.1
  | finished =>
    simp only [CountsKept, hload] at h
    exact h

/-- A step that loads in time and rejects no write keeps what holds of the counters. -/
theorem countersKept_step (s : CounterState) (a : CounterAction) (hintime : LoadsInTime s a)
    (h : CountersKept s) : CountersKept (step s a) where
  serial := serial_step s a h.serial
  ordered := fun key => ordered_step h.serial a (h.ordered key)
  counts := by
    intro key
    by_cases hrestart : a = .restart
    · subst hrestart
      by_cases hmissing : s.table key = 0
      · exact .inl hmissing.symm
      · exact .inr ⟨hmissing, List.not_mem_nil⟩
    by_cases hquery : a = .query
    · exact hquery ▸ countsKept_query (h.counts key)
    by_cases hanswer : a = .answer
    · subst hanswer
      exact countsKept_answer (h.counts key) hintime
    by_cases hfailed : a = .loadFailed
    · subst hfailed
      exact countsKept_loadFailed (h.counts key) hintime
    have hchange := change_step h.serial hrestart hanswer key
    have hrejects : a.rejects = false := by
      cases a with
      | execute id applied =>
        have happlied : applied = true := hintime
        rw [CounterAction.rejects, happlied]
        rfl
      | _ => rfl
    rw [hrejects] at hchange
    exact countsKept_change (h.counts key) (load_step s hrestart hquery hanswer hfailed) hchange

/-- Nothing is in flight: no write is pending and the load is over. -/
def Quiet (s : CounterState) : Prop :=
  (∀ link ∈ s.counterDbWriteChain.links, link.stage = .settled) ∧ s.load = .finished

/-- The table applies the writes in the order in which the failures and recoveries occurred,
and when nothing is in flight its counts are those in memory. -/
structure CountersAgree (s : CounterState) : Prop where
  /-- The writes applied are in order. -/
  ordered : ∀ key, (s.applied key).Sublist (s.occurred key)
  /-- The counts agree. -/
  agree : Quiet s → ∀ key, s.table key = s.failureCounts key

/-- In a run whose loads are in time and in which no counter write is rejected, the counters
agree in every state reached. -/
theorem counters_agree (table : String → ℕ) (actions : List CounterAction)
    (h : RunMeets step LoadsInTime (CounterState.start table) actions) :
    ∀ past, past <+: actions → CountersAgree (run step (CounterState.start table) past) := by
  intro past hpast
  have hstart : CountersKept (CounterState.start table) := by
    refine ⟨serial_start, fun _ => List.Sublist.refl _, fun key => ?_⟩
    by_cases hmissing : table key = 0
    · exact .inl hmissing.symm
    · exact .inr ⟨hmissing, List.not_mem_nil⟩
  have hkept := run_keeps countersKept_step (runMeets_initial h hpast) hstart
  set s := run step (CounterState.start table) past
  refine ⟨fun key => (List.sublist_append_left _ _).trans (hkept.ordered key), ?_⟩
  rintro ⟨hsettled, hfinished⟩ key
  have hnone : s.pending key = [] := by
    have hfilter : s.counterDbWriteChain.links.filter (fun link =>
        decide (link.key = key ∧ link.stage.isPending = true)) = [] := by
      refine List.filter_eq_nil_iff.mpr fun link hlink hpending => ?_
      have hstage := (of_decide_eq_true hpending).2
      rw [hsettled link hlink] at hstage
      cases hstage
    rw [CounterState.pending, Chains.pending, hfilter]
    rfl
  have hcounts := hkept.counts key
  simp only [CountsKept, hfinished, Counted, expected, hnone, List.foldl_nil] at hcounts
  exact hcounts.symm

/-- Three appends failed before the process started. -/
def threeFailures (actionType : String) : ℕ := if actionType = "MUTATION" then 3 else 0

/-- An append fails, and its write reaches the table. -/
def fourthFailure : List CounterAction :=
  [.appendFailed "MUTATION", .start 0, .execute 0 true, .settle 0, .finish 0]

/-- The load is over before the fourth append fails. -/
theorem fourthFailure_counted :
    RunMeets step LoadsInTime (CounterState.start threeFailures)
        (.query :: .answer :: fourthFailure) ∧
      CountersAgree (run step (CounterState.start threeFailures)
        (.query :: .answer :: fourthFailure)) := by
  have hmeets : RunMeets step LoadsInTime (CounterState.start threeFailures)
      (.query :: .answer :: fourthFailure) := by
    refine ⟨trivial, ?_, trivial, trivial, rfl, trivial, trivial, trivial⟩
    intro rows hload key _
    cases hload
    rfl
  exact ⟨hmeets, counters_agree _ _ hmeets _ (List.prefix_refl _)⟩

/-- An append fails while the answer of the load is on its way: the answer overwrites what was
counted, and the table is one ahead. -/
theorem failure_overwritten :
    ¬ ∀ (table : String → ℕ) (actions past : List CounterAction), past <+: actions →
      CountersAgree (run step (CounterState.start table) past) := by
  intro h
  have hagree := (h threeFailures _ (.query :: fourthFailure ++ [.answer])
    (List.prefix_refl _)).agree
  have hquiet : Quiet (run step (CounterState.start threeFailures)
      (.query :: fourthFailure ++ [.answer])) := by
    refine ⟨fun link hlink => ?_, rfl⟩
    obtain rfl | hnone := List.mem_cons.mp hlink
    · rfl
    · cases hnone
  have hcounts : 4 = 3 := hagree hquiet "MUTATION"
  exact absurd hcounts (by decide)

end FactoryServer.FailureCounters
