import FactoryServer.MutexInvariant
import Mathlib.Data.String.Basic
import Mathlib.Logic.Relation

/-!
# What the tournament mutex guarantees

In every interleaving callbacks that share an id exclude each other, grants
follow the order of arrival, and no lock is lost. A call without a repeated id
never waits for itself, neither directly nor around a cycle. One with a
repeated id does: the mutex is not reentrant.
-/

namespace FactoryServer.MutexSafety

open AsyncProgram TournamentMutex MutexInvariant

variable {ι Id T : Type}

section Observations

variable (c : State ι Id T) (i : ι) (id : Id)

/-- The callback of call `i` runs. -/
def Running : Prop := ∃ k, c.threads i = .await .callback k

/-- Call `i` waits for the lock of an id. -/
def Waits : Prop := ∃ t k w, c.threads i = .await (.wait t) k ∧ c.shared.waiters t = some w ∧
  w.id = id ∧ w.status = .pending

/-- Call `i` has been granted the lock of an id, and its `await` has not resumed yet. -/
def Granted : Prop := ∃ t k w, c.threads i = .await (.wait t) k ∧ c.shared.waiters t = some w ∧
  w.id = id ∧ w.status = .resolved

/-- Call `i` holds the lock of an id. -/
def Holds : Prop := id ∈ c.shared.acquired i ∧ id ∉ c.shared.released i ∨ Granted c i id

/-- Call `i` has returned or thrown. -/
def Settled : Prop := (∃ a, c.threads i = .ret a) ∨ ∃ e, c.threads i = .fail e

/-- Call `i` waits for a lock that call `j` holds. -/
def WaitsOn (j : ι) : Prop := ∃ id, Waits c i id ∧ Holds c j id

/-- Call `i` is still to be made. -/
def Unmade [LinearOrder Id] (ids : ι → List Id) : Prop :=
  c.threads i = withTournamentLock T (ids i) ∧ c.shared.acquired i = []

/-- No other call holds or waits for an id of call `i`. -/
def Uncontended (ids : ι → List Id) : Prop :=
  ∀ j, j ≠ i → ∀ id ∈ ids i, ¬ Holds c j id ∧ ¬ Waits c j id

end Observations

/-- A call waits for one id at a time. -/
theorem waits_unique {c : State ι Id T} {i : ι} {a b : Id} (ha : Waits c i a)
    (hb : Waits c i b) : a = b := by
  obtain ⟨t, k, w, hk, hw, rfl, -⟩ := ha
  obtain ⟨t', k', w', hk', hw', rfl, -⟩ := hb
  rw [hk] at hk'
  cases hk'
  rw [hw] at hw'
  rw [Option.some.inj hw']

/-- A step of call `i` alone. -/
def SoloStep [DecidableEq ι] [DecidableEq Id] (i : ι) (c d : State ι Id T) : Prop :=
  ∃ op k r s, c.threads i = .await op k ∧ Answers T c.shared i op r s ∧
    d = ⟨s, Function.update c.threads i (k r)⟩

/-! ## Promises settle once -/

/-- A promise that is resolved or rejected stays so. -/
def SettledPromise (s s' : Mutex ι Id) : Prop := ∀ t w, s.waiters t = some w →
  w.status ≠ .pending → ∃ w', s'.waiters t = some w' ∧ w'.status = w.status

theorem resolver_settled (s : Mutex ι Id) (t : ℕ) : SettledPromise s (s.resolver t) := by
  intro t' w hw hp
  unfold Mutex.resolver
  cases hv : s.waiters t with
  | none => exact ⟨w, hw, rfl⟩
  | some v =>
    by_cases ht : t' = t
    · subst ht
      rw [hw] at hv
      obtain rfl := Option.some.inj hv
      simp [hp, Mutex.setWaiter]
    · by_cases hvp : v.status = .pending
      · exact ⟨w, by simp [hvp, Mutex.setWaiter, ht, hw], rfl⟩
      · exact ⟨w, by simp [hvp, Mutex.setWaiter, ht, hw], rfl⟩

theorem release_settled [DecidableEq Id] (s : Mutex ι Id) (id : Id) :
    SettledPromise s (s.release id) := by
  unfold Mutex.release
  split
  · exact fun t w hw _ => ⟨w, hw, rfl⟩
  · split
    · exact fun t w hw hp => resolver_settled _ _ t w hw hp
    · exact fun t w hw _ => ⟨w, hw, rfl⟩

theorem timeout_settled {s : Mutex ι Id} {t : ℕ} {v : Waiter ι Id} (hv : s.waiters t = some v) :
    SettledPromise s (s.timeout t v) := by
  intro t' w hw hp
  by_cases ht : t' = t
  · subst ht
    rw [hv] at hw
    obtain rfl := Option.some.inj hw
    simp [Mutex.timeout, Mutex.setWaiter, hp]
  · exact ⟨w, by simp [Mutex.timeout, Mutex.setWaiter, Mutex.setEntry, ht, hw], rfl⟩

/-! ## States and stages -/

section Reachable

variable [LinearOrder Id] {ids : ι → List Id} {c : State ι Id T}

/-- A state with the stages of its calls. -/
structure Staged (ids : ι → List Id) (c : State ι Id T) (stages : ι → Stage Id) : Prop where
  /-- The invariant. -/
  inv : Inv (fun i => sortedIds (ids i)) c.shared stages
  /-- Every call is at its stage. -/
  follows : ∀ i, Prog.Follows Allowed (next T) (fun stage _ => Ended stage) (stages i)
    (c.threads i)

namespace Staged

variable {stages : ι → Stage Id} {i j : ι} {id : Id}

theorem allowed (h : Staged ids c stages) {op : MutexOp Id}
    {k : Except String (op.Ans T) → Call Id T T} (ht : c.threads i = .await op k) :
    Allowed (stages i) op := by
  have hf := h.follows i
  rw [ht] at hf
  exact hf.1

/-- A call at a stage that is not its end has an operation pending. -/
theorem pending (h : Staged ids c stages) (hs : ¬ Ended (stages i)) :
    ∃ op k, c.threads i = .await op k := by
  have hf := h.follows i
  cases ht : c.threads i with
  | await op k => exact ⟨op, k, rfl⟩
  | ret a => rw [ht] at hf; exact absurd hf hs
  | fail e => rw [ht] at hf; exact absurd hf hs

theorem running (h : Staged ids c stages) (hr : Running c i) :
    stages i = .acquiring (sortedIds (ids i)) [] := by
  obtain ⟨k, hk⟩ := hr
  obtain ⟨taken, hs⟩ := (h.allowed hk).callback
  have hc := h.inv.call i
  rw [hs] at hc
  rw [hs, ← hc.1, List.append_nil]

theorem awaiting (h : Staged ids c stages) {taken rest : List Id} {t : ℕ}
    (hs : stages i = .waiting taken id rest t) : ∃ k, c.threads i = .await (.wait t) k := by
  obtain ⟨op, k, hk⟩ := h.pending (i := i) (by rw [hs]; exact not_false)
  have hal := h.allowed hk
  rw [hs] at hal
  cases op with
  | wait t' =>
    obtain rfl : t' = t := hal
    exact ⟨k, hk⟩
  | _ => exact False.elim hal

theorem settled (h : Staged ids c stages) (hs : Settled c i) :
    ∃ done, stages i = .releasing done [] := by
  have hended : Ended (stages i) := by
    have hf := h.follows i
    rcases hs with ⟨a, ha⟩ | ⟨e, he⟩
    · rwa [ha] at hf
    · rwa [he] at hf
  have hc := h.inv.call i
  cases hst : stages i with
  | releasing done todo =>
    rw [hst] at hended
    cases todo with
    | nil => exact ⟨done, rfl⟩
    | cons _ _ => exact hended.elim
  | broken => rw [hst] at hc; exact hc.elim
  | _ => rw [hst] at hended; exact hended.elim

theorem unmade (h : Staged ids c stages) (hu : Unmade c i ids) :
    stages i = .acquiring [] (sortedIds (ids i)) := by
  obtain ⟨hp, ha⟩ := hu
  have hc := h.inv.call i
  have hstage : ∃ taken rest, stages i = .acquiring taken rest := by
    cases hids : sortedIds (ids i) with
    | nil =>
      rw [withTournamentLock, hids] at hp
      obtain ⟨taken, hs⟩ := (h.allowed hp).callback
      exact ⟨taken, [], hs⟩
    | cons id rest =>
      rw [withTournamentLock, hids] at hp
      obtain ⟨taken, rest', hs⟩ := (h.allowed hp).enter
      exact ⟨taken, _, hs⟩
  obtain ⟨taken, rest, hs⟩ := hstage
  rw [hs] at hc
  obtain rfl : taken = [] := hc.2.1.symm.trans ha
  rw [hs, ← hc.1, List.nil_append]

theorem granted_iff (h : Staged ids c stages) : Granted c i id ↔
    ∃ taken rest t, stages i = .waiting taken id rest t ∧ t ∈ c.shared.grants := by
  constructor
  · rintro ⟨t, k, w, hk, hw, rfl, hr⟩
    obtain ⟨taken, id, rest, hs⟩ := (h.allowed hk).wait
    obtain ⟨v, hv, -, hid⟩ := h.inv.awaited ⟨taken, rest, hs⟩
    rw [hw] at hv
    obtain rfl := Option.some.inj hv
    rw [← hid] at hs
    exact ⟨taken, rest, t, hs, (h.inv.promises.granted t).mpr ⟨w, hw, hr⟩⟩
  · rintro ⟨taken, rest, t, hs, hg⟩
    obtain ⟨k, hk⟩ := h.awaiting hs
    obtain ⟨w, hw, -, hid⟩ := h.inv.awaited ⟨taken, rest, hs⟩
    obtain ⟨v, hv, hr⟩ := (h.inv.promises.granted t).mp hg
    rw [hw] at hv
    obtain rfl := Option.some.inj hv
    exact ⟨t, k, w, hk, hw, hid, hr⟩

/-- What a call holds, by its stage. -/
theorem holds_iff (h : Staged ids c stages) :
    Holds c i id ↔ id ∈ holdings c.shared.grants (stages i) := by
  have hc := h.inv.call i
  rw [Holds, h.granted_iff]
  cases hs : stages i with
  | acquiring taken rest =>
    rw [hs] at hc
    simp [holdings, hc.2.1, hc.2.2]
  | waiting taken id' rest t =>
    rw [hs] at hc
    by_cases hg : t ∈ c.shared.grants
    · simp [holdings, hc.2.1, hc.2.2.1, hg, eq_comm]
    · simp [holdings, hc.2.1, hc.2.2.1, hg]
  | releasing done todo =>
    rw [hs] at hc
    have hn := List.nodup_append.mp hc.2.2.2
    simp only [hc.2.1, hc.2.2.1, holdings, List.mem_append, reduceCtorEq, false_and, exists_false,
      or_false]
    constructor
    · rintro ⟨hm | hm, hnot⟩
      · exact absurd hm hnot
      · exact hm
    · exact fun hm => ⟨Or.inr hm, fun hd => hn.2.2 id hd id hm rfl⟩
  | broken => rw [hs] at hc; exact hc.elim

/-- What a call waits for, by its stage. -/
theorem waits (h : Staged ids c stages) (hw : Waits c i id) :
    ∃ taken rest t, stages i = .waiting taken id rest t ∧
      holdings c.shared.grants (stages i) = taken ∧ c.shared.locks id ≠ none := by
  obtain ⟨t, k, w, hk, hw, rfl, hp⟩ := hw
  obtain ⟨taken, id, rest, hs⟩ := (h.allowed hk).wait
  obtain ⟨v, hv, -, hid⟩ := h.inv.awaited ⟨taken, rest, hs⟩
  rw [hw] at hv
  obtain rfl := Option.some.inj hv
  rw [← hid] at hs
  have hg : t ∉ c.shared.grants := h.inv.not_granted hw (by simp [hp])
  refine ⟨taken, rest, t, hs, by simp [hs, holdings, hg], ?_⟩
  rw [h.inv.table.captured t w hw hp]
  exact Option.some_ne_none _

/-- A lock is in the table exactly when a call holds it. -/
theorem locked_iff (h : Staged ids c stages) :
    c.shared.locks id ≠ none ↔ ∃ i, Holds c i id := by
  rw [h.inv.held id]
  exact exists_congr fun i => h.holds_iff.symm

/-- No two calls hold a lock. -/
theorem holder_unique (h : Staged ids c stages) (hi : Holds c i id) (hj : Holds c j id) : i = j :=
  h.inv.exclusive.unique i j id (h.holds_iff.mp hi) (h.holds_iff.mp hj)

end Staged

theorem staged [DecidableEq ι] (hr : Reachable (mutexSystem T) (start T ids) c) :
    ∃ stages, Staged ids c stages := by
  obtain ⟨stages, hinv, hf⟩ := reachable_inv hr
  exact ⟨stages, hinv, hf⟩

variable [DecidableEq ι]

/-! ## Safety -/

/-- A promise settles once in a run. -/
theorem settled_promise {d : State ι Id T} (hr : Reachable (mutexSystem T) (start T ids) c)
    (hd : Reachable (mutexSystem T) c d) : SettledPromise c.shared d.shared := by
  induction hd with
  | refl => exact fun t w hw _ => ⟨w, hw, rfl⟩
  | tail hcd hstep ih =>
    rename_i b d
    have hone : SettledPromise b.shared d.shared := by
      cases hstep with
      | answer i hi ha =>
        rename_i op k r s
        cases op with
        | enter id =>
          obtain ⟨rfl, rfl⟩ := ha
          obtain ⟨stages, h⟩ := staged (hr.trans hcd)
          intro t w hw _
          have ht := (h.inv.promises.bound t w hw).ne
          cases hl : b.shared.locks id with
          | none => exact ⟨w, by simp [enter_free hl, ht, hw], rfl⟩
          | some ref =>
            have ha := (h.inv.table.entry id ref hl).2
            exact ⟨w, by simp [enter_held hl ha, ht, hw], rfl⟩
        | wait t =>
          obtain ⟨w, hw, ⟨-, -, rfl⟩ | ⟨-, -, rfl⟩⟩ := ha
          · exact fun t w hw _ => ⟨w, hw, rfl⟩
          · exact fun t w hw _ => ⟨w, hw, rfl⟩
        | callback =>
          obtain rfl : s = b.shared := ha
          exact fun t w hw _ => ⟨w, hw, rfl⟩
        | release id =>
          obtain ⟨rfl, rfl⟩ := ha
          exact release_settled b.shared id
      | env he =>
        obtain ⟨t, w, hw, -, rfl⟩ := he
        exact timeout_settled hw
    intro t w hw hp
    obtain ⟨v, hv, hs⟩ := ih t w hw hp
    obtain ⟨u, hu, hs'⟩ := hone t v hv (hs ▸ hp)
    exact ⟨u, hu, hs'.trans hs⟩

/-- The ids that a running callback holds are those of its call. -/
theorem running_holds (hr : Reachable (mutexSystem T) (start T ids) c) {i : ι}
    (hi : Running c i) {id : Id} (hid : id ∈ ids i) : Holds c i id := by
  obtain ⟨stages, h⟩ := staged hr
  rw [h.holds_iff, h.running hi]
  exact List.mem_mergeSort.mpr hid

theorem callbacks_exclude (hr : Reachable (mutexSystem T) (start T ids) c) {i j : ι}
    (hij : i ≠ j) (hi : Running c i) (hj : Running c j) : (ids i).Disjoint (ids j) := by
  obtain ⟨stages, h⟩ := staged hr
  intro id hidi hidj
  exact hij (h.holder_unique (running_holds hr hi hidi) (running_holds hr hj hidj))

/-- What a call has released are the first of the ids it had acquired, and all
of them at its end. -/
theorem released_acquired (hr : Reachable (mutexSystem T) (start T ids) c) (i : ι) :
    c.shared.released i <+: c.shared.acquired i ∧
      (Settled c i → c.shared.released i = c.shared.acquired i) := by
  obtain ⟨stages, h⟩ := staged hr
  have hc := h.inv.call i
  refine ⟨?_, fun hs => ?_⟩
  · cases hs : stages i with
    | acquiring taken rest => rw [hs] at hc; rw [hc.2.2]; exact List.nil_prefix
    | waiting taken id rest t => rw [hs] at hc; rw [hc.2.2.1]; exact List.nil_prefix
    | releasing done todo =>
      rw [hs] at hc
      rw [hc.2.1, hc.2.2.1]
      exact List.prefix_append done todo
    | broken => rw [hs] at hc; exact hc.elim
  · obtain ⟨done, hd⟩ := h.settled hs
    rw [hd] at hc
    rw [hc.2.1, hc.2.2.1, List.append_nil]

theorem table_empty (hr : Reachable (mutexSystem T) (start T ids) c)
    (hidle : ∀ i, Unmade c i ids ∨ Settled c i) (id : Id) : c.shared.locks id = none := by
  obtain ⟨stages, h⟩ := staged hr
  by_contra hl
  obtain ⟨i, hi⟩ := h.locked_iff.mp hl
  rw [h.holds_iff] at hi
  rcases hidle i with hu | hs
  · rw [h.unmade hu] at hi
    cases hi
  · obtain ⟨done, hd⟩ := h.settled hs
    rw [hd] at hi
    cases hi

/-- What the mutex guarantees in a state `c` of a run. -/
structure Guarantees (ids : ι → List Id) (c : State ι Id T) : Prop where
  /-- Callbacks whose lists share an id do not run together. -/
  exclude : ∀ i j, i ≠ j → Running c i → Running c j → (ids i).Disjoint (ids j)
  /-- A running callback holds all its locks. -/
  holds : ∀ i, Running c i → ∀ id ∈ ids i, Holds c i id
  /-- The grants of one id are in the order of arrival. -/
  order : c.shared.grants.Pairwise fun t t' => ∀ w w', c.shared.waiters t = some w →
    c.shared.waiters t' = some w' → w.id = w'.id → t < t'
  /-- Whoever came before a granted waiter of the id was granted or timed out. -/
  overtakes : ∀ t t' w w', c.shared.waiters t = some w → c.shared.waiters t' = some w' →
    w.id = w'.id → t < t' → w'.status = .resolved → w.status ≠ .pending
  /-- A waiter that timed out is never granted. -/
  rejected : ∀ t w, c.shared.waiters t = some w → w.status = .rejected →
    ∀ d, Reachable (mutexSystem T) c d → t ∉ d.shared.grants
  /-- A waiter that was handed the lock resumes with it, or has. -/
  handed : ∀ t ∈ c.shared.grants, ∃ w, c.shared.waiters t = some w ∧
    (Granted c w.call w.id ∨ w.id ∈ c.shared.acquired w.call)
  /-- Every lock in the table is held, by one call that is not at its end. -/
  held : ∀ id, c.shared.locks id ≠ none → ∃ i, Holds c i id ∧ ¬ Settled c i ∧
    ∀ j, Holds c j id → j = i
  /-- A call releases only what it acquired, and at its end has released it all. -/
  released : ∀ i, c.shared.released i <+: c.shared.acquired i ∧
    (Settled c i → c.shared.released i = c.shared.acquired i)
  /-- Without a call that runs or waits the table is empty. -/
  empty : (∀ i, Unmade c i ids ∨ Settled c i) → ∀ id, c.shared.locks id = none

/-- The guarantees hold in every state of every run, whatever the lists of ids. -/
theorem tournament_mutex (hr : Reachable (mutexSystem T) (start T ids) c) : Guarantees ids c := by
  obtain ⟨stages, h⟩ := staged hr
  refine ⟨fun i j hij hi hj => callbacks_exclude hr hij hi hj,
    fun i hi id hid => running_holds hr hi hid, h.inv.promises.history, h.inv.promises.order,
    fun t w hw hrej d hd hg => ?_, fun t hg => ?_, fun id hl => ?_,
    fun i => released_acquired hr i, fun hidle id => table_empty hr hidle id⟩
  · obtain ⟨v, hv, hs⟩ := settled_promise hr hd t w hw (by simp [hrej])
    obtain ⟨stages', h'⟩ := staged (hr.trans hd)
    obtain ⟨u, hu, hres⟩ := (h'.inv.promises.granted t).mp hg
    rw [hv] at hu
    rw [← Option.some.inj hu, hs, hrej] at hres
    cases hres
  · obtain ⟨w, hw, hres⟩ := (h.inv.promises.granted t).mp hg
    refine ⟨w, hw, (h.inv.handed t w hw hres).imp (fun ⟨taken, rest, hs⟩ => ?_) fun hm => hm⟩
    exact h.granted_iff.mpr ⟨taken, rest, t, hs, hg⟩
  · obtain ⟨i, hi⟩ := h.locked_iff.mp hl
    refine ⟨i, hi, fun hs => ?_, fun j hj => h.holder_unique hj hi⟩
    obtain ⟨done, hd⟩ := h.settled hs
    rw [h.holds_iff, hd] at hi
    cases hi

/-- Two calls for one id: the callback of one runs, and the other waits. -/
theorem contended : ∃ c : State Bool ℕ Unit,
    Reachable (mutexSystem Unit) (start Unit fun _ => [7]) c ∧ Running c true ∧ Waits c false 7 := by
  have hstart : ∀ i, (start Unit fun _ : Bool => [7]).threads i =
      (acquireAll Unit [] [7]).bind fun _ =>
        Prog.tryFinally (Prog.perform MutexOp.callback) (releaseAll Unit [7]) := by
    intro i
    have hs : sortedIds [7] = [7] := List.mergeSort_singleton 7
    simp only [start, withTournamentLock, hs]
    rfl
  refine reaches_answer true (.ok (0 : ℕ) : Except String ((MutexOp.enter 7).Ans Unit))
    (hstart true) ⟨rfl, rfl⟩ ?_
  refine reaches_answer true (.ok () : Except String ((MutexOp.wait 0 : MutexOp ℕ).Ans Unit)) rfl
    ⟨⟨true, 7, 0, false, .resolved⟩, rfl, Or.inl ⟨rfl, rfl, rfl⟩⟩ ?_
  refine reaches_answer false (.ok (1 : ℕ) : Except String ((MutexOp.enter 7).Ans Unit))
    (hstart false) ⟨rfl, rfl⟩ ?_
  exact ⟨_, .refl, ⟨_, rfl⟩, 1, _, ⟨false, 7, 0, true, .pending⟩, rfl, rfl, rfl, rfl⟩

theorem tournament_mutex_contended : ∃ c : State Bool ℕ Unit,
    Reachable (mutexSystem Unit) (start Unit fun _ => [7]) c ∧ (Running c true ∧ Waits c false 7) ∧
      Guarantees (fun _ => [7]) c := by
  obtain ⟨c, hr, h⟩ := contended
  exact ⟨c, hr, h, tournament_mutex hr⟩

/-! ## Waiting for oneself -/

/-- A call that asks for free locks, each once, gets them by its own steps. -/
theorem solo_acquires {i : ι} {taken rest : List Id} {f : Unit → Call Id T T}
    (hp : c.threads i = (acquireAll T taken rest).bind f)
    (hfree : ∀ id ∈ rest, c.shared.locks id = none) (hn : rest.Nodup) :
    ∃ d, Relation.ReflTransGen (SoloStep i) c d ∧ d.threads i = f () ∧
      d.shared.acquired i = c.shared.acquired i ++ rest := by
  induction rest generalizing taken c with
  | nil => exact ⟨c, .refl, hp, (List.append_nil _).symm⟩
  | cons id rest ih =>
    rw [List.nodup_cons] at hn
    have hl := hfree id List.mem_cons_self
    have henter : Answers T c.shared i (.enter id) (.ok c.shared.nextTicket)
        (c.shared.enter i id).2 := ⟨by rw [enter_free hl], rfl⟩
    let s₂ : Mutex ι Id := { (c.shared.enter i id).2 with
      acquired := Function.update (c.shared.enter i id).2.acquired i
        ((c.shared.enter i id).2.acquired i ++ [id]) }
    have hwait : Answers T (c.shared.enter i id).2 i (.wait c.shared.nextTicket) (.ok ()) s₂ := by
      refine ⟨⟨i, id, c.shared.nextRef, false, .resolved⟩, ?_, Or.inl ⟨rfl, rfl, rfl⟩⟩
      rw [enter_free hl]
      exact Function.update_self _ _ _
    have hfree₂ : ∀ id' ∈ rest, s₂.locks id' = none := by
      intro id' hid'
      have hne : id' ≠ id := fun he => hn.1 (he ▸ hid')
      simp [s₂, enter_free hl, hne, hfree id' (List.mem_cons_of_mem id hid')]
    obtain ⟨d, hd, hthread, hacq⟩ := ih
      (c := ⟨s₂, Function.update (Function.update c.threads i _) i
        ((acquireAll T (taken ++ [id]) rest).bind f)⟩) (Function.update_self _ _ _) hfree₂ hn.2
    refine ⟨d, .head ⟨.enter id, _, _, _, hp, henter, rfl⟩ (.head
      ⟨.wait c.shared.nextTicket, _, _, _, Function.update_self _ _ _, hwait, rfl⟩ hd),
      hthread, ?_⟩
    rw [hacq]
    simp [s₂, enter_free hl]

theorem SoloStep.step {d : State ι Id T} {i : ι} (h : SoloStep i c d) :
    Step (mutexSystem T) c d := by
  obtain ⟨op, k, r, s, hi, ha, rfl⟩ := h
  exact .answer i hi ha

theorem solo_reachable {d : State ι Id T} {i : ι} (h : Relation.ReflTransGen (SoloStep i) c d) :
    Reachable (mutexSystem T) c d :=
  Relation.ReflTransGen.mono (fun _ _ hs => SoloStep.step hs) c d h

/-- A call without a repeated id that nobody contends with runs its callback. -/
theorem solo_runs (hr : Reachable (mutexSystem T) (start T ids) c) {i : ι} (hn : (ids i).Nodup)
    (hu : Unmade c i ids) (hfree : Uncontended c i ids) :
    ∃ d, Relation.ReflTransGen (SoloStep i) c d ∧ Running d i ∧
      d.shared.acquired i = sortedIds (ids i) := by
  obtain ⟨stages, h⟩ := staged hr
  have hlocks : ∀ id ∈ sortedIds (ids i), c.shared.locks id = none := by
    intro id hid
    by_contra hl
    obtain ⟨j, hj⟩ := h.locked_iff.mp hl
    by_cases hji : j = i
    · rw [hji, h.holds_iff, h.unmade hu] at hj
      cases hj
    · exact (hfree j hji id (List.mem_mergeSort.mp hid)).1 hj
  obtain ⟨d, hd, hp, ha⟩ := solo_acquires hu.1 hlocks
    ((List.mergeSort_perm (ids i) _).nodup_iff.mpr hn)
  refine ⟨d, hd, ⟨_, hp⟩, ?_⟩
  rw [ha, hu.2, List.nil_append]

/-- A call with a repeated id never runs its callback. -/
theorem running_nodup (hr : Reachable (mutexSystem T) (start T ids) c) {i : ι}
    (hi : Running c i) : (ids i).Nodup := by
  obtain ⟨stages, h⟩ := staged hr
  have hn := h.inv.exclusive.once i
  rw [h.running hi] at hn
  exact (List.mergeSort_perm (ids i) _).nodup_iff.mp hn

/-- A call that waits for a lock it holds has a repeated id. -/
theorem not_nodup_of_self (hr : Reachable (mutexSystem T) (start T ids) c) {i : ι} {id : Id}
    (hw : Waits c i id) (hh : Holds c i id) : ¬ (ids i).Nodup := by
  obtain ⟨stages, h⟩ := staged hr
  obtain ⟨taken, rest, t, hs, htaken, -⟩ := h.waits hw
  rw [h.holds_iff, htaken] at hh
  have hc := h.inv.call i
  rw [hs] at hc
  intro hn
  have hsorted : (sortedIds (ids i)).Nodup := (List.mergeSort_perm (ids i) _).nodup_iff.mpr hn
  rw [← hc.1] at hsorted
  exact (List.nodup_append.mp hsorted).2.2 id hh id List.mem_cons_self rfl

theorem waits_mem (hr : Reachable (mutexSystem T) (start T ids) c) {i : ι} {id : Id}
    (hw : Waits c i id) : id ∈ ids i := by
  obtain ⟨stages, h⟩ := staged hr
  obtain ⟨taken, rest, t, hs, -, -⟩ := h.waits hw
  have hc := h.inv.call i
  rw [hs] at hc
  have hmem : id ∈ sortedIds (ids i) := hc.1 ▸ List.mem_append_right taken List.mem_cons_self
  exact List.mem_mergeSort.mp hmem

/-- A call waits for an id not before those it holds. -/
theorem holds_le_waits (hr : Reachable (mutexSystem T) (start T ids) c) {i : ι} {a b : Id}
    (hh : Holds c i a) (hw : Waits c i b) : a ≤ b := by
  obtain ⟨stages, h⟩ := staged hr
  obtain ⟨taken, rest, t, hs, htaken, -⟩ := h.waits hw
  rw [h.holds_iff, htaken] at hh
  have hc := h.inv.call i
  rw [hs] at hc
  have hsorted : (sortedIds (ids i)).Pairwise (· ≤ ·) := List.pairwise_mergeSort' _ _
  rw [← hc.1] at hsorted
  exact (List.pairwise_append.mp hsorted).2.2 a hh b List.mem_cons_self

/-- Along a chain of waiting calls the awaited ids ascend; where they do not,
the last call holds what it waits for. -/
theorem waitsOn_ascends (hr : Reachable (mutexSystem T) (start T ids) c) {i j : ι}
    (h : Relation.TransGen (WaitsOn c) i j) {a b : Id} (ha : Waits c i a) (hb : Waits c j b) :
    a ≤ b ∧ (a = b → Holds c j a) := by
  induction h generalizing b with
  | single hij =>
    obtain ⟨m, hm, hj⟩ := hij
    obtain rfl := waits_unique ha hm
    exact ⟨holds_le_waits hr hj hb, fun _ => hj⟩
  | tail _ hkj ih =>
    obtain ⟨m, hm, hj⟩ := hkj
    have hle := (ih hm).1
    have hmb := holds_le_waits hr hj hb
    exact ⟨hle.trans hmb, fun he => le_antisymm hle (he ▸ hmb) ▸ hj⟩

theorem no_cycle (hr : Reachable (mutexSystem T) (start T ids) c) {i : ι} (hn : (ids i).Nodup) :
    ¬ Relation.TransGen (WaitsOn c) i i := by
  intro h
  obtain ⟨a, ha⟩ : ∃ a, Waits c i a := by
    obtain ⟨k, ⟨a, ha, -⟩, -⟩ := Relation.TransGen.head'_iff.mp h
    exact ⟨a, ha⟩
  exact not_nodup_of_self hr ha ((waitsOn_ascends hr h ha ha).2 rfl) hn

/-- The lock never blocks call `i` by itself: while no other call holds or
waits for one of its ids it does not wait, and made then it runs its callback
by its own steps; and it is in no cycle of waiting calls. -/
def NeverBlocks (T : Type) (ids : ι → List Id) (i : ι) : Prop :=
  ∀ c, Reachable (mutexSystem T) (start T ids) c →
    (Uncontended c i ids → Unmade c i ids → ∃ d, Relation.ReflTransGen (SoloStep i) c d ∧
      Running d i ∧ d.shared.acquired i = sortedIds (ids i)) ∧
    (Uncontended c i ids → ∀ id, ¬ Waits c i id) ∧
    ¬ Relation.TransGen (WaitsOn c) i i

/-- A call for the ids `["t1", "t1"]` that nobody contends with waits for the lock it holds. -/
theorem repeated_id_blocks : (∃ c : State Unit String Unit,
    Reachable (mutexSystem Unit) (start Unit fun _ => ["t1", "t1"]) c ∧
      Uncontended c () (fun _ => ["t1", "t1"]) ∧ Waits c () "t1" ∧ Holds c () "t1") ∧
    ¬ NeverBlocks Unit (fun _ : Unit => ["t1", "t1"]) () := by
  have hself : ∃ c : State Unit String Unit,
      Reachable (mutexSystem Unit) (start Unit fun _ => ["t1", "t1"]) c ∧
        Waits c () "t1" ∧ Holds c () "t1" := by
    have hstart : (start Unit fun _ : Unit => ["t1", "t1"]).threads () =
        (acquireAll Unit [] ["t1", "t1"]).bind fun _ =>
          Prog.tryFinally (Prog.perform MutexOp.callback) (releaseAll Unit ["t1", "t1"]) := by
      have hs : sortedIds ["t1", "t1"] = ["t1", "t1"] := List.mergeSort_of_pairwise (by simp)
      simp only [start, withTournamentLock, hs]
      rfl
    refine reaches_answer () (.ok (0 : ℕ) : Except String ((MutexOp.enter "t1").Ans Unit))
      hstart ⟨rfl, rfl⟩ ?_
    refine reaches_answer () (.ok () : Except String ((MutexOp.wait 0 : MutexOp String).Ans Unit))
      rfl ⟨⟨(), "t1", 0, false, .resolved⟩, rfl, Or.inl ⟨rfl, rfl, rfl⟩⟩ ?_
    refine reaches_answer () (.ok (1 : ℕ) : Except String ((MutexOp.enter "t1").Ans Unit))
      rfl ⟨rfl, rfl⟩ ?_
    refine ⟨_, .refl, ⟨1, _, ⟨(), "t1", 0, true, .pending⟩, rfl, rfl, rfl, rfl⟩, Or.inl ⟨?_, ?_⟩⟩
    · exact List.mem_singleton_self _
    · exact List.not_mem_nil
  obtain ⟨c, hr, hw, hh⟩ := hself
  have hfree : Uncontended c () (fun _ => ["t1", "t1"]) := fun j hj => absurd rfl hj
  exact ⟨⟨c, hr, hfree, hw, hh⟩, fun h => (h c hr).2.1 hfree "t1" hw⟩

/-- The lock never blocks its own caller exactly when the caller's list repeats no id. -/
theorem neverBlocks_iff (ids : ι → List Id) (i : ι) : NeverBlocks T ids i ↔ (ids i).Nodup := by
  constructor
  · intro h
    have hstart : Uncontended (start T ids) i ids := by
      rintro j - id -
      refine ⟨?_, fun ⟨t, k, w, _, hw, _⟩ => by cases hw⟩
      rintro (⟨ha, -⟩ | ⟨t, k, w, -, hw, -⟩)
      · cases ha
      · cases hw
    obtain ⟨d, hd, hrun, hacq⟩ := (h (start T ids) .refl).1 hstart ⟨rfl, rfl⟩
    exact running_nodup (solo_reachable hd) hrun
  · intro hn c hr
    refine ⟨fun hfree hu => solo_runs hr hn hu hfree, fun hfree id hw => ?_, no_cycle hr hn⟩
    obtain ⟨stages, h⟩ := staged hr
    obtain ⟨-, -, -, -, -, hl⟩ := h.waits hw
    obtain ⟨j, hj⟩ := h.locked_iff.mp hl
    by_cases hji : j = i
    · exact not_nodup_of_self hr hw (hji ▸ hj) hn
    · exact (hfree j hji id (waits_mem hr hw)).1 hj

end Reachable

end FactoryServer.MutexSafety
