import FactoryServer.TournamentMutex

/-!
# The invariant of the tournament mutex

The promises, the table of locks and the calls are three parts of one
invariant. A lock is in the table exactly when one call holds it, and a release
hands it on before another call can ask for it.
-/

namespace FactoryServer.MutexInvariant

open AsyncProgram TournamentMutex

variable {ι Id : Type}

/-! ## What the synchronous calls do -/

section Calls

variable [DecidableEq Id] {s : Mutex ι Id} {i : ι} {id : Id} {ref : ℕ}

/-- A free lock is taken: a new entry, and a promise that is resolved. -/
theorem enter_free (h : s.locks id = none) : s.enter i id = (s.nextTicket,
    { s with
      locks := Function.update s.locks id (some s.nextRef)
      entries := Function.update s.entries s.nextRef ⟨[], true⟩
      nextRef := s.nextRef + 1
      waiters := Function.update s.waiters s.nextTicket
        (some ⟨i, id, s.nextRef, false, .resolved⟩)
      nextTicket := s.nextTicket + 1
      grants := s.grants ++ [s.nextTicket] }) := by
  simp [Mutex.enter, Mutex.entryOf, h, Mutex.setEntry, Mutex.setLock, Mutex.newWaiter,
    Mutex.setWaiter]

/-- A held lock is queued for. -/
theorem enter_held (h : s.locks id = some ref) (ha : (s.entries ref).active = true) :
    s.enter i id = (s.nextTicket,
      { s with
        entries := Function.update s.entries ref
          ⟨(s.entries ref).queue ++ [s.nextTicket], true⟩
        waiters := Function.update s.waiters s.nextTicket (some ⟨i, id, ref, true, .pending⟩)
        nextTicket := s.nextTicket + 1 }) := by
  simp [Mutex.enter, Mutex.entryOf, h, ha, Mutex.setEntry, Mutex.newWaiter, Mutex.setWaiter]

/-- Without a waiter the lock is deleted. -/
theorem release_last (h : s.locks id = some ref) (hq : (s.entries ref).queue = []) :
    s.release id = { s with locks := Function.update s.locks id none } := by
  simp [Mutex.release, h, hq, Mutex.setLock]

/-- The first waiter is handed the lock. -/
theorem release_hands {t : ℕ} {queue : List ℕ} {w : Waiter ι Id}
    (h : s.locks id = some ref) (hq : (s.entries ref).queue = t :: queue)
    (hw : s.waiters t = some w) (hp : w.status = .pending) :
    s.release id = { s with
      entries := Function.update s.entries ref ⟨queue, (s.entries ref).active⟩
      waiters := Function.update s.waiters t
        (some { w with armed := false, status := .resolved })
      grants := s.grants ++ [t] } := by
  simp [Mutex.release, h, hq, Mutex.setEntry, Mutex.resolver, hw, hp, Mutex.setWaiter]

omit [DecidableEq Id] in
/-- A timer rejects its promise. -/
theorem timeout_pending {t : ℕ} {w : Waiter ι Id} (hp : w.status = .pending) :
    s.timeout t w = { s with
      entries := Function.update s.entries w.entry
        ⟨(s.entries w.entry).queue.erase t, (s.entries w.entry).active⟩
      waiters := Function.update s.waiters t
        (some { w with armed := false, status := .rejected }) } := by
  simp [Mutex.timeout, Mutex.setEntry, Mutex.setWaiter, hp]

end Calls

/-! ## Promises -/

/-- The promises of the module, and the order in which they were resolved. -/
structure Promises (s : Mutex ι Id) : Prop where
  /-- Tickets are numbered by arrival. -/
  bound : ∀ t w, s.waiters t = some w → t < s.nextTicket
  /-- The history lists the resolved promises. -/
  granted : ∀ t, t ∈ s.grants ↔ ∃ w, s.waiters t = some w ∧ w.status = .resolved
  /-- A timer is set as long as its promise is pending. -/
  armed : ∀ t w, s.waiters t = some w → (w.armed = true ↔ w.status = .pending)
  /-- Nobody is granted a lock past a waiter of the same id. -/
  order : ∀ t t' w w', s.waiters t = some w → s.waiters t' = some w' → w.id = w'.id → t < t' →
    w'.status = .resolved → w.status ≠ .pending
  /-- The grants of one id are in the order of arrival. -/
  history : s.grants.Pairwise fun t t' => ∀ w w', s.waiters t = some w →
    s.waiters t' = some w' → w.id = w'.id → t < t'

theorem promises_initial : Promises (Mutex.initial : Mutex ι Id) where
  bound t w h := by cases h
  granted t := by simp [Mutex.initial]
  armed t w h := by cases h
  order t t' w w' h := by cases h
  history := List.Pairwise.nil

/-- A promise is made, resolved or rejected: the others stay as they are. -/
theorem Promises.assign {s s' : Mutex ι Id} (h : Promises s) {t : ℕ} {w : Waiter ι Id}
    (hw : s'.waiters = Function.update s.waiters t (some w))
    (hn : s.nextTicket ≤ s'.nextTicket) (ht : t < s'.nextTicket)
    (hg : s'.grants = if w.status = .resolved then s.grants ++ [t] else s.grants)
    (ha : w.armed = true ↔ w.status = .pending) (hopen : t ∉ s.grants)
    (hbefore : ∀ t' v, s.waiters t' = some v → v.id = w.id → t' < t → w.status = .resolved →
      v.status ≠ .pending)
    (hafter : ∀ t' v, s.waiters t' = some v → v.id = w.id → t < t' → v.status = .resolved →
      w.status = .rejected) : Promises s' where
  bound t' v hv := by
    rw [hw] at hv
    by_cases hts : t' = t
    · rwa [hts]
    · rw [Function.update_of_ne hts] at hv
      exact lt_of_lt_of_le (h.bound t' v hv) hn
  granted t' := by
    rw [hg, hw]
    by_cases hts : t' = t
    · subst hts
      by_cases hr : w.status = .resolved <;> simp [hr, hopen]
    · by_cases hr : w.status = .resolved <;> simp [hr, hts, h.granted t']
  armed t' v hv := by
    rw [hw] at hv
    by_cases hts : t' = t
    · rw [hts, Function.update_self] at hv
      rwa [← Option.some.inj hv]
    · rw [Function.update_of_ne hts] at hv
      exact h.armed t' v hv
  order a b v v' hv hv' hid hab hr hp := by
    rw [hw] at hv hv'
    by_cases hat : a = t
    · rw [hat, Function.update_self] at hv
      rw [Function.update_of_ne (by omega)] at hv'
      obtain rfl := Option.some.inj hv
      have hrej := hafter b v' hv' hid.symm (by omega) hr
      rw [hp] at hrej
      cases hrej
    · rw [Function.update_of_ne hat] at hv
      by_cases hbt : b = t
      · rw [hbt, Function.update_self] at hv'
        obtain rfl := Option.some.inj hv'
        exact hbefore a v hv hid (by omega) hr hp
      · rw [Function.update_of_ne hbt] at hv'
        exact h.order a b v v' hv hv' hid hab hr hp
  history := by
    have hkept : s.grants.Pairwise fun a b => ∀ v v', s'.waiters a = some v →
        s'.waiters b = some v' → v.id = v'.id → a < b := by
      refine h.history.imp_of_mem fun {a b} hma hmb hab v v' hv hv' => ?_
      have hat : a ≠ t := fun he => hopen (he ▸ hma)
      have hbt : b ≠ t := fun he => hopen (he ▸ hmb)
      rw [hw, Function.update_of_ne hat] at hv
      rw [hw, Function.update_of_ne hbt] at hv'
      exact hab v v' hv hv'
    rw [hg]
    split
    · next hr =>
      refine List.pairwise_append.mpr ⟨hkept, List.pairwise_singleton _ _, ?_⟩
      intro a ha' b hb v v' hv hv' hid
      rw [List.mem_singleton] at hb
      subst hb
      have hat : a ≠ b := fun he => hopen (he ▸ ha')
      rw [hw, Function.update_of_ne hat] at hv
      rw [hw, Function.update_self] at hv'
      obtain rfl := Option.some.inj hv'
      obtain ⟨u, hu, hur⟩ := (h.granted a).mp ha'
      rw [hv] at hu
      obtain rfl := Option.some.inj hu
      by_contra hle
      have hrej := hafter a v hv hid (by omega) hur
      rw [hr] at hrej
      cases hrej
    · exact hkept

/-- Resolving the pending promise that arrived first among those of its id. -/
theorem Promises.resolve {s s' : Mutex ι Id} (h : Promises s) {t : ℕ} {w : Waiter ι Id}
    (hold : s.waiters t = some w) (hp : w.status = .pending)
    (hw : s'.waiters =
      Function.update s.waiters t (some { w with armed := false, status := .resolved }))
    (hn : s'.nextTicket = s.nextTicket) (hg : s'.grants = s.grants ++ [t])
    (hfirst : ∀ t' v, s.waiters t' = some v → v.id = w.id → v.status = .pending → t ≤ t') :
    Promises s' := by
  refine h.assign hw hn.ge (hn ▸ h.bound t w hold) (by simpa using hg) (by simp) ?_ ?_ ?_
  · rw [h.granted]
    rintro ⟨v, hv, hr⟩
    rw [hold] at hv
    rw [← Option.some.inj hv, hp] at hr
    cases hr
  · intro t' v hv hid hlt _ hvp
    exact absurd (hfirst t' v hv hid hvp) (by omega)
  · intro t' v hv hid hlt hr
    exact absurd hp (h.order t t' w v hold hv hid.symm hlt hr)

/-- Rejecting a pending promise. -/
theorem Promises.reject {s s' : Mutex ι Id} (h : Promises s) {t : ℕ} {w : Waiter ι Id}
    (hold : s.waiters t = some w) (hp : w.status = .pending)
    (hw : s'.waiters =
      Function.update s.waiters t (some { w with armed := false, status := .rejected }))
    (hn : s'.nextTicket = s.nextTicket) (hg : s'.grants = s.grants) : Promises s' := by
  refine h.assign hw hn.ge (hn ▸ h.bound t w hold) (by simpa using hg) (by simp) ?_ ?_ ?_
  · rw [h.granted]
    rintro ⟨v, hv, hr⟩
    rw [hold] at hv
    rw [← Option.some.inj hv, hp] at hr
    cases hr
  · intro t' v _ _ _ hr
    cases hr
  · intro t' v _ _ _ _
    rfl

/-- A new promise of an id that nobody waits for. -/
theorem Promises.makeResolved {s s' : Mutex ι Id} (h : Promises s) {w : Waiter ι Id}
    (hs : w.status = .resolved) (ha : w.armed = false)
    (hw : s'.waiters = Function.update s.waiters s.nextTicket (some w))
    (hn : s'.nextTicket = s.nextTicket + 1) (hg : s'.grants = s.grants ++ [s.nextTicket])
    (hfree : ∀ t' v, s.waiters t' = some v → v.id = w.id → v.status ≠ .pending) :
    Promises s' := by
  refine h.assign hw (by omega) (by omega) (by simpa [hs] using hg) (by simp [hs, ha]) ?_ ?_ ?_
  · rw [h.granted]
    rintro ⟨v, hv, -⟩
    exact absurd (h.bound _ v hv) (lt_irrefl _)
  · exact fun t' v hv hid _ _ => hfree t' v hv hid
  · intro t' v hv _ hlt _
    exact absurd (h.bound t' v hv) (by omega)

/-- A new promise that waits. -/
theorem Promises.makePending {s s' : Mutex ι Id} (h : Promises s) {w : Waiter ι Id}
    (hs : w.status = .pending) (ha : w.armed = true)
    (hw : s'.waiters = Function.update s.waiters s.nextTicket (some w))
    (hn : s'.nextTicket = s.nextTicket + 1) (hg : s'.grants = s.grants) : Promises s' := by
  refine h.assign hw (by omega) (by omega) (by simpa [hs] using hg) (by simp [hs, ha]) ?_ ?_ ?_
  · rw [h.granted]
    rintro ⟨v, hv, -⟩
    exact absurd (h.bound _ v hv) (lt_irrefl _)
  · intro t' v _ _ _ hr
    rw [hs] at hr
    cases hr
  · intro t' v hv _ hlt _
    exact absurd (h.bound t' v hv) (by omega)

/-! ## The table of locks -/

/-- The table of locks against the promises. -/
structure Table (s : Mutex ι Id) : Prop where
  /-- An entry in the table is an active object. -/
  entry : ∀ id ref, s.locks id = some ref → ref < s.nextRef ∧ (s.entries ref).active = true
  /-- Its queue is in the order of arrival. -/
  sorted : ∀ id ref, s.locks id = some ref → (s.entries ref).queue.Pairwise (· < ·)
  /-- Its queue holds the pending promises of its id. -/
  queued : ∀ id ref, s.locks id = some ref → ∀ t, t ∈ (s.entries ref).queue ↔
    ∃ w, s.waiters t = some w ∧ w.id = id ∧ w.status = .pending
  /-- Two ids do not share an entry. -/
  injective : ∀ id id' ref, s.locks id = some ref → s.locks id' = some ref → id = id'
  /-- The entry that a pending promise captured is still the one in the table. -/
  captured : ∀ t w, s.waiters t = some w → w.status = .pending → s.locks w.id = some w.entry

theorem table_initial : Table (Mutex.initial : Mutex ι Id) where
  entry id ref h := by cases h
  sorted id ref h := by cases h
  queued id ref h := by cases h
  injective id id' ref h := by cases h
  captured t w h := by cases h

section Table

variable {s : Mutex ι Id} {i : ι} {id : Id} {ref : ℕ}

/-- Nobody waits for a lock that is not in the table. -/
theorem Table.free (h : Table s) (hl : s.locks id = none) {t : ℕ} {w : Waiter ι Id}
    (hw : s.waiters t = some w) (hid : w.id = id) : w.status ≠ .pending := by
  intro hp
  have hc := h.captured t w hw hp
  rw [hid, hl] at hc
  cases hc

variable [DecidableEq Id]

theorem Table.enterFree (h : Table s) (hp : Promises s) (hl : s.locks id = none) :
    Table (s.enter i id).2 := by
  rw [enter_free hl]
  have hnew : ∀ id' ref', s.locks id' = some ref' → ref' ≠ s.nextRef := fun id' ref' h' =>
    (h.entry id' ref' h').1.ne
  have hpend : ∀ t w, Function.update s.waiters s.nextTicket
      (some ⟨i, id, s.nextRef, false, .resolved⟩) t = some w → w.status = .pending →
      s.waiters t = some w := by
    intro t w hw hs
    by_cases ht : t = s.nextTicket
    · rw [ht, Function.update_self] at hw
      rw [← Option.some.inj hw] at hs
      cases hs
    · rwa [Function.update_of_ne ht] at hw
  have hback : ∀ t w, s.waiters t = some w → Function.update s.waiters s.nextTicket
      (some ⟨i, id, s.nextRef, false, .resolved⟩) t = some w := by
    intro t w hw
    rw [Function.update_of_ne (hp.bound t w hw).ne, hw]
  refine ⟨?_, ?_, ?_, ?_, ?_⟩
  · intro id' ref' h'
    by_cases hid : id' = id
    · simp only [hid, Function.update_self, Option.some.injEq] at h'
      simp [← h']
    · simp only [Function.update_of_ne hid] at h'
      have he := h.entry id' ref' h'
      simp only [Function.update_of_ne (hnew id' ref' h')]
      exact ⟨by omega, he.2⟩
  · intro id' ref' h'
    by_cases hid : id' = id
    · simp only [hid, Function.update_self, Option.some.injEq] at h'
      simp [← h']
    · simp only [Function.update_of_ne hid] at h'
      simp only [Function.update_of_ne (hnew id' ref' h')]
      exact h.sorted id' ref' h'
  · intro id' ref' h' t
    by_cases hid : id' = id
    · simp only [hid, Function.update_self, Option.some.injEq] at h'
      simp only [← h', Function.update_self, List.not_mem_nil, false_iff]
      rintro ⟨w, hw, hwid, hs⟩
      exact h.free hl (hpend t w hw hs) (hwid.trans hid) hs
    · simp only [Function.update_of_ne hid] at h'
      simp only [Function.update_of_ne (hnew id' ref' h')]
      rw [h.queued id' ref' h' t]
      constructor
      · rintro ⟨w, hw, hwid, hs⟩
        exact ⟨w, hback t w hw, hwid, hs⟩
      · rintro ⟨w, hw, hwid, hs⟩
        exact ⟨w, hpend t w hw hs, hwid, hs⟩
  · intro id₁ id₂ ref' h₁ h₂
    by_cases h₁d : id₁ = id
    · by_cases h₂d : id₂ = id
      · rw [h₁d, h₂d]
      · simp only [h₁d, Function.update_self, Option.some.injEq] at h₁
        simp only [Function.update_of_ne h₂d] at h₂
        exact absurd h₁.symm (hnew id₂ ref' h₂)
    · simp only [Function.update_of_ne h₁d] at h₁
      by_cases h₂d : id₂ = id
      · simp only [h₂d, Function.update_self, Option.some.injEq] at h₂
        exact absurd h₂.symm (hnew id₁ ref' h₁)
      · simp only [Function.update_of_ne h₂d] at h₂
        exact h.injective id₁ id₂ ref' h₁ h₂
  · intro t w hw hs
    have hw' := hpend t w hw hs
    have hid : w.id ≠ id := fun he => h.free hl hw' he hs
    simp only [Function.update_of_ne hid]
    exact h.captured t w hw' hs

theorem Table.enterHeld (h : Table s) (hp : Promises s) (hl : s.locks id = some ref) :
    Table (s.enter i id).2 := by
  rw [enter_held hl (h.entry id ref hl).2]
  have hne : ∀ id' ref', s.locks id' = some ref' → id' ≠ id → ref' ≠ ref := by
    rintro id' ref' h' hid rfl
    exact hid (h.injective id' id ref' h' hl)
  refine ⟨?_, ?_, ?_, h.injective, ?_⟩
  · intro id' ref' h'
    refine ⟨(h.entry id' ref' h').1, ?_⟩
    by_cases hr : ref' = ref
    · simp [hr]
    · simpa only [Function.update_of_ne hr] using (h.entry id' ref' h').2
  · intro id' ref' h'
    by_cases hid : id' = id
    · rw [hid, hl] at h'
      obtain rfl := Option.some.inj h'
      simp only [Function.update_self]
      refine List.pairwise_append.mpr ⟨h.sorted id ref hl, List.pairwise_singleton _ _, ?_⟩
      intro a ha b hb
      rw [List.mem_singleton] at hb
      obtain ⟨w, hw, -, -⟩ := (h.queued id ref hl a).mp ha
      rw [hb]
      exact hp.bound a w hw
    · simpa only [Function.update_of_ne (hne id' ref' h' hid)] using h.sorted id' ref' h'
  · intro id' ref' h' t
    by_cases ht : t = s.nextTicket
    · have hold : ∀ w, s.waiters t ≠ some w := fun w hw => absurd (hp.bound t w hw) (by omega)
      by_cases hid : id' = id
      · rw [hid, hl] at h'
        obtain rfl := Option.some.inj h'
        simp [ht, hid]
      · simp only [Function.update_of_ne (hne id' ref' h' hid)]
        rw [h.queued id' ref' h' t]
        constructor
        · rintro ⟨w, hw, -, -⟩
          exact absurd hw (hold w)
        · rintro ⟨w, hw, hwid, -⟩
          rw [ht, Function.update_self] at hw
          exact absurd ((congrArg Waiter.id (Option.some.inj hw)).trans hwid).symm hid
    · simp only [Function.update_of_ne ht]
      rw [← h.queued id' ref' h' t]
      by_cases hr : ref' = ref
      · simp [hr, ht]
      · simp only [Function.update_of_ne hr]
  · intro t w hw hs
    by_cases ht : t = s.nextTicket
    · simp only [ht, Function.update_self] at hw
      obtain rfl := Option.some.inj hw
      exact hl
    · simp only [Function.update_of_ne ht] at hw
      exact h.captured t w hw hs

theorem Table.releaseLast (h : Table s) (hl : s.locks id = some ref)
    (hq : (s.entries ref).queue = []) : Table (s.release id) := by
  rw [release_last hl hq]
  have hold : ∀ {id' ref'}, Function.update s.locks id none id' = some ref' →
      s.locks id' = some ref' := by
    intro id' ref' h'
    by_cases hid : id' = id
    · rw [hid, Function.update_self] at h'
      cases h'
    · rwa [Function.update_of_ne hid] at h'
  refine ⟨fun id' ref' h' => h.entry id' ref' (hold h'),
    fun id' ref' h' => h.sorted id' ref' (hold h'),
    fun id' ref' h' => h.queued id' ref' (hold h'),
    fun id₁ id₂ ref' h₁ h₂ => h.injective id₁ id₂ ref' (hold h₁) (hold h₂), ?_⟩
  intro t w hw hs
  have hid : w.id ≠ id := by
    intro he
    have hm := (h.queued id ref hl t).mpr ⟨w, hw, he, hs⟩
    rw [hq] at hm
    cases hm
  simp only [Function.update_of_ne hid]
  exact h.captured t w hw hs

omit [DecidableEq Id] in
/-- A pending promise leaves its queue and is pending no more. -/
theorem Table.dequeue {s' : Mutex ι Id} (h : Table s) {t : ℕ} {w v : Waiter ι Id}
    (hw : s.waiters t = some w) (hs : w.status = .pending) (hs' : v.status ≠ .pending)
    (hlocks : s'.locks = s.locks) (hnext : s'.nextRef = s.nextRef)
    (hwaiters : s'.waiters = Function.update s.waiters t (some v))
    (hentries : s'.entries = Function.update s.entries w.entry
      ⟨(s.entries w.entry).queue.erase t, true⟩) : Table s' := by
  have hl := h.captured t w hw hs
  have hpend : ∀ a u, s'.waiters a = some u → u.status = .pending →
      a ≠ t ∧ s.waiters a = some u := by
    intro a u hv hp
    rw [hwaiters] at hv
    by_cases ha : a = t
    · rw [ha, Function.update_self] at hv
      rw [← Option.some.inj hv] at hp
      exact absurd hp hs'
    · rw [Function.update_of_ne ha] at hv
      exact ⟨ha, hv⟩
  have hback : ∀ a v, a ≠ t → s.waiters a = some v → s'.waiters a = some v := by
    intro a v ha hv
    rw [hwaiters, Function.update_of_ne ha, hv]
  refine ⟨?_, ?_, ?_, ?_, ?_⟩
  · intro id' ref' h'
    rw [hlocks] at h'
    rw [hnext, hentries]
    refine ⟨(h.entry id' ref' h').1, ?_⟩
    by_cases hr : ref' = w.entry
    · simp [hr]
    · simpa only [Function.update_of_ne hr] using (h.entry id' ref' h').2
  · intro id' ref' h'
    rw [hlocks] at h'
    rw [hentries]
    by_cases hr : ref' = w.entry
    · subst hr
      simp only [Function.update_self]
      exact (h.sorted id' _ h').sublist List.erase_sublist
    · simpa only [Function.update_of_ne hr] using h.sorted id' ref' h'
  · intro id' ref' h' a
    rw [hlocks] at h'
    rw [hentries]
    have hold := h.queued id' ref' h' a
    have hmove : a ≠ t → ((∃ v, s.waiters a = some v ∧ v.id = id' ∧ v.status = .pending) ↔
        ∃ v, s'.waiters a = some v ∧ v.id = id' ∧ v.status = .pending) := fun ha =>
      ⟨fun ⟨v, hv, hvid, hp⟩ => ⟨v, hback a v ha hv, hvid, hp⟩,
        fun ⟨v, hv, hvid, hp⟩ => ⟨v, (hpend a v hv hp).2, hvid, hp⟩⟩
    have hgone : ¬ ∃ v, s'.waiters t = some v ∧ v.id = id' ∧ v.status = .pending :=
      fun ⟨v, hv, _, hp⟩ => (hpend t v hv hp).1 rfl
    by_cases hr : ref' = w.entry
    · subst hr
      have hid := h.injective id' w.id _ h' hl
      simp only [Function.update_self]
      by_cases ha : a = t
      · subst ha
        have hd : (s.entries w.entry).queue.Nodup := (h.sorted id' _ h').imp fun hlt => hlt.ne
        have hn : a ∉ (s.entries w.entry).queue.erase a := hd.not_mem_erase
        simp only [hn, false_iff]
        exact hgone
      · rw [List.mem_erase_of_ne ha, hold]
        exact hmove ha
    · simp only [Function.update_of_ne hr]
      by_cases ha : a = t
      · subst ha
        rw [hold]
        constructor
        · rintro ⟨v, hv, hvid, hp⟩
          rw [hw] at hv
          obtain rfl := Option.some.inj hv
          rw [hvid, h'] at hl
          exact absurd (Option.some.inj hl) hr
        · exact fun hx => absurd hx hgone
      · rw [hold]
        exact hmove ha
  · rw [hlocks]
    exact h.injective
  · intro a v hv hp
    rw [hlocks]
    exact h.captured a v (hpend a v hv hp).2 hp

end Table

/-! ## Exclusive holdings -/

/-- Nothing is held twice, neither by one holder nor by two. -/
structure Exclusive (H : ι → List Id) : Prop where
  /-- A holder holds a thing once. -/
  once : ∀ i, (H i).Nodup
  /-- A thing has one holder. -/
  unique : ∀ i j id, id ∈ H i → id ∈ H j → i = j

section Exclusive

variable {H : ι → List Id}

/-- Taking what nobody holds. -/
theorem Exclusive.gain (h : Exclusive H) (i : ι) (id : Id) (G : ι → List Id)
    (hfree : ¬ ∃ j, id ∈ H j) (hi : G i = H i ++ [id])
    (ho : ∀ j, j ≠ i → G j = H j) :
    Exclusive G ∧ ∀ id', (∃ j, id' ∈ G j) ↔ (∃ j, id' ∈ H j) ∨ id' = id := by
  have hmem : ∀ j id', id' ∈ G j ↔ id' ∈ H j ∨ j = i ∧ id' = id := by
    intro j id'
    by_cases hj : j = i
    · simp [hj, hi]
    · simp [hj, ho j hj]
  have hnot : ∀ j, id ∉ H j := fun j hj => hfree ⟨j, hj⟩
  refine ⟨⟨fun j => ?_, fun j k id' hj hk => ?_⟩, fun id' => ?_⟩
  · by_cases hj : j = i
    · rw [hj, hi]
      exact List.nodup_append.mpr ⟨h.once i, List.nodup_singleton id,
        fun a ha b hb he => hnot i (by rw [List.mem_singleton] at hb; rwa [← hb, ← he])⟩
    · rw [ho j hj]
      exact h.once j
  · rcases (hmem j id').mp hj with hj | ⟨rfl, rfl⟩
    · rcases (hmem k id').mp hk with hk | ⟨rfl, rfl⟩
      · exact h.unique j k id' hj hk
      · exact absurd hj (hnot j)
    · rcases (hmem k id').mp hk with hk | ⟨rfl, -⟩
      · exact absurd hk (hnot k)
      · rfl
  · constructor
    · rintro ⟨j, hj⟩
      exact ((hmem j id').mp hj).imp (fun hj => ⟨j, hj⟩) And.right
    · rintro (⟨j, hj⟩ | rfl)
      · exact ⟨j, (hmem j id').mpr (Or.inl hj)⟩
      · exact ⟨i, (hmem i id').mpr (Or.inr ⟨rfl, rfl⟩)⟩

/-- Giving up the first of one's holdings. -/
theorem Exclusive.lose (h : Exclusive H) (i : ι) (id : Id) (G : ι → List Id)
    (hi : H i = id :: G i)
    (ho : ∀ j, j ≠ i → G j = H j) :
    Exclusive G ∧ ∀ id', (∃ j, id' ∈ G j) ↔ (∃ j, id' ∈ H j) ∧ id' ≠ id := by
  have hsub : ∀ j id', id' ∈ G j → id' ∈ H j := by
    intro j id' hj
    by_cases hji : j = i
    · subst hji
      rw [hi]
      exact List.mem_cons_of_mem id hj
    · rwa [ho j hji] at hj
  have honce := h.once i
  rw [hi, List.nodup_cons] at honce
  have hmine : id ∈ H i := hi ▸ List.mem_cons_self
  refine ⟨⟨fun j => ?_, fun j k id' hj hk => h.unique j k id' (hsub j id' hj) (hsub k id' hk)⟩,
    fun id' => ⟨fun ⟨j, hj⟩ => ⟨⟨j, hsub j id' hj⟩, ?_⟩, fun ⟨⟨j, hj⟩, hne⟩ => ⟨j, ?_⟩⟩⟩
  · by_cases hji : j = i
    · rw [hji]
      exact honce.2
    · rw [ho j hji]
      exact h.once j
  · rintro rfl
    have hji := h.unique j i id' (hsub j id' hj) hmine
    subst hji
    exact honce.1 hj
  · by_cases hji : j = i
    · subst hji
      rw [hi] at hj
      exact (List.mem_cons.mp hj).resolve_left hne
    · rwa [ho j hji]

end Exclusive

/-! ## The protocol of a call -/

/-- Where a call of `withTournamentLock` is. -/
inductive Stage (Id : Type) where
  /-- It holds `taken` and will ask for `rest`, then run its callback. -/
  | acquiring (taken rest : List Id)
  /-- It awaits the promise `t` of `id`. -/
  | waiting (taken : List Id) (id : Id) (rest : List Id) (t : ℕ)
  /-- It has released `done` and will release `todo`. -/
  | releasing (done todo : List Id)
  /-- A synchronous call has thrown, which none does. -/
  | broken

/-- The operation a call issues at its stage. -/
def Allowed : Stage Id → MutexOp Id → Prop
  | .acquiring _ (id :: _), .enter id' => id' = id
  | .acquiring _ [], .callback => True
  | .waiting _ _ _ t, .wait t' => t' = t
  | .releasing _ (id :: _), .release id' => id' = id
  | _, _ => False

section Allowed

variable {stage : Stage Id} {id : Id} {t : ℕ}

theorem Allowed.enter (h : Allowed stage (.enter id)) :
    ∃ taken rest, stage = .acquiring taken (id :: rest) := by
  cases stage with
  | acquiring taken rest =>
    cases rest with
    | nil => exact False.elim h
    | cons id' rest =>
      obtain rfl : id = id' := h
      exact ⟨taken, rest, rfl⟩
  | releasing _ todo => cases todo <;> exact False.elim h
  | _ => exact False.elim h

theorem Allowed.callback (h : Allowed stage .callback) : ∃ taken, stage = .acquiring taken [] := by
  cases stage with
  | acquiring taken rest =>
    cases rest with
    | nil => exact ⟨taken, rfl⟩
    | cons _ _ => exact False.elim h
  | releasing _ todo => cases todo <;> exact False.elim h
  | _ => exact False.elim h

theorem Allowed.wait (h : Allowed stage (.wait t)) :
    ∃ taken id rest, stage = .waiting taken id rest t := by
  cases stage with
  | waiting taken id rest t' =>
    obtain rfl : t = t' := h
    exact ⟨taken, id, rest, rfl⟩
  | acquiring _ rest => cases rest <;> exact False.elim h
  | releasing _ todo => cases todo <;> exact False.elim h
  | broken => exact False.elim h

theorem Allowed.release (h : Allowed stage (.release id)) :
    ∃ done todo, stage = .releasing done (id :: todo) := by
  cases stage with
  | releasing done todo =>
    cases todo with
    | nil => exact False.elim h
    | cons id' todo =>
      obtain rfl : id = id' := h
      exact ⟨done, todo, rfl⟩
  | acquiring _ rest => cases rest <;> exact False.elim h
  | _ => exact False.elim h

end Allowed

/-- The stage after an answer. -/
def next (T : Type) : Stage Id → (op : MutexOp Id) → Except String (op.Ans T) → Stage Id
  | .acquiring taken (id :: rest), .enter _, .ok t => .waiting taken id rest t
  | .acquiring taken (_ :: _), .enter _, .error _ => .releasing [] taken
  | .acquiring taken [], .callback, _ => .releasing [] taken
  | .waiting taken id rest _, .wait _, .ok _ => .acquiring (taken ++ [id]) rest
  | .waiting taken _ _ _, .wait _, .error _ => .releasing [] taken
  | .releasing done (id :: rest), .release _, .ok _ => .releasing (done ++ [id]) rest
  | _, _, _ => .broken

/-- The call has nothing left to release. -/
def Ended : Stage Id → Prop
  | .releasing _ [] => True
  | .broken => True
  | _ => False

section Follows

open Prog

variable (T : Type)

theorem follows_releaseAll (done todo : List Id) :
    Follows Allowed (next T) (fun stage out =>
      out = .ok () ∧ stage = .releasing (done ++ todo) [] ∨ (∃ e, out = .error e) ∧ stage = .broken)
      (.releasing done todo) (releaseAll T todo) := by
  induction todo generalizing done with
  | nil => exact Or.inl ⟨rfl, by simp⟩
  | cons id rest ih =>
    refine ⟨rfl, fun r => ?_⟩
    cases r with
    | error e => exact Or.inr ⟨⟨e, rfl⟩, rfl⟩
    | ok u =>
      have h := ih (done ++ [id])
      simp only [List.append_assoc, List.singleton_append] at h
      exact h

/-- After its releases a call is at its end, whatever it then returns or throws. -/
theorem follows_released {β : Type} (taken : List Id) (out : Except String β) :
    Follows Allowed (next T) (fun stage out' =>
      Ended stage ∧ ((∃ e, out = .error e) → ∃ e, out' = .error e)) (.releasing [] taken)
      ((releaseAll T taken).bind fun _ => (settled out : Call Id T β)) := by
  rw [follows_bind]
  refine (follows_releaseAll T [] taken).mono fun stage r h => ?_
  rcases h with ⟨rfl, rfl⟩ | ⟨⟨e, rfl⟩, rfl⟩
  · exact follows_settled ⟨trivial, id⟩
  · exact ⟨trivial, fun _ => ⟨e, rfl⟩⟩

theorem follows_acquireAll (taken rest : List Id) :
    Follows Allowed (next T) (fun stage out =>
      out = .ok () ∧ stage = .acquiring (taken ++ rest) [] ∨ (∃ e, out = .error e) ∧ Ended stage)
      (.acquiring taken rest) (acquireAll T taken rest) := by
  have hfail : ∀ (stage : Stage Id) (ids : List Id) (err : String),
      Follows Allowed (next T) (fun stage' out =>
        out = .ok () ∧ stage' = stage ∨ (∃ e, out = .error e) ∧ Ended stage') (.releasing [] ids)
        ((releaseAll T ids).bind fun _ => (.fail err : Call Id T Unit)) := fun stage ids err =>
    (follows_released T ids (.error err)).mono fun _ _ h => Or.inr ⟨h.2 ⟨err, rfl⟩, h.1⟩
  induction rest generalizing taken with
  | nil => exact Or.inl ⟨rfl, by simp⟩
  | cons id rest ih =>
    refine ⟨rfl, fun r => ?_⟩
    cases r with
    | error e => exact hfail _ taken e
    | ok t =>
      refine ⟨rfl, fun r => ?_⟩
      cases r with
      | error e => exact hfail _ taken e
      | ok u =>
        have h := ih (taken ++ [id])
        simp only [List.append_assoc, List.singleton_append] at h
        exact h

variable [LinearOrder Id]

/-- `withTournamentLock` follows the protocol. -/
theorem follows_withTournamentLock (tournamentIds : List Id) :
    Follows Allowed (next T) (fun stage _ => Ended stage)
      (.acquiring [] (sortedIds tournamentIds)) (withTournamentLock T tournamentIds) := by
  rw [withTournamentLock, follows_bind]
  refine (follows_acquireAll T [] (sortedIds tournamentIds)).mono fun stage out h => ?_
  rcases h with ⟨rfl, rfl⟩ | ⟨⟨e, rfl⟩, h⟩
  · refine ⟨trivial, fun r => ?_⟩
    cases r with
    | ok a => exact (follows_released T _ (.ok a)).mono fun _ _ h => h.1
    | error e => exact (follows_released T _ (.error e)).mono fun _ _ h => h.1
  · exact h

end Follows

/-! ## The invariant -/

/-- What a call holds at its stage: a granted lock is held before the call
notices. -/
def holdings (grants : List ℕ) : Stage Id → List Id
  | .acquiring taken _ => taken
  | .waiting taken id _ t => if t ∈ grants then taken ++ [id] else taken
  | .releasing _ todo => todo
  | .broken => []

/-- The histories and the promise of a call at its stage; `sorted` are its ids. -/
def CallInv (sorted : List Id) (s : Mutex ι Id) (i : ι) : Stage Id → Prop
  | .acquiring taken rest => taken ++ rest = sorted ∧ s.acquired i = taken ∧ s.released i = []
  | .waiting taken id rest t => taken ++ id :: rest = sorted ∧ s.acquired i = taken ∧
    s.released i = [] ∧ ∃ w, s.waiters t = some w ∧ w.call = i ∧ w.id = id
  | .releasing done todo => done ++ todo <+: sorted ∧ s.acquired i = done ++ todo ∧
    s.released i = done ∧ (done ++ todo).Nodup
  | .broken => False

/-- The stage awaits the promise `t` of `id`. -/
def Awaits (stage : Stage Id) (id : Id) (t : ℕ) : Prop :=
  ∃ taken rest, stage = .waiting taken id rest t

/-- The invariant of the mutex and its calls; `sorted` are their sorted ids. -/
structure Inv (sorted : ι → List Id) (s : Mutex ι Id) (stages : ι → Stage Id) : Prop where
  /-- The promises. -/
  promises : Promises s
  /-- The table. -/
  table : Table s
  /-- Every call is where its stage says. -/
  call : ∀ i, CallInv (sorted i) s i (stages i)
  /-- No lock is held twice. -/
  exclusive : Exclusive fun i => holdings s.grants (stages i)
  /-- The table has the locks that are held. -/
  held : ∀ id, s.locks id ≠ none ↔ ∃ i, id ∈ holdings s.grants (stages i)
  /-- A pending promise is awaited. -/
  waiting : ∀ t w, s.waiters t = some w → w.status = .pending → Awaits (stages w.call) w.id t
  /-- A granted promise is awaited, or its call has gone on with the lock. -/
  handed : ∀ t w, s.waiters t = some w → w.status = .resolved →
    Awaits (stages w.call) w.id t ∨ w.id ∈ s.acquired w.call

section Step

variable {sorted : ι → List Id} {s s' : Mutex ι Id} {stages : ι → Stage Id} {i : ι}

/-- A call's part of the invariant reads its histories and its promise. -/
theorem CallInv.congr {ids : List Id} {j : ι} {stage : Stage Id} (h : CallInv ids s j stage)
    (ha : s'.acquired j = s.acquired j) (hr : s'.released j = s.released j)
    (hw : ∀ t w, s.waiters t = some w →
      ∃ w', s'.waiters t = some w' ∧ w'.call = w.call ∧ w'.id = w.id) :
    CallInv ids s' j stage := by
  cases stage with
  | acquiring taken rest => exact ⟨h.1, ha.trans h.2.1, hr.trans h.2.2⟩
  | waiting taken id rest t =>
    obtain ⟨hs, hac, hre, w, hw', hc, hid⟩ := h
    obtain ⟨v, hv, hvc, hvid⟩ := hw t w hw'
    exact ⟨hs, ha.trans hac, hr.trans hre, v, hv, hvc.trans hc, hvid.trans hid⟩
  | releasing done todo => exact ⟨h.1, ha.trans h.2.1, hr.trans h.2.2.1, h.2.2.2⟩
  | broken => exact h

variable [DecidableEq ι]

theorem holdings_update {g : List ℕ} {stage : Stage Id} (j : ι) :
    holdings g (Function.update stages i stage j) =
      Function.update (fun j => holdings g (stages j)) i (holdings g stage) j := by
  by_cases hj : j = i
  · simp [hj]
  · simp [hj]

/-- A step of call `i` that touches neither the promises nor the table. -/
theorem Inv.quiet {stage : Stage Id} (h : Inv sorted s stages)
    (hw : s'.waiters = s.waiters) (hn : s'.nextTicket = s.nextTicket) (hg : s'.grants = s.grants)
    (hl : s'.locks = s.locks) (he : s'.entries = s.entries) (hnr : s'.nextRef = s.nextRef)
    (ha : ∀ j, j ≠ i → s'.acquired j = s.acquired j) (hr : ∀ j, s'.released j = s.released j)
    (hgrow : ∀ id ∈ s.acquired i, id ∈ s'.acquired i)
    (hi : CallInv (sorted i) s' i stage)
    (hold : holdings s.grants stage = holdings s.grants (stages i))
    (hpend : ∀ t w, s.waiters t = some w → Awaits (stages i) w.id t →
      w.status ≠ .pending ∧ (w.status = .resolved → w.id ∈ s'.acquired i)) :
    Inv sorted s' (Function.update stages i stage) := by
  have hsame : (fun j => holdings s'.grants (Function.update stages i stage j)) =
      fun j => holdings s.grants (stages j) := by
    funext j
    rw [hg, holdings_update]
    by_cases hj : j = i
    · rw [hj, Function.update_self, hold]
    · rw [Function.update_of_ne hj]
  refine ⟨?_, ?_, fun j => ?_, hsame ▸ h.exclusive, fun id => ?_, ?_, ?_⟩
  · obtain ⟨p₁, p₂, p₃, p₄, p₅⟩ := h.promises
    constructor <;> simpa only [hw, hn, hg]
  · obtain ⟨t₁, t₂, t₃, t₄, t₅⟩ := h.table
    constructor <;> simpa only [hw, hl, he, hnr]
  · by_cases hj : j = i
    · rw [hj, Function.update_self]
      exact hi
    · rw [Function.update_of_ne hj]
      refine (h.call j).congr (ha j hj) (hr j) fun t w hw' => ⟨w, ?_, rfl, rfl⟩
      rw [hw, hw']
  · rw [hl, h.held id]
    have hid := congrArg (fun H : ι → List Id => ∃ j, id ∈ H j) hsame
    exact (Iff.of_eq hid).symm
  · intro t w hw' hp
    rw [hw] at hw'
    have hawait := h.waiting t w hw' hp
    have hne : w.call ≠ i := by
      rintro rfl
      exact (hpend t w hw' hawait).1 hp
    rwa [Function.update_of_ne hne]
  · intro t w hw' hres
    rw [hw] at hw'
    by_cases hc : w.call = i
    · right
      rw [hc]
      rcases h.handed t w hw' hres with hawait | hmem
      · rw [hc] at hawait
        exact (hpend t w hw' hawait).2 hres
      · exact hgrow w.id (hc ▸ hmem)
    · rw [Function.update_of_ne hc, ha w.call hc]
      exact h.handed t w hw' hres

omit [DecidableEq ι] in
/-- A grant changes the holdings of the call that awaits it only. -/
theorem holdings_grant {g : List ℕ} {t : ℕ} {stage : Stage Id} (h : ∀ id, ¬ Awaits stage id t) :
    holdings (g ++ [t]) stage = holdings g stage := by
  cases stage with
  | waiting taken id rest t' =>
    have ht : t' ≠ t := by
      rintro rfl
      exact h id ⟨taken, rest, rfl⟩
    simp [holdings, ht]
  | _ => rfl

omit [DecidableEq ι] in
/-- An awaited promise is the call's own. -/
theorem Inv.awaited (h : Inv sorted s stages) {j : ι} {id : Id} {t : ℕ}
    (ha : Awaits (stages j) id t) : ∃ w, s.waiters t = some w ∧ w.call = j ∧ w.id = id := by
  obtain ⟨taken, rest, hs⟩ := ha
  have hc := h.call j
  rw [hs] at hc
  exact hc.2.2.2

omit [DecidableEq ι] in
/-- Only the call of a promise awaits it. -/
theorem Inv.awaiter (h : Inv sorted s stages) {t : ℕ} {w : Waiter ι Id}
    (hw : s.waiters t = some w) {j : ι} {id : Id} (ha : Awaits (stages j) id t) : j = w.call := by
  obtain ⟨v, hv, hc, -⟩ := h.awaited ha
  rw [hw] at hv
  rw [Option.some.inj hv, hc]

omit [DecidableEq ι] in
/-- A pending promise is not among the grants. -/
theorem Inv.not_granted (h : Inv sorted s stages) {t : ℕ} {w : Waiter ι Id}
    (hw : s.waiters t = some w) (hp : w.status ≠ .resolved) : t ∉ s.grants := by
  rw [h.promises.granted]
  rintro ⟨v, hv, hr⟩
  rw [hw] at hv
  rw [← Option.some.inj hv] at hr
  exact hp hr

omit [DecidableEq ι] in
theorem Inv.not_awaits_next (h : Inv sorted s stages) (j : ι) (id : Id) :
    ¬ Awaits (stages j) id s.nextTicket := by
  intro ha
  obtain ⟨w, hw, -, -⟩ := h.awaited ha
  exact absurd (h.promises.bound _ w hw) (lt_irrefl _)

/-- The calls and promises that a new promise leaves as they are. -/
theorem Inv.newPromise {taken rest : List Id} {id : Id} {w : Waiter ι Id}
    (h : Inv sorted s stages) (hs : stages i = .acquiring taken (id :: rest))
    (hcall : w.call = i) (hid : w.id = id) (hp : Promises s') (ht : Table s')
    (hw : s'.waiters = Function.update s.waiters s.nextTicket (some w))
    (ha : s'.acquired = s.acquired) (hr : s'.released = s.released)
    (hex : Exclusive fun j =>
      holdings s'.grants (Function.update stages i (.waiting taken id rest s.nextTicket) j))
    (hheld : ∀ id', s'.locks id' ≠ none ↔ ∃ j, id' ∈
      holdings s'.grants (Function.update stages i (.waiting taken id rest s.nextTicket) j)) :
    Inv sorted s' (Function.update stages i (.waiting taken id rest s.nextTicket)) := by
  have hself : s'.waiters s.nextTicket = some w := by rw [hw, Function.update_self]
  have hback : ∀ t v, t ≠ s.nextTicket → s'.waiters t = some v → s.waiters t = some v := by
    intro t v hne hv
    rwa [hw, Function.update_of_ne hne] at hv
  have hmove : ∀ j id' t, Awaits (stages j) id' t →
      Awaits (Function.update stages i (.waiting taken id rest s.nextTicket) j) id' t := by
    intro j id' t hj
    have hne : j ≠ i := by
      rintro rfl
      obtain ⟨_, _, he⟩ := hj
      rw [hs] at he
      cases he
    rwa [Function.update_of_ne hne]
  have hnew : Awaits (Function.update stages i (.waiting taken id rest s.nextTicket) i) id
      s.nextTicket := by
    rw [Function.update_self]
    exact ⟨taken, rest, rfl⟩
  refine ⟨hp, ht, fun j => ?_, hex, hheld, fun t v hv hpend => ?_, fun t v hv hres => ?_⟩
  · have hcj := h.call j
    by_cases hj : j = i
    · subst hj
      rw [hs] at hcj
      rw [Function.update_self]
      exact ⟨hcj.1, (congrFun ha j).trans hcj.2.1, (congrFun hr j).trans hcj.2.2, w, hself, hcall,
        hid⟩
    · rw [Function.update_of_ne hj]
      refine hcj.congr (congrFun ha j) (congrFun hr j) fun t v hv => ⟨v, ?_, rfl, rfl⟩
      rw [hw, Function.update_of_ne (h.promises.bound t v hv).ne, hv]
  · by_cases hne : t = s.nextTicket
    · rw [hne, hself] at hv
      obtain rfl := Option.some.inj hv
      rw [hcall, hid, hne]
      exact hnew
    · exact hmove _ _ _ (h.waiting t v (hback t v hne hv) hpend)
  · by_cases hne : t = s.nextTicket
    · rw [hne, hself] at hv
      obtain rfl := Option.some.inj hv
      rw [hcall, hid, hne]
      exact Or.inl hnew
    · rw [ha]
      exact (h.handed t v (hback t v hne hv) hres).imp (hmove _ _ _) fun hm => hm

/-- Taking a free lock. -/
theorem Inv.enterFree [DecidableEq Id] {taken rest : List Id} {id : Id}
    (h : Inv sorted s stages) (hs : stages i = .acquiring taken (id :: rest))
    (hl : s.locks id = none) :
    Inv sorted (s.enter i id).2
      (Function.update stages i (.waiting taken id rest s.nextTicket)) := by
  have hfree : ¬ ∃ j, id ∈ holdings s.grants (stages j) := fun hx => (h.held id).mpr hx hl
  have hgain := h.exclusive.gain i id (fun j => holdings (s.grants ++ [s.nextTicket])
      (Function.update stages i (.waiting taken id rest s.nextTicket) j)) hfree
    (by simp [hs, holdings])
    (fun j hj => by
      simp only [Function.update_of_ne hj]
      exact holdings_grant (h.not_awaits_next j))
  have hpr : Promises (s.enter i id).2 := by
    rw [enter_free hl]
    exact h.promises.makeResolved rfl rfl rfl rfl rfl fun t v hv hid => h.table.free hl hv hid
  refine h.newPromise hs (w := ⟨i, id, s.nextRef, false, .resolved⟩) rfl rfl hpr
    (h.table.enterFree h.promises hl) ?_ ?_ ?_ ?_ ?_
  · rw [enter_free hl]
  · rw [enter_free hl]
  · rw [enter_free hl]
  · rw [enter_free hl]
    exact hgain.1
  · intro id'
    rw [enter_free hl]
    rw [hgain.2 id', ← h.held id']
    by_cases hid : id' = id
    · simp [hid]
    · simp [hid]

/-- Queuing for a held lock. -/
theorem Inv.enterHeld [DecidableEq Id] {taken rest : List Id} {id : Id} {ref : ℕ}
    (h : Inv sorted s stages) (hs : stages i = .acquiring taken (id :: rest))
    (hl : s.locks id = some ref) :
    Inv sorted (s.enter i id).2
      (Function.update stages i (.waiting taken id rest s.nextTicket)) := by
  have ha := (h.table.entry id ref hl).2
  have hopen : s.nextTicket ∉ s.grants := by
    rw [h.promises.granted]
    rintro ⟨w, hw, -⟩
    exact absurd (h.promises.bound _ w hw) (lt_irrefl _)
  have hsame : (fun j => holdings s.grants
      (Function.update stages i (.waiting taken id rest s.nextTicket) j)) =
      fun j => holdings s.grants (stages j) := by
    funext j
    by_cases hj : j = i
    · simp [hj, hs, holdings, hopen]
    · rw [Function.update_of_ne hj]
  have hpr : Promises (s.enter i id).2 := by
    rw [enter_held hl ha]
    exact h.promises.makePending (w := ⟨i, id, ref, true, .pending⟩) rfl rfl rfl rfl rfl
  refine h.newPromise hs (w := ⟨i, id, ref, true, .pending⟩) rfl rfl hpr
    (h.table.enterHeld h.promises hl) ?_ ?_ ?_ ?_ ?_
  · rw [enter_held hl ha]
  · rw [enter_held hl ha]
  · rw [enter_held hl ha]
  · rw [enter_held hl ha]
    exact hsame ▸ h.exclusive
  · intro id'
    rw [enter_held hl ha]
    have hid := congrArg (fun H : ι → List Id => ∃ j, id' ∈ H j) hsame
    exact (h.held id').trans (Iff.of_eq hid).symm

/-- Call `i` gives up a lock that nobody waits for. -/
theorem Inv.releaseLast [DecidableEq Id] {done todo : List Id} {id : Id} {ref : ℕ}
    (h : Inv sorted s stages) (hs : stages i = .releasing done (id :: todo))
    (hl : s.locks id = some ref) (hq : (s.entries ref).queue = []) :
    Inv sorted
      { s.release id with released := Function.update s.released i (s.released i ++ [id]) }
      (Function.update stages i (.releasing (done ++ [id]) todo)) := by
  have hlose := h.exclusive.lose i id (fun j => holdings s.grants
      (Function.update stages i (.releasing (done ++ [id]) todo) j))
    (by simp [hs, holdings]) (fun j hj => by simp only [Function.update_of_ne hj])
  have hmove : ∀ j id' t, Awaits (stages j) id' t →
      Awaits (Function.update stages i (.releasing (done ++ [id]) todo) j) id' t := by
    intro j id' t hj
    have hne : j ≠ i := by
      rintro rfl
      obtain ⟨_, _, he⟩ := hj
      rw [hs] at he
      cases he
    rwa [Function.update_of_ne hne]
  obtain ⟨t₁, t₂, t₃, t₄, t₅⟩ := h.table.releaseLast hl hq
  obtain ⟨p₁, p₂, p₃, p₄, p₅⟩ := h.promises
  rw [release_last hl hq] at t₁ t₂ t₃ t₄ t₅ ⊢
  refine ⟨⟨p₁, p₂, p₃, p₄, p₅⟩, ⟨t₁, t₂, t₃, t₄, t₅⟩, fun j => ?_, hlose.1, fun id' => ?_,
    fun t w hw hp => hmove _ _ _ (h.waiting t w hw hp),
    fun t w hw hr => (h.handed t w hw hr).imp (hmove _ _ _) fun hm => hm⟩
  · have hcj := h.call j
    by_cases hj : j = i
    · subst hj
      rw [hs] at hcj
      rw [Function.update_self]
      exact ⟨by simpa using hcj.1, by simpa using hcj.2.1, by simp [hcj.2.2.1],
        by simpa using hcj.2.2.2⟩
    · rw [Function.update_of_ne hj]
      exact hcj.congr rfl (Function.update_of_ne hj _ _) fun t w hw => ⟨w, hw, rfl, rfl⟩
  · rw [hlose.2 id', ← h.held id']
    by_cases hid : id' = id
    · simp [hid]
    · simp [hid]

/-- Call `i` hands a lock to the first waiter of its queue. -/
theorem Inv.releaseHands [DecidableEq Id] {done todo : List Id} {id : Id} {ref t : ℕ}
    {queue : List ℕ} (h : Inv sorted s stages) (hs : stages i = .releasing done (id :: todo))
    (hl : s.locks id = some ref) (hq : (s.entries ref).queue = t :: queue) :
    Inv sorted
      { s.release id with released := Function.update s.released i (s.released i ++ [id]) }
      (Function.update stages i (.releasing (done ++ [id]) todo)) := by
  obtain ⟨w, hw, hwid, hp⟩ := (h.table.queued id ref hl t).mp (hq ▸ List.mem_cons_self)
  obtain ⟨taken, rest, hwait⟩ := h.waiting t w hw hp
  have hcall : w.call ≠ i := by
    rintro he
    rw [he, hs] at hwait
    cases hwait
  have hfirst : ∀ t' v, s.waiters t' = some v → v.id = w.id → v.status = .pending → t ≤ t' := by
    intro t' v hv hvid hvp
    have hm := (h.table.queued id ref hl t').mpr ⟨v, hv, hvid.trans hwid, hvp⟩
    have hsort := h.table.sorted id ref hl
    rw [hq] at hm hsort
    rcases List.mem_cons.mp hm with rfl | hm
    · exact le_rfl
    · exact ((List.pairwise_cons.mp hsort).1 t' hm).le
  have hopen : t ∉ s.grants := h.not_granted hw (by simp [hp])
  have hlose := h.exclusive.lose i id (fun j => holdings s.grants
      (Function.update stages i (.releasing (done ++ [id]) todo) j))
    (by simp [hs, holdings]) (fun j hj => by simp only [Function.update_of_ne hj])
  have hgain := hlose.1.gain w.call id (fun j => holdings (s.grants ++ [t])
      (Function.update stages i (.releasing (done ++ [id]) todo) j))
    (fun hx => ((hlose.2 id).mp hx).2 rfl)
    (by simp [Function.update_of_ne hcall, hwait, holdings, hopen, hwid])
    (fun j hj => holdings_grant fun id' ha => by
      by_cases hji : j = i
      · rw [hji, Function.update_self] at ha
        obtain ⟨_, _, he⟩ := ha
        cases he
      · rw [Function.update_of_ne hji] at ha
        exact hj (h.awaiter hw ha))
  have hmove : ∀ j id' t, Awaits (stages j) id' t →
      Awaits (Function.update stages i (.releasing (done ++ [id]) todo) j) id' t := by
    intro j id' t hj
    have hne : j ≠ i := by
      rintro rfl
      obtain ⟨_, _, he⟩ := hj
      rw [hs] at he
      cases he
    rwa [Function.update_of_ne hne]
  have hentry : s.locks id = some w.entry := hwid ▸ h.table.captured t w hw hp
  have href : ref = w.entry := Option.some.inj (hl.symm.trans hentry)
  have hrel := release_hands hl hq hw hp
  have hpr : Promises (s.release id) := h.promises.resolve hw hp (by rw [hrel]) (by rw [hrel])
    (by rw [hrel]) hfirst
  obtain ⟨p₁, p₂, p₃, p₄, p₅⟩ := hpr
  have htb : Table (s.release id) := h.table.dequeue
    (v := { w with armed := false, status := .resolved }) hw hp (by simp) (by rw [hrel])
    (by rw [hrel]) (by rw [hrel])
    (by rw [hrel, ← href, hq, List.erase_cons_head, (h.table.entry id ref hl).2])
  obtain ⟨t₁, t₂, t₃, t₄, t₅⟩ := htb
  have hwaiters : (s.release id).waiters = Function.update s.waiters t
      (some { w with armed := false, status := .resolved }) := by rw [hrel]
  have hacq : (s.release id).acquired = s.acquired := by rw [hrel]
  have hrels : (s.release id).released = s.released := by rw [hrel]
  refine ⟨⟨p₁, p₂, p₃, p₄, p₅⟩, ⟨t₁, t₂, t₃, t₄, t₅⟩, fun j => ?_, ?_, fun id' => ?_, ?_, ?_⟩
  · have hcj := h.call j
    by_cases hj : j = i
    · subst hj
      rw [hs] at hcj
      rw [Function.update_self]
      exact ⟨by simpa using hcj.1, by simpa [hacq] using hcj.2.1, by simp [hcj.2.2.1],
        by simpa using hcj.2.2.2⟩
    · rw [Function.update_of_ne hj]
      refine hcj.congr (congrFun hacq j) (Function.update_of_ne hj _ _) fun a v hv => ?_
      by_cases hat : a = t
      · subst hat
        rw [hw] at hv
        obtain rfl := Option.some.inj hv
        exact ⟨{ w with armed := false, status := .resolved },
          by rw [hwaiters, Function.update_self], rfl, rfl⟩
      · exact ⟨v, by rw [hwaiters, Function.update_of_ne hat, hv], rfl, rfl⟩
  · simpa only [hrel] using hgain.1
  · simp only [hrel]
    rw [hgain.2 id', hlose.2 id', ← h.held id']
    by_cases hid : id' = id
    · simp [hid, hl]
    · simp [hid]
  · intro a v hv hvp
    simp only [hwaiters] at hv
    by_cases hat : a = t
    · rw [hat, Function.update_self] at hv
      rw [← Option.some.inj hv] at hvp
      cases hvp
    · rw [Function.update_of_ne hat] at hv
      exact hmove _ _ _ (h.waiting a v hv hvp)
  · intro a v hv hvr
    simp only [hwaiters] at hv
    by_cases hat : a = t
    · rw [hat, Function.update_self] at hv
      rw [← Option.some.inj hv, hat]
      exact Or.inl (hmove _ _ _ ⟨taken, rest, hwait⟩)
    · rw [Function.update_of_ne hat] at hv
      simp only [hacq]
      exact (h.handed a v hv hvr).imp (hmove _ _ _) fun hm => hm

omit [DecidableEq ι] in
/-- A timer fires. -/
theorem Inv.timeout {t : ℕ} {w : Waiter ι Id} (h : Inv sorted s stages)
    (hw : s.waiters t = some w) (ha : w.armed = true) : Inv sorted (s.timeout t w) stages := by
  have hp := (h.promises.armed t w hw).mp ha
  have htime := timeout_pending (s := s) (t := t) hp
  have hwaiters : (s.timeout t w).waiters = Function.update s.waiters t
      (some { w with armed := false, status := .rejected }) := by rw [htime]
  have hpr : Promises (s.timeout t w) := h.promises.reject hw hp hwaiters (by rw [htime])
    (by rw [htime])
  have hl := h.table.captured t w hw hp
  have htb : Table (s.timeout t w) := h.table.dequeue
    (v := { w with armed := false, status := .rejected }) hw hp (by simp) (by rw [htime])
    (by rw [htime]) hwaiters (by rw [htime, (h.table.entry w.id w.entry hl).2])
  have hback : ∀ a v, (s.timeout t w).waiters a = some v → v.status ≠ .rejected →
      s.waiters a = some v := by
    intro a v hv hr
    rw [hwaiters] at hv
    by_cases hat : a = t
    · rw [hat, Function.update_self] at hv
      rw [← Option.some.inj hv] at hr
      exact absurd rfl hr
    · rwa [Function.update_of_ne hat] at hv
  refine ⟨hpr, htb, fun j => ?_, ?_, ?_, fun a v hv hvp => ?_, fun a v hv hvr => ?_⟩
  · refine (h.call j).congr (by rw [htime]) (by rw [htime]) fun a v hv => ?_
    by_cases hat : a = t
    · subst hat
      rw [hw] at hv
      obtain rfl := Option.some.inj hv
      exact ⟨{ w with armed := false, status := .rejected },
        by rw [hwaiters, Function.update_self], rfl, rfl⟩
    · exact ⟨v, by rw [hwaiters, Function.update_of_ne hat, hv], rfl, rfl⟩
  · rw [htime]
    exact h.exclusive
  · rw [htime]
    exact h.held
  · exact h.waiting a v (hback a v hv (by simp [hvp])) hvp
  · rw [show (s.timeout t w).acquired = s.acquired by rw [htime]]
    exact h.handed a v (hback a v hv (by simp [hvr])) hvr

/-- A promise settles for the call that awaits it. -/
theorem Inv.settles [DecidableEq Id] {T : Type} {taken rest : List Id} {id : Id} {t : ℕ}
    {r : Except String Unit} (h : Inv sorted s stages) (hs : stages i = .waiting taken id rest t)
    (ha : Answers T s i (.wait t) r s') :
    Inv sorted s' (Function.update stages i (next T (.waiting taken id rest t) (.wait t) r)) := by
  have hc := h.call i
  rw [hs] at hc
  obtain ⟨hsorted, hacq, hrel, v, hv, -, hid⟩ := hc
  obtain ⟨w, hw, ha⟩ := ha
  rw [hw] at hv
  obtain rfl := Option.some.inj hv
  have honce : taken.Nodup := by
    have hn := h.exclusive.once i
    rw [hs, holdings] at hn
    split at hn
    · exact (List.nodup_append.mp hn).1
    · exact hn
  have hsame : ∀ t' id', Awaits (stages i) id' t' → t' = t := by
    rintro t' id' ⟨_, _, he⟩
    rw [hs] at he
    cases he
    rfl
  rcases ha with ⟨hres, rfl, rfl⟩ | ⟨hrej, rfl, rfl⟩
  · refine h.quiet rfl rfl rfl rfl rfl rfl (fun j hj => Function.update_of_ne hj _ _)
      (fun _ => rfl) ?_ ?_ ?_ ?_
    · intro id' hm
      simp [hm]
    · refine ⟨by simpa using hsorted, ?_, hrel⟩
      simp [hacq, hid]
    · have hg : t ∈ s.grants := (h.promises.granted t).mpr ⟨w, hw, hres⟩
      simp [holdings, next, hs, hg]
    · intro t' v hv hawait
      obtain rfl := hsame t' v.id hawait
      rw [hw] at hv
      obtain rfl := Option.some.inj hv
      exact ⟨by simp [hres], fun _ => by simp⟩
  · refine h.quiet rfl rfl rfl rfl rfl rfl (fun _ _ => rfl) (fun _ => rfl) (fun _ hm => hm)
      ?_ ?_ ?_
    · exact ⟨⟨id :: rest, by simpa using hsorted⟩, by simpa using hacq, hrel, by simpa using honce⟩
    · have hg := h.not_granted hw (by simp [hrej])
      simp [holdings, next, hs, hg]
    · intro t' v hv hawait
      obtain rfl := hsame t' v.id hawait
      rw [hw] at hv
      obtain rfl := Option.some.inj hv
      exact ⟨by simp [hrej], fun hr => by rw [hrej] at hr; cases hr⟩

/-- Every operation that a stage allows keeps the invariant. -/
theorem Inv.answers [DecidableEq Id] {T : Type} {op : MutexOp Id} {r : Except String (op.Ans T)}
    (h : Inv sorted s stages) (hal : Allowed (stages i) op) (ha : Answers T s i op r s') :
    Inv sorted s' (Function.update stages i (next T (stages i) op r)) := by
  cases op with
  | enter id =>
    obtain ⟨taken, rest, hs⟩ := hal.enter
    obtain ⟨rfl, rfl⟩ := ha
    rw [hs]
    cases hl : s.locks id with
    | none =>
      have hi := h.enterFree hs hl
      rw [enter_free hl] at hi ⊢
      exact hi
    | some ref =>
      have hi := h.enterHeld hs hl
      rw [enter_held hl (h.table.entry id ref hl).2] at hi ⊢
      exact hi
  | wait t =>
    obtain ⟨taken, id, rest, hs⟩ := hal.wait
    rw [hs]
    exact h.settles hs ha
  | callback =>
    obtain ⟨taken, hs⟩ := hal.callback
    obtain rfl : s' = s := ha
    have hc := h.call i
    have hn := h.exclusive.once i
    rw [hs] at hc ⊢
    rw [hs, holdings] at hn
    refine h.quiet rfl rfl rfl rfl rfl rfl (fun _ _ => rfl) (fun _ => rfl) (fun _ hm => hm)
      ?_ ?_ ?_
    · exact ⟨⟨[], by simpa using hc.1⟩, hc.2.1, hc.2.2, by simpa using hn⟩
    · simp [holdings, next, hs]
    · rintro t w - ⟨_, _, he⟩
      rw [hs] at he
      cases he
  | release id =>
    obtain ⟨done, todo, hs⟩ := hal.release
    obtain ⟨rfl, rfl⟩ := ha
    rw [hs]
    have hheld : s.locks id ≠ none := (h.held id).mpr ⟨i, by simp [hs, holdings]⟩
    obtain ⟨ref, hl⟩ := Option.ne_none_iff_exists'.mp hheld
    cases hq : (s.entries ref).queue with
    | nil => exact h.releaseLast hs hl hq
    | cons t queue => exact h.releaseHands hs hl hq

end Step

/-- Before the first call. -/
theorem inv_initial (sorted : ι → List Id) :
    Inv sorted (Mutex.initial : Mutex ι Id) fun i => .acquiring [] (sorted i) where
  promises := promises_initial
  table := table_initial
  call i := ⟨rfl, rfl, rfl⟩
  exclusive := ⟨fun _ => List.nodup_nil, fun i j id h => by cases h⟩
  held id := by simp [Mutex.initial, holdings]
  waiting t w h := by cases h
  handed t w h := by cases h

section Reachable

variable [DecidableEq ι] [LinearOrder Id] {T : Type} {ids : ι → List Id}

/-- In every state of every run the invariant holds, and every call is at its stage. -/
theorem reachable_inv {c : State ι Id T} (hr : Reachable (mutexSystem T) (start T ids) c) :
    ∃ stages, Inv (fun i => sortedIds (ids i)) c.shared stages ∧
      ∀ i, Prog.Follows Allowed (next T) (fun stage _ => Ended stage) (stages i)
        (c.threads i) := by
  have hanswer : ∀ (s : Mutex ι Id) (stages : ι → Stage Id) i op r s',
      Inv (fun i => sortedIds (ids i)) s stages → Allowed (stages i) op → Answers T s i op r s' →
        Inv (fun i => sortedIds (ids i)) s'
          (Function.update stages i (next T (stages i) op r)) :=
    fun s stages i op r s' h hal ha => h.answers hal ha
  have htimer : ∀ (s : Mutex ι Id) (stages : ι → Stage Id) s',
      Inv (fun i => sortedIds (ids i)) s stages → TimerFires s s' →
        Inv (fun i => sortedIds (ids i)) s' stages := by
    rintro s stages s' h ⟨t, w, hw, ha, rfl⟩
    exact h.timeout hw ha
  exact reachable_follows hanswer htimer (inv_initial fun i => sortedIds (ids i))
    (fun i => follows_withTournamentLock T (ids i)) hr

end Reachable

end FactoryServer.MutexInvariant
