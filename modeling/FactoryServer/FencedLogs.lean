import FactoryServer.RowSessions

/-!
# The log of a row under share locks

What is inserted under a share lock, from the version that was committed then, is
ordered with what the sessions insert that write the row: every write of a higher
number inserts after it. A mark is never made for a write that the committed row
does not have.
-/

namespace FactoryServer.FencedLogs

open RowSessions

variable {K B D I N : Type}

/-- The committed row, if there is one, is of this write or of a later one. -/
def Within (s : Database K B D I N) (n : ℕ) : Prop :=
  n < s.versions.length ∧ ∀ v, s.row = some v → n ≤ v.number

/-- It is so, or the session is writing the row. -/
def Known (s : Database K B D I N) (p n : ℕ) : Prop :=
  n < s.versions.length ∧ (s.writer = some p ∨ ∀ v, s.row = some v → n ≤ v.number)

/-- A row of the log, committed or not. -/
def Live (s : Database K B D I N) (e : LogRow B D I) : Prop :=
  e ∈ s.log ∨ ∃ p, e ∈ (s.sessions p).log

/-- The versions and the locks on the row. -/
structure Rows (s : Database K B D I N) : Prop where
  /-- Versions are numbered from zero. -/
  number : ∀ v ∈ s.versions, v.number < s.versions.length
  /-- No two writes have one stamp. -/
  fresh : ∀ v ∈ s.versions, ∀ w ∈ s.versions, v.stamp = w.stamp → v = w
  /-- The committed row has been written. -/
  stored : ∀ v, s.row = some v → v ∈ s.versions
  /-- Who has written the row holds it, and nobody has written it since. -/
  written : ∀ p v, (s.sessions p).written = some v →
    s.writer = some p ∧ v ∈ s.versions ∧ v.number + 1 = s.versions.length
  /-- Who holds the row has written it. -/
  held : ∀ p, s.writer = some p → (s.sessions p).written ≠ none
  /-- Nobody shares a row that is being written. -/
  alone : s.writer ≠ none → s.readers = []

/-- The log. -/
structure Logs (s : Database K B D I N) : Prop where
  /-- The numbers come from the sequence. -/
  seq : ∀ e, Live s e → e.seq < s.nextSeq
  /-- What is built is built from the row that is found. -/
  found : ∀ e, Live s e → ∀ b v, e.origin = .build b v → e.found = some v
  /-- Later writes insert after what was built. -/
  order : ∀ e e', Live s e → Live s e' → ∀ b v n, e.origin = .build b v →
    e'.origin = .write n → v.number < n → e.seq < e'.seq
  /-- What is committed comes from writes that the row has. -/
  logged : ∀ e ∈ s.log, ∀ n, e.origin = .write n → Within s n
  /-- So does what is not, apart from a write that is not committed either. -/
  logging : ∀ p, ∀ e ∈ (s.sessions p).log, ∀ n, e.origin = .write n → Known s p n

/-- The marks. -/
structure Marks (s : Database K B D I N) : Prop where
  /-- A mark is made for a write that the row has. -/
  made : ∀ k mark, s.marks k = some mark → Within s mark.maker
  /-- So is one that is not committed, apart from its own write. -/
  making : ∀ p k mark, (s.sessions p).marks k = some (some mark) → Known s p mark.maker

/-- The invariant of the statements. -/
structure Sound (s : Database K B D I N) : Prop extends Rows s, Logs s, Marks s

/-- What a statement of another session leaves to a session. -/
structure Keeps (s s' : Database K B D I N) (p : ℕ) : Prop where
  /-- Its own writes. -/
  session : s'.sessions p = s.sessions p
  /-- The versions. -/
  versions : ∀ v ∈ s.versions, v ∈ s'.versions
  /-- What the row has. -/
  within : ∀ n, Within s n → Within s' n
  /-- What it knows. -/
  known : ∀ n, Known s p n → Known s' p n
  /-- The row that it shares. -/
  reader : p ∈ s.readers → p ∈ s'.readers ∧ s'.row = s.row

theorem Keeps.refl (s : Database K B D I N) (p : ℕ) : Keeps s s p where
  session := rfl
  versions _ h := h
  within _ h := h
  known _ h := h
  reader h := ⟨h, rfl⟩

theorem Keeps.trans {s s' s'' : Database K B D I N} {p : ℕ} (h : Keeps s s' p)
    (h' : Keeps s' s'' p) : Keeps s s'' p where
  session := h'.session.trans h.session
  versions v hv := h'.versions v (h.versions v hv)
  within n hn := h'.within n (h.within n hn)
  known n hn := h'.known n (h.known n hn)
  reader hr := by
    obtain ⟨hmem, hrow⟩ := h.reader hr
    obtain ⟨hmem', hrow'⟩ := h'.reader hmem
    exact ⟨hmem', hrow'.trans hrow⟩

section Reading

variable {s : Database K B D I N} {p : ℕ}

theorem Within.known {n : ℕ} (h : Within s n) : Known s p n := ⟨h.1, Or.inr h.2⟩

/-- Nobody writes while the row is shared. -/
theorem Rows.unwritten (h : Rows s) (hp : p ∈ s.readers) : s.writer = none := by
  by_contra hne
  rw [h.alone hne] at hp
  cases hp

/-- A session's own write is known to it. -/
theorem Rows.known_written (h : Rows s) {v : Version D} (hv : (s.sessions p).written = some v) :
    Known s p v.number := by
  obtain ⟨hwriter, hmem, -⟩ := h.written p v hv
  exact ⟨h.number v hmem, Or.inl hwriter⟩

end Reading

theorem sound_initial : Sound (Database.initial : Database K B D I N) where
  number v h := by cases h
  fresh v h := by cases h
  stored v h := by cases h
  written p v h := by cases h
  held p h := by cases h
  alone _ := rfl
  seq e h := by rcases h with h | ⟨p, h⟩ <;> cases h
  found e h := by rcases h with h | ⟨p, h⟩ <;> cases h
  order e e' h := by rcases h with h | ⟨p, h⟩ <;> cases h
  logged e h := by cases h
  logging p e h := by cases h
  made k mark h := by cases h
  making p k mark h := by cases h

/-- Without new rows of the log, their order stays. -/
theorem Logs.of_live {s s' : Database K B D I N} (h : Logs s) (hseq : s.nextSeq ≤ s'.nextSeq)
    (hlive : ∀ e, Live s' e → Live s e)
    (logged : ∀ e ∈ s'.log, ∀ n, e.origin = .write n → Within s' n)
    (logging : ∀ p, ∀ e ∈ (s'.sessions p).log, ∀ n, e.origin = .write n → Known s' p n) :
    Logs s' where
  seq e he := lt_of_lt_of_le (h.seq e (hlive e he)) hseq
  found e he := h.found e (hlive e he)
  order e e' he he' := h.order e e' (hlive e he) (hlive e' he')
  logged := logged
  logging := logging

/-! ## Writing the row -/

section Writing

variable {s s' : Database K B D I N} {p q : ℕ} {data : D} {stamp : ℕ}

/-- What a write does, and when it does not wait. -/
theorem write_eq (h : s.write p data stamp = some s') :
    s.writer = none ∧ s.readers = [] ∧ (∀ v ∈ s.versions, v.stamp ≠ stamp) ∧
      s' = { s with
        sessions := Function.update s.sessions p
          { s.sessions p with written := some ⟨s.versions.length, stamp, data⟩ }
        writer := some p
        versions := ⟨s.versions.length, stamp, data⟩ :: s.versions } := by
  unfold Database.write at h
  split_ifs at h with hfree
  exact ⟨hfree.1, hfree.2.1, hfree.2.2, (Option.some.inj h).symm⟩

theorem Within.write (h : s.write p data stamp = some s') {n : ℕ} (hn : Within s n) :
    Within s' n := by
  obtain ⟨-, -, -, rfl⟩ := write_eq h
  exact ⟨Nat.lt_succ_of_lt hn.1, hn.2⟩

theorem Known.write (h : s.write p data stamp = some s') {n : ℕ} (hn : Known s q n) :
    Known s' q n := by
  obtain ⟨hfree, -, -, rfl⟩ := write_eq h
  have hrow : ∀ v, s.row = some v → n ≤ v.number := by
    rcases hn.2 with hw | hrow
    · rw [hfree] at hw
      cases hw
    · exact hrow
  exact ⟨Nat.lt_succ_of_lt hn.1, Or.inr hrow⟩

/-- A write changes one entry of one session. -/
theorem sessions_write (h : s.write p data stamp = some s') (q : ℕ) :
    (s'.sessions q).log = (s.sessions q).log ∧ (s'.sessions q).marks = (s.sessions q).marks := by
  obtain ⟨-, -, -, rfl⟩ := write_eq h
  by_cases hq : q = p
  · subst hq
    simp
  · simp [hq]

theorem log_write (h : s.write p data stamp = some s') : s'.log = s.log := by
  obtain ⟨-, -, -, rfl⟩ := write_eq h
  rfl

theorem live_write (h : s.write p data stamp = some s') {e : LogRow B D I} (he : Live s' e) :
    Live s e := by
  rcases he with he | ⟨q, he⟩
  · rw [log_write h] at he
    exact Or.inl he
  · rw [(sessions_write h q).1] at he
    exact Or.inr ⟨q, he⟩

theorem Rows.write (hs : Rows s) (h : s.write p data stamp = some s') : Rows s' := by
  obtain ⟨hfree, hreaders, hfresh, rfl⟩ := write_eq h
  have hunwritten : ∀ q, (s.sessions q).written = none := by
    intro q
    by_contra hne
    obtain ⟨v, hv⟩ := Option.ne_none_iff_exists'.mp hne
    have hw := (hs.written q v hv).1
    rw [hfree] at hw
    cases hw
  constructor
  · intro v hv
    rcases List.mem_cons.mp hv with rfl | hv
    · exact Nat.lt_succ_self _
    · exact Nat.lt_succ_of_lt (hs.number v hv)
  · intro v hv w hw hsame
    rcases List.mem_cons.mp hv with rfl | hv <;> rcases List.mem_cons.mp hw with rfl | hw
    · rfl
    · exact absurd hsame.symm (hfresh w hw)
    · exact absurd hsame (hfresh v hv)
    · exact hs.fresh v hv w hw hsame
  · intro v hv
    exact List.mem_cons_of_mem _ (hs.stored v hv)
  · intro q v hv
    by_cases hq : q = p
    · subst hq
      simp only [Function.update_self, Option.some.injEq] at hv
      subst hv
      exact ⟨rfl, List.mem_cons_self, rfl⟩
    · simp only [Function.update_of_ne hq, hunwritten q, reduceCtorEq] at hv
  · intro q hq
    obtain rfl := Option.some.inj hq
    simp
  · exact fun _ => hreaders

theorem Sound.write (hs : Sound s) (h : s.write p data stamp = some s') : Sound s' := by
  have hwithin := fun n => Within.write (n := n) h
  have hknown := fun q n => Known.write (q := q) (n := n) h
  have hsessions := sessions_write h
  have hrows := hs.toRows.write h
  have hlive := fun e => live_write (e := e) h
  obtain ⟨-, -, -, rfl⟩ := write_eq h
  refine ⟨hrows, hs.toLogs.of_live (le_refl _) ?_ ?_ ?_, ⟨?_, ?_⟩⟩
  · exact hlive
  · exact fun e he n hn => hwithin n (hs.logged e he n hn)
  · intro q e he n hn
    rw [(hsessions q).1] at he
    exact hknown q n (hs.logging q e he n hn)
  · exact fun k mark hk => hwithin _ (hs.made k mark hk)
  · intro q k mark hk
    rw [(hsessions q).2] at hk
    exact hknown q _ (hs.making q k mark hk)

theorem Keeps.write (h : s.write p data stamp = some s') (hq : q ≠ p) : Keeps s s' q := by
  have hwithin := fun n => Within.write (n := n) h
  have hknown := fun n => Known.write (q := q) (n := n) h
  obtain ⟨-, hreaders, -, rfl⟩ := write_eq h
  constructor
  · exact Function.update_of_ne hq _ _
  · exact fun v hv => List.mem_cons_of_mem _ hv
  · exact hwithin
  · exact hknown
  · intro hr
    rw [hreaders] at hr
    cases hr

/-- What was written is in the session. -/
theorem written_write (h : s.write p data stamp = some s') :
    s'.sessions p = { s.sessions p with written := some ⟨s.versions.length, stamp, data⟩ } := by
  obtain ⟨-, -, -, rfl⟩ := write_eq h
  exact Function.update_self _ _ _

end Writing

/-! ## Ending a transaction -/

section Ending

variable {s : Database K B D I N} {p q : ℕ}

theorem sessions_release (s : Database K B D I N) (p q : ℕ) :
    (s.release p).sessions q = if q = p then Session.empty else s.sessions q :=
  Function.update_apply _ _ _ _

theorem writer_release (hq : q ≠ p) (hw : s.writer = some q) :
    (s.release p).writer = some q := by
  have hne : s.writer ≠ some p := by
    rw [hw]
    exact fun h => hq (Option.some.inj h)
  have hrelease : (s.release p).writer = if s.writer = some p then none else s.writer := rfl
  rw [hrelease, if_neg hne, hw]

theorem mem_readers_release (hq : q ≠ p) (hr : q ∈ s.readers) : q ∈ (s.release p).readers := by
  simp only [Database.release, Database.setSession, List.mem_filter, decide_eq_true_eq]
  exact ⟨hr, hq⟩

/-- Without the writes of the session, the versions and the locks hold. -/
theorem Rows.rollback (hs : Rows s) (p : ℕ) : Rows (s.rollback p) := by
  unfold Database.rollback
  refine ⟨hs.number, hs.fresh, hs.stored, ?_, ?_, ?_⟩
  · intro q v hv
    rw [sessions_release] at hv
    split_ifs at hv with hq
    · cases hv
    · obtain ⟨hw, hmem, hlast⟩ := hs.written q v hv
      exact ⟨writer_release hq hw, hmem, hlast⟩
  · intro q hq
    have hwriter : s.writer = some q ∧ q ≠ p := by
      simp only [Database.release, Database.setSession] at hq
      split_ifs at hq with hp
      refine ⟨hq, ?_⟩
      rintro rfl
      exact hp hq
    rw [sessions_release, if_neg hwriter.2]
    exact hs.held q hwriter.1
  · intro hw
    have hne : s.writer ≠ none := by
      intro hnone
      simp only [Database.release, Database.setSession, hnone] at hw
      simp at hw
    simp only [Database.release, Database.setSession, hs.alone hne, List.filter_nil]

theorem Known.rollback (hq : q ≠ p) {n : ℕ} (hn : Known s q n) : Known (s.rollback p) q n :=
  ⟨hn.1, hn.2.imp (writer_release hq) id⟩

theorem live_rollback {e : LogRow B D I} (he : Live (s.rollback p) e) : Live s e := by
  refine he.imp id fun ⟨q, hq⟩ => ⟨q, ?_⟩
  unfold Database.rollback at hq
  rw [sessions_release] at hq
  split_ifs at hq with hp
  · cases hq
  · exact hq

theorem Sound.rollback (hs : Sound s) (p : ℕ) : Sound (s.rollback p) := by
  refine ⟨hs.toRows.rollback p,
    hs.toLogs.of_live (le_refl _) (fun _ => live_rollback) hs.logged ?_, ⟨hs.made, ?_⟩⟩
  · intro q e he n hn
    unfold Database.rollback at he
    rw [sessions_release] at he
    split_ifs at he with hp
    · cases he
    · exact (hs.logging q e he n hn).rollback hp
  · intro q k mark hk
    unfold Database.rollback at hk
    rw [sessions_release] at hk
    split_ifs at hk with hp
    · cases hk
    · exact (hs.making q k mark hk).rollback hp

theorem Keeps.rollback (s : Database K B D I N) (hq : q ≠ p) : Keeps s (s.rollback p) q where
  session := by
    unfold Database.rollback
    rw [sessions_release, if_neg hq]
  versions _ h := h
  within _ h := h
  known _ h := h.rollback hq
  reader h := ⟨mem_readers_release hq h, rfl⟩

/-- What a session knows is so once it has committed. -/
theorem Known.commit (hs : Rows s) {n : ℕ} (hn : Known s p n) : Within (s.commit p) n := by
  refine ⟨hn.1, fun v hv => ?_⟩
  have hrow : (s.sessions p).written.or s.row = some v := hv
  cases hwritten : (s.sessions p).written with
  | some w =>
    rw [hwritten, Option.some_or, Option.some.injEq] at hrow
    subst hrow
    have hlast := (hs.written p w hwritten).2.2
    have hbound := hn.1
    omega
  | none =>
    rw [hwritten, Option.none_or] at hrow
    rcases hn.2 with hw | hbound
    · exact absurd hwritten (hs.held p hw)
    · exact hbound v hrow

/-- A commit leaves what the row has. -/
theorem Within.commit (hs : Rows s) (p : ℕ) {n : ℕ} (hn : Within s n) : Within (s.commit p) n :=
  hn.known.commit hs

/-- The commit of another session leaves what a session knows. -/
theorem Known.commit_of_ne (hs : Rows s) (hq : q ≠ p) {n : ℕ} (hn : Known s q n) :
    Known (s.commit p) q n := by
  rcases hn.2 with hw | hbound
  · exact ⟨hn.1, Or.inl (writer_release hq hw)⟩
  · exact (Within.commit hs p ⟨hn.1, hbound⟩).known

theorem Rows.commit (hs : Rows s) (p : ℕ) : Rows (s.commit p) := by
  have hbase := hs.rollback p
  refine ⟨hbase.number, hbase.fresh, ?_, hbase.written, hbase.held, hbase.alone⟩
  intro v hv
  have hrow : (s.sessions p).written.or s.row = some v := hv
  cases hwritten : (s.sessions p).written with
  | some w =>
    rw [hwritten, Option.some_or, Option.some.injEq] at hrow
    subst hrow
    exact (hs.written p w hwritten).2.1
  | none =>
    rw [hwritten, Option.none_or] at hrow
    exact hs.stored v hrow

/-- A commit makes no row of the log, it moves those of the session. -/
theorem live_commit {e : LogRow B D I} (he : Live (s.commit p) e) : Live s e := by
  rcases he with he | ⟨q, he⟩
  · rcases List.mem_append.mp he with he | he
    · exact Or.inl he
    · exact Or.inr ⟨p, he⟩
  · have hsession : (s.commit p).sessions q = (s.release p).sessions q := rfl
    rw [hsession, sessions_release] at he
    split_ifs at he with hq
    · cases he
    · exact Or.inr ⟨q, he⟩

theorem Sound.commit (hs : Sound s) (p : ℕ) : Sound (s.commit p) := by
  have hsession : ∀ q, (s.commit p).sessions q = if q = p then Session.empty else s.sessions q :=
    sessions_release s p
  refine ⟨hs.toRows.commit p, hs.toLogs.of_live (le_refl _) (fun e => live_commit) ?_ ?_,
    ⟨?_, ?_⟩⟩
  · intro e he n hn
    rcases List.mem_append.mp he with he | he
    · exact (hs.logged e he n hn).commit hs.toRows p
    · exact (hs.logging p e he n hn).commit hs.toRows
  · intro q e he n hn
    rw [hsession] at he
    split_ifs at he with hq
    · cases he
    · exact (hs.logging q e he n hn).commit_of_ne hs.toRows hq
  · intro k mark hk
    have hmark : ((s.sessions p).marks k).getD (s.marks k) = some mark := hk
    cases hown : (s.sessions p).marks k with
    | none =>
      rw [hown, Option.getD_none] at hmark
      exact (hs.made k mark hmark).commit hs.toRows p
    | some own =>
      rw [hown, Option.getD_some] at hmark
      subst hmark
      exact (hs.making p k mark hown).commit hs.toRows
  · intro q k mark hk
    rw [hsession] at hk
    split_ifs at hk with hq
    · cases hk
    · exact (hs.making q k mark hk).commit_of_ne hs.toRows hq

theorem Keeps.commit (hs : Sound s) (hq : q ≠ p) : Keeps s (s.commit p) q where
  session := (Keeps.rollback s hq).session
  versions _ h := h
  within _ h := h.commit hs.toRows p
  known _ h := h.commit_of_ne hs.toRows hq
  reader h := by
    refine ⟨mem_readers_release hq h, ?_⟩
    have hwritten : (s.sessions p).written = none := by
      by_contra hne
      obtain ⟨v, hv⟩ := Option.ne_none_iff_exists'.mp hne
      have hw := (hs.written p v hv).1
      rw [hs.toRows.unwritten h] at hw
      cases hw
    have hrow : (s.commit p).row = (s.sessions p).written.or s.row := rfl
    rw [hrow, hwritten, Option.none_or]

end Ending

/-! ## Deleting and sharing the row -/

section Sharing

variable {s s' : Database K B D I N} {p q : ℕ} {found : Option (Version D)}

/-- A deletion waits for every lock. -/
theorem remove_eq (h : s.remove = some s') :
    s.writer = none ∧ s.readers = [] ∧ s' = { s with row := none } := by
  unfold Database.remove at h
  split_ifs at h with hfree
  exact ⟨hfree.1, hfree.2, (Option.some.inj h).symm⟩

/-- Without a row, nothing is missing in it. -/
theorem within_remove (h : s.remove = some s') {n : ℕ} (hn : n < s.versions.length) :
    Within s' n := by
  obtain ⟨-, -, rfl⟩ := remove_eq h
  refine ⟨hn, fun v hv => ?_⟩
  cases hv

theorem Sound.remove (hs : Sound s) (h : s.remove = some s') : Sound s' := by
  have hwithin := fun n => within_remove (n := n) h
  obtain ⟨-, -, rfl⟩ := remove_eq h
  refine ⟨⟨hs.number, hs.fresh, ?_, hs.written, hs.held, hs.alone⟩,
    hs.toLogs.of_live (le_refl _) (fun _ he => he) ?_ ?_, ⟨?_, ?_⟩⟩
  · intro v hv
    cases hv
  · exact fun e he n hn => hwithin n (hs.logged e he n hn).1
  · exact fun q e he n hn => (hwithin n (hs.logging q e he n hn).1).known
  · exact fun k mark hk => hwithin _ (hs.made k mark hk).1
  · exact fun q k mark hk => (hwithin _ (hs.making q k mark hk).1).known

theorem Keeps.remove (h : s.remove = some s') (q : ℕ) : Keeps s s' q := by
  have hwithin := fun n => within_remove (n := n) h
  obtain ⟨-, hreaders, rfl⟩ := remove_eq h
  refine ⟨rfl, fun _ hv => hv, fun n hn => hwithin n hn.1, fun n hn => (hwithin n hn.1).known, ?_⟩
  intro hr
  rw [hreaders] at hr
  cases hr

/-- What a share lock finds, and what it takes. -/
theorem share_cases (h : s.share p = some (found, s')) :
    (found = none ∧ s.row = none ∧ s' = s) ∨
      ∃ v, found = some v ∧ s.row = some v ∧ s.writer = none ∧
        s' = { s with readers := p :: s.readers } := by
  unfold Database.share at h
  cases hrow : s.row with
  | none =>
    rw [hrow] at h
    obtain ⟨rfl, rfl⟩ := Prod.mk.inj (Option.some.inj h)
    exact Or.inl ⟨rfl, rfl, rfl⟩
  | some v =>
    rw [hrow] at h
    dsimp only at h
    split_ifs at h with hfree
    obtain ⟨rfl, rfl⟩ := Prod.mk.inj (Option.some.inj h)
    exact Or.inr ⟨v, rfl, rfl, hfree, rfl⟩

theorem Sound.share (hs : Sound s) (h : s.share p = some (found, s')) : Sound s' := by
  rcases share_cases h with ⟨-, -, rfl⟩ | ⟨v, -, -, hfree, rfl⟩
  · exact hs
  · refine ⟨⟨hs.number, hs.fresh, hs.stored, hs.written, hs.held, fun hw => absurd hfree hw⟩,
      hs.toLogs.of_live (le_refl _) (fun _ he => he) hs.logged hs.logging,
      ⟨hs.made, hs.making⟩⟩

theorem Keeps.share (h : s.share p = some (found, s')) (q : ℕ) : Keeps s s' q := by
  rcases share_cases h with ⟨-, -, rfl⟩ | ⟨v, -, -, hfree, rfl⟩
  · exact Keeps.refl s' q
  · exact ⟨rfl, fun _ hv => hv, fun _ hn => hn, fun _ hn => hn,
      fun hr => ⟨List.mem_cons_of_mem _ hr, rfl⟩⟩

end Sharing

/-! ## The log -/

section Appending

variable {s : Database K B D I N} {p q : ℕ} {item : I} {origin : Origin B D}

theorem sessions_append (s : Database K B D I N) (p : ℕ) (item : I) (origin : Origin B D)
    (q : ℕ) : (s.append p item origin).sessions q =
      if q = p then { s.sessions p with
        log := (s.sessions p).log ++ [⟨s.nextSeq, item, origin, s.row⟩] } else s.sessions q :=
  Function.update_apply _ _ _ _

theorem written_append (q : ℕ) :
    ((s.append p item origin).sessions q).written = (s.sessions q).written ∧
      ((s.append p item origin).sessions q).marks = (s.sessions q).marks := by
  rw [sessions_append]
  split_ifs with hq
  · subst hq
    exact ⟨rfl, rfl⟩
  · exact ⟨rfl, rfl⟩

/-- One row is new. -/
theorem live_append {e : LogRow B D I} (he : Live (s.append p item origin) e) :
    Live s e ∨ e = ⟨s.nextSeq, item, origin, s.row⟩ := by
  rcases he with he | ⟨q, he⟩
  · exact Or.inl (Or.inl he)
  · rw [sessions_append] at he
    split_ifs at he with hq
    · rcases List.mem_append.mp he with he | he
      · exact Or.inl (Or.inr ⟨p, he⟩)
      · exact Or.inr (List.mem_singleton.mp he)
    · exact Or.inl (Or.inr ⟨q, he⟩)

theorem Rows.append (hs : Rows s) : Rows (s.append p item origin) := by
  refine ⟨hs.number, hs.fresh, hs.stored, ?_, ?_, hs.alone⟩
  · intro q v hv
    rw [(written_append q).1] at hv
    exact hs.written q v hv
  · intro q hq
    rw [(written_append q).1]
    exact hs.held q hq

/-- A session inserts what its own write says, or what is built from the row
that it shares. -/
def Permitted (s : Database K B D I N) (p : ℕ) : Origin B D → Prop
  | .write n => Known s p n
  | .build _ v => p ∈ s.readers ∧ s.row = some v
  | .other => True

theorem Logs.append (hs : Sound s) (hp : Permitted s p origin) :
    Logs (s.append p item origin) := by
  constructor
  · intro e he
    rcases live_append he with he | rfl
    · exact Nat.lt_succ_of_lt (hs.seq e he)
    · exact Nat.lt_succ_self _
  · intro e he b v horigin
    rcases live_append he with he | rfl
    · exact hs.found e he b v horigin
    · dsimp only at horigin
      subst horigin
      exact hp.2
  · intro e e' he he' b v n horigin horigin' hlt
    rcases live_append he with hold | rfl <;> rcases live_append he' with hold' | rfl
    · exact hs.order e e' hold hold' b v n horigin horigin' hlt
    · exact hs.seq e hold
    · -- while the row is shared, the log has no later write
      dsimp only at horigin
      subst horigin
      obtain ⟨hreader, hrow⟩ := hp
      have hbound : n ≤ v.number := by
        rcases hold' with hold' | ⟨q, hold'⟩
        · exact (hs.logged e' hold' n horigin').2 v hrow
        · rcases (hs.logging q e' hold' n horigin').2 with hw | hbound
          · rw [hs.toRows.unwritten hreader] at hw
            cases hw
          · exact hbound v hrow
      omega
    · dsimp only at horigin horigin'
      rw [horigin] at horigin'
      cases horigin'
  · exact hs.logged
  · intro q e he n horigin
    rw [sessions_append] at he
    split_ifs at he with hq
    · subst hq
      rcases List.mem_append.mp he with he | he
      · exact hs.logging q e he n horigin
      · rw [List.mem_singleton.mp he] at horigin
        dsimp only at horigin
        subst horigin
        exact hp
    · exact hs.logging q e he n horigin

theorem Sound.append (hs : Sound s) (item : I) (hp : Permitted s p origin) :
    Sound (s.append p item origin) := by
  refine ⟨hs.toRows.append, Logs.append hs hp, ⟨hs.made, ?_⟩⟩
  intro q k mark hk
  rw [(written_append q).2] at hk
  exact hs.making q k mark hk

theorem Keeps.append (s : Database K B D I N) (item : I) (origin : Origin B D) (hq : q ≠ p) :
    Keeps s (s.append p item origin) q where
  session := by rw [sessions_append, if_neg hq]
  versions _ h := h
  within _ h := h
  known _ h := h
  reader h := ⟨h, rfl⟩

theorem sessions_restore (s : Database K B D I N) (p : ℕ) (log : List (LogRow B D I)) (q : ℕ) :
    (s.restore p log).sessions q =
      if q = p then { s.sessions p with log := log } else s.sessions q :=
  Function.update_apply _ _ _ _

theorem written_restore (log : List (LogRow B D I)) (q : ℕ) :
    ((s.restore p log).sessions q).written = (s.sessions q).written ∧
      ((s.restore p log).sessions q).marks = (s.sessions q).marks := by
  rw [sessions_restore]
  split_ifs with hq
  · subst hq
    exact ⟨rfl, rfl⟩
  · exact ⟨rfl, rfl⟩

/-- A savepoint brings back rows that the session has. -/
theorem log_restore {log : List (LogRow B D I)} (hlog : ∀ e ∈ log, e ∈ (s.sessions p).log)
    (q : ℕ) : ∀ e ∈ ((s.restore p log).sessions q).log, e ∈ (s.sessions q).log := by
  intro e he
  rw [sessions_restore] at he
  split_ifs at he with hq
  · subst hq
    exact hlog e he
  · exact he

theorem live_restore {log : List (LogRow B D I)} (hlog : ∀ e ∈ log, e ∈ (s.sessions p).log)
    {e : LogRow B D I} (he : Live (s.restore p log) e) : Live s e :=
  he.imp id fun ⟨q, hq⟩ => ⟨q, log_restore hlog q e hq⟩

theorem Sound.restore (hs : Sound s) {log : List (LogRow B D I)}
    (hlog : ∀ e ∈ log, e ∈ (s.sessions p).log) : Sound (s.restore p log) := by
  refine ⟨⟨hs.number, hs.fresh, hs.stored, ?_, ?_, hs.alone⟩,
    hs.toLogs.of_live (le_refl _) (fun _ => live_restore hlog) hs.logged ?_, ⟨hs.made, ?_⟩⟩
  · intro q v hv
    rw [(written_restore log q).1] at hv
    exact hs.written q v hv
  · intro q hq
    rw [(written_restore log q).1]
    exact hs.held q hq
  · exact fun q e he => hs.logging q e (log_restore hlog q e he)
  · intro q k mark hk
    rw [(written_restore log q).2] at hk
    exact hs.making q k mark hk

theorem Keeps.restore (s : Database K B D I N) (log : List (LogRow B D I)) (hq : q ≠ p) :
    Keeps s (s.restore p log) q where
  session := by rw [sessions_restore, if_neg hq]
  versions _ h := h
  within _ h := h
  known _ h := h
  reader h := ⟨h, rfl⟩

theorem Sound.skip (hs : Sound s) : Sound s.skip :=
  ⟨⟨hs.number, hs.fresh, hs.stored, hs.written, hs.held, hs.alone⟩,
    hs.toLogs.of_live (Nat.le_succ _) (fun _ he => he) hs.logged hs.logging,
    ⟨hs.made, hs.making⟩⟩

theorem Keeps.skip (s : Database K B D I N) (q : ℕ) : Keeps s s.skip q where
  session := rfl
  versions _ h := h
  within _ h := h
  known _ h := h
  reader h := ⟨h, rfl⟩

end Appending

/-! ## Marks -/

section Marking

variable [DecidableEq K] {s s' : Database K B D I N} {p q : ℕ} {k : K}

theorem sessions_touch (s : Database K B D I N) (p : ℕ) (k : K) (mark : Option (Mark N)) (q : ℕ) :
    (s.touch p k mark).sessions q = if q = p then { s.sessions p with
      marks := Function.update (s.sessions p).marks k (some mark) } else s.sessions q :=
  Function.update_apply _ _ _ _

theorem written_touch (mark : Option (Mark N)) (q : ℕ) :
    ((s.touch p k mark).sessions q).written = (s.sessions q).written ∧
      ((s.touch p k mark).sessions q).log = (s.sessions q).log := by
  rw [sessions_touch]
  split_ifs with hq
  · subst hq
    exact ⟨rfl, rfl⟩
  · exact ⟨rfl, rfl⟩

theorem live_touch {mark : Option (Mark N)} {e : LogRow B D I} (he : Live (s.touch p k mark) e) :
    Live s e := by
  refine he.imp id fun ⟨q, hq⟩ => ⟨q, ?_⟩
  rw [(written_touch mark q).2] at hq
  exact hq

/-- A session makes a mark for a write that it knows. -/
theorem Sound.touch (hs : Sound s) (k : K)
    {mark : Option (Mark N)} (hmark : ∀ m, mark = some m → Known s p m.maker) :
    Sound (s.touch p k mark) := by
  refine ⟨⟨hs.number, hs.fresh, hs.stored, ?_, ?_, hs.alone⟩,
    hs.toLogs.of_live (le_refl _) (fun _ => live_touch) hs.logged ?_, ⟨hs.made, ?_⟩⟩
  · intro q v hv
    rw [(written_touch mark q).1] at hv
    exact hs.written q v hv
  · intro q hq
    rw [(written_touch mark q).1]
    exact hs.held q hq
  · intro q e he
    rw [(written_touch mark q).2] at he
    exact hs.logging q e he
  · intro q k' m hm
    rw [sessions_touch] at hm
    split_ifs at hm with hq
    · subst hq
      dsimp only at hm
      by_cases hk : k' = k
      · subst hk
        rw [Function.update_self] at hm
        exact hmark m (Option.some.inj hm)
      · rw [Function.update_of_ne hk] at hm
        exact hs.making q k' m hm
    · exact hs.making q k' m hm

theorem Keeps.touch (s : Database K B D I N) (k : K) (mark : Option (Mark N)) (hq : q ≠ p) :
    Keeps s (s.touch p k mark) q where
  session := by rw [sessions_touch, if_neg hq]
  versions _ h := h
  within _ h := h
  known _ h := h
  reader h := ⟨h, rfl⟩

theorem setMark_eq {mark : Mark N} (h : s.setMark p k mark = some s') :
    (s.markers k = none ∨ s.markers k = some p) ∧ s' = s.touch p k (some mark) := by
  unfold Database.setMark at h
  split_ifs at h with hfree
  exact ⟨hfree, (Option.some.inj h).symm⟩

/-- A deletion finds the mark of the stamp, which no other session holds, or it
does nothing. -/
theorem deleteMark_cases {stamp : ℕ} {dropped : Option (Mark N)}
    (h : s.deleteMark p k stamp = some (dropped, s')) :
    (dropped = none ∧ s' = s) ∨ ∃ mark, dropped = some mark ∧ s.marks k = some mark ∧
      mark.stamp = stamp ∧ s.markers k = none ∧ s' = s.touch p k none := by
  unfold Database.deleteMark at h
  cases hmark : s.marks k with
  | none =>
    rw [hmark] at h
    obtain ⟨rfl, rfl⟩ := Prod.mk.inj (Option.some.inj h)
    exact Or.inl ⟨rfl, rfl⟩
  | some mark =>
    rw [hmark] at h
    dsimp only at h
    split_ifs at h with hstamp hfree
    · obtain ⟨rfl, rfl⟩ := Prod.mk.inj (Option.some.inj h)
      exact Or.inr ⟨mark, rfl, rfl, hstamp, hfree, rfl⟩
    · obtain ⟨rfl, rfl⟩ := Prod.mk.inj (Option.some.inj h)
      exact Or.inl ⟨rfl, rfl⟩

/-- What a statement does to a note. -/
theorem updateNote_eq {f : N → N} (h : s.updateNote k f = some s') :
    s.markers k = none ∧ s' = { s with
      marks := Function.update s.marks k
        ((s.marks k).map fun mark => { mark with note := f mark.note }) } := by
  unfold Database.updateNote at h
  split_ifs at h with hfree
  exact ⟨hfree, (Option.some.inj h).symm⟩

theorem Sound.updateNote {f : N → N} (hs : Sound s) (h : s.updateNote k f = some s') :
    Sound s' := by
  obtain ⟨-, rfl⟩ := updateNote_eq h
  refine ⟨⟨hs.number, hs.fresh, hs.stored, hs.written, hs.held, hs.alone⟩,
    hs.toLogs.of_live (le_refl _) (fun _ he => he) hs.logged hs.logging,
    ⟨?_, hs.making⟩⟩
  intro k' mark hmark
  have hbound : Within s mark.maker := by
    by_cases hk : k' = k
    · subst hk
      dsimp only at hmark
      rw [Function.update_self, Option.map_eq_some_iff] at hmark
      obtain ⟨old, hold, rfl⟩ := hmark
      exact hs.made k' old hold
    · dsimp only at hmark
      rw [Function.update_of_ne hk] at hmark
      exact hs.made k' mark hmark
  exact hbound

theorem Keeps.updateNote {f : N → N} (h : s.updateNote k f = some s') (q : ℕ) :
    Keeps s s' q := by
  obtain ⟨-, rfl⟩ := updateNote_eq h
  exact ⟨rfl, fun _ hv => hv, fun _ hn => hn, fun _ hn => hn, fun hr => ⟨hr, rfl⟩⟩

end Marking

end FactoryServer.FencedLogs
