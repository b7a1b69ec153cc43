import FactoryServer.FencedLogs
import FactoryServer.ProjectionOutbox

/-!
# What the fence of the projection outbox promises

A span that a producer inserts is built from the row that is committed when it is
inserted, and every delta of a later save comes after it. A request that `complete`
deletes has its span in the queue, unless the fence found no tournament.
-/

namespace FactoryServer.FencedSpans

open GuardedRuns RowSessions FencedLogs ProjectionOutbox

variable {D I : Type}

/-- The deltas are what a producer builds from a record. -/
def Builds (x : Builders D I) (producer : Producer) (version : Version D) (deltas : List I) :
    Prop :=
  ∃ source id, x.build producer source id version.data = some deltas

/-- A row of the queue that a producer has built is in what it builds. -/
def Genuine (x : Builders D I) (e : QueueRow D I) : Prop :=
  ∀ producer version, e.origin = .build producer version →
    ∃ deltas, Builds x producer version deltas ∧ e.item ∈ deltas

/-- The queue has the whole span that a producer builds from a version, in one piece. -/
def HasSpan (x : Builders D I) (queue : List (QueueRow D I)) (producer : Producer)
    (version : Version D) : Prop :=
  ∃ span deltas, span <:+: queue ∧ Builds x producer version deltas ∧
    span.map LogRow.item = deltas ∧ ∀ e ∈ span, e.origin = .build producer version

/-- A deleted request has been served: the queue has a span that its producer built
from the row at or after the save that made it. -/
def Served (x : Builders D I) (queue : List (QueueRow D I)) (d : Deletion D) : Prop :=
  ∃ version : Version D, d.request.maker ≤ version.number ∧ HasSpan x queue (.drain d.table) version

/-- What the fence promises, with what is to hold of a deleted request. -/
structure Fenced (x : Builders D I) (s : State D I) (Deleted : Deletion D → Prop) : Prop where
  /-- A span is built from the row that is current when it is inserted. -/
  current : ∀ e ∈ s.db.log, ∀ producer version, e.origin = .build producer version →
    e.found = some version ∧ ∃ deltas, Builds x producer version deltas ∧ e.item ∈ deltas
  /-- Every delta of a later save has a larger `seq`. -/
  ordered : ∀ e ∈ s.db.log, ∀ e' ∈ s.db.log, ∀ producer version n,
    e.origin = .build producer version → e'.origin = .write n → version.number < n →
      e.seq < e'.seq
  /-- No request is deleted unserved. -/
  served : ∀ d ∈ s.deletions, Served x s.db.log d ∨ Deleted d

/-! ## What a call does to the database -/

/-- What the statements of one session do. -/
structure Advances (x : Builders D I) (db db' : Tables D I) (p : ℕ) : Prop where
  /-- The invariant of the statements. -/
  sound : Sound db'
  /-- What the other sessions rely on. -/
  keeps : ∀ q, q ≠ p → Keeps db db' q
  /-- Every delta of a producer is one that it builds. -/
  genuine : (∀ e, Live db e → Genuine x e) → ∀ e, Live db' e → Genuine x e
  /-- The queue grows. -/
  grows : db.log <+: db'.log

section Statements

variable {x : Builders D I} {db db' db'' : Tables D I} {p : ℕ}

theorem Advances.refl (h : Sound db) : Advances x db db p :=
  ⟨h, fun q _ => Keeps.refl db q, fun hg => hg, List.prefix_rfl⟩

theorem Advances.trans (h : Advances x db db' p) (h' : Advances x db' db'' p) :
    Advances x db db'' p :=
  ⟨h'.sound, fun q hq => (h.keeps q hq).trans (h'.keeps q hq), fun hg => h'.genuine (h.genuine hg),
    h.grows.trans h'.grows⟩

theorem advances_commit (h : Sound db) (p : ℕ) : Advances x db (db.commit p) p :=
  ⟨h.commit p, fun _ hq => Keeps.commit h hq, fun hg e he => hg e (live_commit he),
    List.prefix_append _ _⟩

theorem advances_rollback (h : Sound db) (p : ℕ) : Advances x db (db.rollback p) p :=
  ⟨h.rollback p, fun _ hq => Keeps.rollback db hq, fun hg e he => hg e (live_rollback he),
    List.prefix_rfl⟩

theorem advances_write (h : Sound db) {record : D} {now : ℕ}
    (hw : db.write p record now = some db') : Advances x db db' p :=
  ⟨h.write hw, fun _ hq => Keeps.write hw hq, fun hg e he => hg e (live_write hw he),
    (log_write hw) ▸ List.prefix_rfl⟩

theorem advances_remove (h : Sound db) (hr : db.remove = some db') : Advances x db db' p := by
  refine ⟨h.remove hr, fun q _ => Keeps.remove hr q, ?_, ?_⟩ <;>
    obtain ⟨-, -, rfl⟩ := remove_eq hr
  · exact fun hg => hg
  · exact List.prefix_rfl

theorem advances_share (h : Sound db) {found : Option (Version D)}
    (hs : db.share p = some (found, db')) : Advances x db db' p := by
  refine ⟨h.share hs, fun q _ => Keeps.share hs q, ?_, ?_⟩ <;>
    rcases share_cases hs with ⟨-, -, rfl⟩ | ⟨v, -, -, -, rfl⟩
  · exact fun hg => hg
  · exact fun hg => hg
  · exact List.prefix_rfl
  · exact List.prefix_rfl

theorem advances_append (h : Sound db) {item : I} {origin : Origin Producer D}
    (hp : Permitted db p origin) (hg : ∀ producer version, origin = .build producer version →
      ∃ deltas, Builds x producer version deltas ∧ item ∈ deltas) :
    Advances x db (db.append p item origin) p := by
  refine ⟨h.append item hp, fun q hq => Keeps.append db item origin hq, ?_, List.prefix_rfl⟩
  intro hgenuine e he
  rcases live_append he with he | rfl
  · exact hgenuine e he
  · exact hg

theorem advances_restore (h : Sound db) {log : List (QueueRow D I)}
    (hlog : ∀ e ∈ log, e ∈ (db.sessions p).log) : Advances x db (db.restore p log) p :=
  ⟨h.restore hlog, fun _ hq => Keeps.restore db log hq, fun hg e he => hg e (live_restore hlog he),
    List.prefix_rfl⟩

theorem advances_setMark (h : Sound db) {table : RequestTable} {request : Request}
    (hk : Known db p request.maker) (hm : db.setMark p table request = some db') :
    Advances x db db' p := by
  obtain ⟨-, rfl⟩ := setMark_eq hm
  refine ⟨h.touch table ?_, fun q hq => Keeps.touch db table _ hq,
    fun hg e he => hg e (live_touch he), List.prefix_rfl⟩
  intro m hm
  obtain rfl := Option.some.inj hm
  exact hk

theorem advances_deleteMark (h : Sound db) {table : RequestTable} {stamp : ℕ}
    {dropped : Option Request} (hd : db.deleteMark p table stamp = some (dropped, db')) :
    Advances x db db' p := by
  rcases deleteMark_cases hd with ⟨-, rfl⟩ | ⟨request, -, -, -, -, rfl⟩
  · exact Advances.refl h
  · refine ⟨h.touch table ?_, fun q hq => Keeps.touch db table _ hq,
      fun hg e he => hg e (live_touch he), List.prefix_rfl⟩
    intro m hm
    cases hm

theorem advances_updateNote (h : Sound db) {table : RequestTable}
    {f : RequestNote → RequestNote} (hu : db.updateNote table f = some db') :
    Advances x db db' p := by
  refine ⟨h.updateNote hu, fun q _ => Keeps.updateNote hu q, ?_, ?_⟩ <;>
    obtain ⟨-, rfl⟩ := updateNote_eq hu
  · exact fun hg => hg
  · exact List.prefix_rfl

end Statements

/-! ## Where a call stands -/

/-- What the rows of a session say, and what is still to come, is a span. -/
def Spans (x : Builders D I) (db : Tables D I) (p : ℕ) (producer : Producer)
    (version : Version D) (todo : List I) : Prop :=
  p ∈ db.readers ∧ db.row = some version ∧
    Builds x producer version ((db.sessions p).log.map LogRow.item ++ todo) ∧
      ∀ e ∈ (db.sessions p).log, e.origin = .build producer version

/-- The write of a save is there, or it is the session's own. -/
def Saves (db : Tables D I) (p : ℕ) (durable : Bool) (version : Version D) : Prop :=
  if durable = true then Known db p version.number else Within db version.number

/-- The invariant of a call. -/
def Holds (x : Builders D I) (db : Tables D I) (p : ℕ) : Stage D I → Prop
  | .ready | .saving _ _ _ | .removing | .removed | .reading _ | .failing _ =>
    db.sessions p = Session.empty
  | .saved durable version _ => Saves db p durable version
  | .enqueuing durable version savepoint _ _ =>
    Saves db p durable version ∧ ∀ e ∈ savepoint, e ∈ (db.sessions p).log
  | .building _ version => db.sessions p = Session.empty ∧ version ∈ db.versions
  | .fencing job source deltas => db.sessions p = Session.empty ∧
    ∀ version, source = some version →
      version ∈ db.versions ∧ Builds x job.producer version deltas
  | .inserting job version todo => Spans x db p job.producer version todo
  | .dropping table _ fence | .closing table fence _ =>
    ∀ version, fence = some version → Spans x db p (.drain table) version []

/-- The invariant of the system. -/
structure Inv (x : Builders D I) (s : State D I) : Prop where
  /-- The database. -/
  sound : Sound s.db
  /-- The calls. -/
  calls : ∀ p, Holds x s.db p (s.stages p)
  /-- What the producers have built. -/
  genuine : ∀ e, Live s.db e → Genuine x e
  /-- The requests that were deleted. -/
  served : ∀ d ∈ s.deletions, Served x s.db.log d ∨ d.fence = none

section Calls

variable {x : Builders D I} {s : State D I} {db db' : Tables D I} {p : ℕ} {durable : Bool}
  {version : Version D}

/-- The statements of other calls leave a call its invariant. -/
theorem Holds.keeps (h : Keeps db db' p) {stage : Stage D I} (hs : Holds x db p stage) :
    Holds x db' p stage := by
  have hsaves : ∀ durable version, Saves db p durable version → Saves db' p durable version := by
    intro durable version hsave
    unfold Saves at hsave ⊢
    split_ifs at hsave ⊢
    · exact h.known _ hsave
    · exact h.within _ hsave
  have hspans : ∀ producer version todo, Spans x db p producer version todo →
      Spans x db' p producer version todo := by
    intro producer version todo hspan
    obtain ⟨hreader, hrow, hbuilds, horigin⟩ := hspan
    obtain ⟨hreader', hsame⟩ := h.reader hreader
    refine ⟨hreader', hsame.trans hrow, ?_, ?_⟩ <;> rw [h.session]
    · exact hbuilds
    · exact horigin
  cases stage with
  | ready | saving | removing | removed | reading | failing => exact h.session.trans hs
  | saved durable version tasks => exact hsaves durable version hs
  | enqueuing durable version savepoint todo tasks =>
    refine ⟨hsaves durable version hs.1, ?_⟩
    rw [h.session]
    exact hs.2
  | building job version => exact ⟨h.session.trans hs.1, h.versions version hs.2⟩
  | fencing job source deltas =>
    refine ⟨h.session.trans hs.1, fun version hv => ?_⟩
    exact ⟨h.versions version (hs.2 version hv).1, (hs.2 version hv).2⟩
  | inserting job version todo => exact hspans _ _ _ hs
  | dropping table request fence => exact fun version hv => hspans _ _ _ (hs version hv)
  | closing table fence dropped => exact fun version hv => hspans _ _ _ (hs version hv)

/-- A larger queue has the spans that it had. -/
theorem HasSpan.grows {queue queue' : List (QueueRow D I)} (h : queue <+: queue')
    {producer : Producer} (hs : HasSpan x queue producer version) :
    HasSpan x queue' producer version := by
  obtain ⟨span, deltas, hspan, hrest⟩ := hs
  exact ⟨span, deltas, hspan.trans h.isInfix, hrest⟩

theorem Served.grows {queue queue' : List (QueueRow D I)} (h : queue <+: queue')
    {d : Deletion D} (hs : Served x queue d) : Served x queue' d := by
  obtain ⟨version, hmaker, hspan⟩ := hs
  exact ⟨version, hmaker, hspan.grows h⟩

/-- One call does its statements: the others keep their invariants. -/
theorem Inv.goto (h : Inv x s) (ha : Advances x s.db db' p) {stage : Stage D I}
    (hstage : Holds x db' p stage) : Inv x (s.goto p db' stage) := by
  refine ⟨ha.sound, ?_, ha.genuine h.genuine, ?_⟩
  · intro q
    by_cases hq : q = p
    · subst hq
      have hself : (s.goto q db' stage).stages q = stage := Function.update_self _ _ _
      rw [hself]
      exact hstage
    · have hother : (s.goto p db' stage).stages q = s.stages q := Function.update_of_ne hq _ _
      rw [hother]
      exact (h.calls q).keeps (ha.keeps q hq)
  · exact fun d hd => (h.served d hd).imp (Served.grows ha.grows) id

theorem empty_release (db : Tables D I) (p : ℕ) : (db.release p).sessions p = Session.empty := by
  rw [sessions_release, if_pos rfl]

theorem empty_commit (db : Tables D I) (p : ℕ) : (db.commit p).sessions p = Session.empty :=
  empty_release db p

/-- A call is over, or back at a stage without a transaction. -/
theorem Inv.committed (h : Inv x s) (ha : Advances x s.db db' p) {stage : Stage D I}
    (hstage : ∀ db : Tables D I, db.sessions p = Session.empty → Holds x db p stage) :
    Inv x (s.goto p (db'.commit p) stage) :=
  h.goto (ha.trans (advances_commit ha.sound p)) (hstage _ (empty_commit db' p))

theorem Inv.rolledBack (h : Inv x s) {stage : Stage D I}
    (hstage : ∀ db : Tables D I, db.sessions p = Session.empty → Holds x db p stage) :
    Inv x (s.goto p (s.db.rollback p) stage) :=
  h.goto (advances_rollback h.sound p) (hstage _ (empty_release s.db p))

theorem holds_failed (job : Job) (hdb : db.sessions p = Session.empty) :
    Holds x db p (job.failed : Stage D I) := by
  cases job <;> exact hdb

theorem holds_changed (job : Job) (hdb : db.sessions p = Session.empty) :
    Holds x db p (job.changed : Stage D I) := by
  cases job with
  | drain table request => exact hdb
  | rebuild attempt =>
    unfold Job.changed
    dsimp only
    split_ifs <;> exact hdb

theorem holds_missing (job : Job) (hdb : db.sessions p = Session.empty) :
    Holds x db p (job.missing : Stage D I) := by
  cases job with
  | drain table request =>
    intro version hv
    cases hv
  | rebuild attempt => exact hdb

/-- A save knows its own write: now, and once its transaction has committed. -/
theorem Saves.known (h : Saves db p durable version) : Known db p version.number := by
  unfold Saves at h
  split_ifs at h
  · exact h
  · exact h.known

/-- A statement of a save that is not durable commits at once. -/
theorem saves_statement (hdb : Rows db') (hk : Known db' p version.number) :
    Saves (if durable then db' else db'.commit p) p durable version := by
  unfold Saves
  cases durable with
  | true => exact hk
  | false => exact hk.commit hdb

theorem advances_statement (durable : Bool) (ha : Advances x db db' p) :
    Advances x db (if durable then db' else db'.commit p) p := by
  cases durable with
  | true => exact ha
  | false => exact ha.trans (advances_commit ha.sound p)

end Calls

/-! ## One step -/

section Steps

variable {x : Builders D I} {s : State D I} {p now : ℕ} {id : String}

/-- A request is made for the write that the save knows. -/
theorem inv_request (h : Inv x s) {durable : Bool} {version : Version D} {table : RequestTable}
    {source : String} {tasks : List (OutboxTask I)} (hsave : Saves s.db p durable version)
    {db : Tables D I} (hm : s.db.setMark p table ⟨if durable then version.stamp else now,
      ⟨source, 0⟩, version.number⟩ = some db) :
    Inv x (s.goto p (if durable then db else db.commit p) (.saved durable version tasks)) := by
  have ha : Advances x s.db db p := advances_setMark h.sound hsave.known hm
  have hk : Known db p version.number := by
    obtain ⟨-, rfl⟩ := setMark_eq hm
    exact hsave.known
  exact h.goto (advances_statement durable ha) (saves_statement ha.sound.toRows hk)

/-- A delta of a save is inserted. -/
theorem inv_enqueue (h : Inv x s) {durable : Bool} {version : Version D}
    {savepoint : List (QueueRow D I)} {delta : I} {todo : List I} {tasks : List (OutboxTask I)}
    (hsave : Saves s.db p durable version) (hpoint : ∀ e ∈ savepoint, e ∈ (s.db.sessions p).log) :
    Inv x (s.goto p (s.db.append p delta (.write version.number))
      (.enqueuing durable version savepoint todo tasks)) := by
  have ha : Advances x s.db (s.db.append p delta (.write version.number)) p := by
    refine advances_append h.sound hsave.known ?_
    intro producer v horigin
    cases horigin
  refine h.goto ha ⟨hsave, fun e he => ?_⟩
  rw [sessions_append, if_pos rfl]
  exact List.mem_append_left _ (hpoint e he)

/-- A delta of a span is inserted. -/
theorem inv_insert (h : Inv x s) {job : Job} {version : Version D} {delta : I} {todo : List I}
    (hspan : Spans x s.db p job.producer version (delta :: todo)) :
    Inv x (s.goto p (s.db.append p delta (.build job.producer version))
      (.inserting job version todo)) := by
  obtain ⟨hreader, hrow, hbuilds, horigin⟩ := hspan
  have ha : Advances x s.db (s.db.append p delta (.build job.producer version)) p := by
    refine advances_append h.sound ⟨hreader, hrow⟩ ?_
    intro producer v hsame
    cases hsame
    exact ⟨_, hbuilds, by simp⟩
  refine h.goto ha ⟨hreader, hrow, ?_, ?_⟩ <;> rw [sessions_append, if_pos rfl]
  · simpa using hbuilds
  · intro e he
    rcases List.mem_append.mp he with he | he
    · exact horigin e he
    · rw [List.mem_singleton.mp he]

/-- The fence passes on the version that was read, or on no row. -/
theorem inv_fence (h : Inv x s) {job : Job} {source : Option (Version D)} {deltas : List I}
    (hstage : Holds x s.db p (.fencing job source deltas)) {found : Option (Version D)}
    {db : Tables D I} (hshare : s.db.share p = some (found, db)) :
    Inv x (match found with
      | none => s.goto p db job.missing
      | some version =>
        if source.map Version.stamp = some version.stamp then
          s.goto p db (.inserting job version deltas)
        else s.goto p (db.commit p) job.changed) := by
  obtain ⟨hempty, hsource⟩ := hstage
  have ha : Advances x s.db db p := advances_share h.sound hshare
  rcases share_cases hshare with ⟨rfl, -, rfl⟩ | ⟨version, rfl, hrow, -, rfl⟩
  · exact h.goto ha (holds_missing job hempty)
  · dsimp only
    split_ifs with hstamp
    · obtain ⟨read, hread, hsame⟩ := Option.map_eq_some_iff.mp hstamp
      obtain ⟨hmem, hbuilds⟩ := hsource read hread
      obtain rfl := h.sound.fresh read hmem version (h.sound.stored version hrow) hsame
      refine h.goto ha ⟨List.mem_cons_self, hrow, ?_, ?_⟩ <;> dsimp only <;> rw [hempty]
      · exact hbuilds
      · intro e he
        cases he
    · exact h.committed ha fun db hdb => holds_changed job hdb

/-- The commit of `complete` puts the span into the queue, and deletes a request
that was made for the row of the span or an earlier one. -/
theorem inv_close (h : Inv x s) {table : RequestTable} {fence : Option (Version D)}
    (hspan : ∀ version, fence = some version → Spans x s.db p (.drain table) version [])
    (deleted : List Request) (hdeleted : ∀ request ∈ deleted, s.db.marks table = some request) :
    Inv x { s.goto p (s.db.commit p) .ready with
      deletions := s.deletions ++
        deleted.map fun request => ⟨table, request, fence, s.db.row⟩ } := by
  have hbase : Inv x (s.goto p (s.db.commit p) .ready) :=
    h.committed (Advances.refl h.sound) fun db hdb => hdb
  refine ⟨hbase.sound, hbase.calls, hbase.genuine, fun d hd => ?_⟩
  rcases List.mem_append.mp hd with hd | hd
  · exact hbase.served d hd
  · obtain ⟨request, hrequest, rfl⟩ := List.mem_map.mp hd
    cases fence with
    | none => exact Or.inr rfl
    | some version =>
      obtain ⟨hreader, hrow, hbuilds, horigin⟩ := hspan version rfl
      have hmaker := (h.sound.made table request (hdeleted request hrequest)).2 version hrow
      rw [List.append_nil] at hbuilds
      exact Or.inl ⟨version, hmaker, _, _, List.suffix_append _ _ |>.isInfix, hbuilds, rfl, horigin⟩

/-- The next statement of a call keeps the invariant. -/
theorem inv_next (h : Inv x s) {s' : State D I} (hs : s.next x p now id = some s') :
    Inv x s' := by
  have hstage := h.calls p
  unfold State.next at hs
  cases hat : s.stages p with
  | ready =>
    rw [hat] at hs
    cases hs
  | saving durable record tasks =>
    rw [hat] at hs
    obtain ⟨db, hw, rfl⟩ := Option.map_eq_some_iff.mp hs
    have ha : Advances x s.db db p := advances_write h.sound hw
    have hk : Known db p s.db.versions.length := by
      have hwritten : (db.sessions p).written = some ⟨s.db.versions.length, now, record⟩ := by
        rw [written_write hw]
      exact ha.sound.toRows.known_written hwritten
    exact h.goto (advances_statement durable ha) (saves_statement ha.sound.toRows hk)
  | saved durable version tasks =>
    rw [hat] at hs hstage
    cases tasks with
    | nil =>
      obtain rfl := Option.some.inj hs
      exact h.committed (Advances.refl h.sound) fun db hdb => hdb
    | cons task tasks =>
      cases task with
      | enqueue deltas =>
        obtain rfl := Option.some.inj hs
        exact h.goto (Advances.refl h.sound) ⟨hstage, fun e he => he⟩
      | request table source =>
        obtain ⟨db, hm, rfl⟩ := Option.map_eq_some_iff.mp hs
        exact inv_request h hstage hm
  | enqueuing durable version savepoint todo tasks =>
    rw [hat] at hs hstage
    cases todo with
    | nil =>
      obtain rfl := Option.some.inj hs
      exact h.goto (advances_statement durable (Advances.refl h.sound))
        (saves_statement h.sound.toRows hstage.1.known)
    | cons delta todo =>
      obtain rfl := Option.some.inj hs
      exact inv_enqueue h hstage.1 hstage.2
  | removing =>
    rw [hat] at hs hstage
    obtain ⟨db, hr, rfl⟩ := Option.map_eq_some_iff.mp hs
    exact h.goto (advances_remove h.sound hr) ((Keeps.remove hr p).session.trans hstage)
  | removed =>
    rw [hat] at hs
    obtain rfl := Option.some.inj hs
    have ha : Advances x s.db (s.db.append p x.removal .other) p := by
      refine advances_append h.sound trivial ?_
      intro producer version horigin
      cases horigin
    exact h.committed ha fun db hdb => hdb
  | reading job =>
    rw [hat] at hs hstage
    dsimp only at hs
    cases hrow : s.db.row with
    | some version =>
      rw [hrow] at hs
      obtain rfl := Option.some.inj hs
      exact h.goto (Advances.refl h.sound) ⟨hstage, h.sound.stored version hrow⟩
    | none =>
      rw [hrow] at hs
      cases job with
      | drain table request =>
        obtain rfl := Option.some.inj hs
        refine h.goto (Advances.refl h.sound) ⟨hstage, fun version hv => ?_⟩
        cases hv
      | rebuild attempt =>
        obtain rfl := Option.some.inj hs
        exact h.goto (Advances.refl h.sound) hstage
  | building job version =>
    rw [hat] at hs hstage
    dsimp only at hs
    cases hbuild : x.build job.producer job.source id version.data with
    | some deltas =>
      rw [hbuild] at hs
      obtain rfl := Option.some.inj hs
      refine h.goto (Advances.refl h.sound) ⟨hstage.1, fun v hv => ?_⟩
      obtain rfl := Option.some.inj hv
      exact ⟨hstage.2, _, _, hbuild⟩
    | none =>
      rw [hbuild] at hs
      obtain rfl := Option.some.inj hs
      exact h.goto (Advances.refl h.sound) (holds_failed job hstage.1)
  | fencing job source deltas =>
    rw [hat] at hs hstage
    dsimp only at hs
    cases hshare : s.db.share p with
    | none =>
      rw [hshare] at hs
      cases hs
    | some answer =>
      obtain ⟨found, db⟩ := answer
      have hfence := inv_fence h hstage hshare
      rw [hshare] at hs
      cases found with
      | none =>
        obtain rfl := Option.some.inj hs
        exact hfence
      | some version =>
        dsimp only at hs hfence
        split_ifs at hs hfence <;>
          obtain rfl := Option.some.inj hs
        · exact hfence
        · exact hfence
  | inserting job version todo =>
    rw [hat] at hs hstage
    cases todo with
    | cons delta todo =>
      cases job <;>
        obtain rfl := Option.some.inj hs
      · exact inv_insert h hstage
      · exact inv_insert h hstage
    | nil =>
      cases job with
      | drain table request =>
        obtain rfl := Option.some.inj hs
        refine h.goto (Advances.refl h.sound) fun v hv => ?_
        obtain rfl := Option.some.inj hv
        exact hstage
      | rebuild attempt =>
        obtain rfl := Option.some.inj hs
        exact h.committed (Advances.refl h.sound) fun db hdb => hdb
  | dropping table request fence =>
    rw [hat] at hs hstage
    dsimp only at hs
    cases hdelete : s.db.deleteMark p table request.stamp with
    | none =>
      rw [hdelete] at hs
      cases hs
    | some answer =>
      obtain ⟨dropped, db⟩ := answer
      rw [hdelete] at hs
      obtain rfl := Option.some.inj hs
      refine h.goto (advances_deleteMark h.sound hdelete) fun version hv => ?_
      have hspan := hstage version hv
      rcases deleteMark_cases hdelete with ⟨-, rfl⟩ | ⟨request, -, -, -, -, rfl⟩
      · exact hspan
      · obtain ⟨hreader, hrow, hbuilds, horigin⟩ := hspan
        refine ⟨hreader, hrow, ?_, ?_⟩ <;> rw [(written_touch none p).2]
        · exact hbuilds
        · exact horigin
  | closing table fence dropped =>
    rw [hat] at hs hstage
    obtain rfl := Option.some.inj hs
    refine inv_close h hstage _ fun request hrequest => ?_
    split_ifs at hrequest
    · exact Option.mem_toList.mp hrequest
    · cases hrequest
  | failing table =>
    rw [hat] at hs hstage
    obtain ⟨db, hu, rfl⟩ := Option.map_eq_some_iff.mp hs
    exact h.goto (advances_updateNote h.sound hu) ((Keeps.updateNote hu p).session.trans hstage)

/-- A statement that throws keeps the invariant. -/
theorem inv_throws (h : Inv x s) (p : ℕ) : Inv x (s.throws p) := by
  have hstage := h.calls p
  unfold State.throws
  cases hat : s.stages p with
  | saved durable version tasks =>
    rw [hat] at hstage
    cases tasks with
    | nil => exact h.rolledBack fun db hdb => hdb
    | cons task tasks => exact h.goto (Advances.refl h.sound) hstage
  | enqueuing durable version savepoint todo tasks =>
    rw [hat] at hstage
    obtain ⟨hsave, hpoint⟩ := hstage
    cases durable with
    | true => exact h.goto (advances_restore h.sound hpoint) hsave
    | false => exact h.goto (advances_rollback h.sound p) hsave
  | reading job => exact h.rolledBack fun db hdb => holds_failed job hdb
  | building job version => exact h.rolledBack fun db hdb => holds_failed job hdb
  | fencing job source deltas => exact h.rolledBack fun db hdb => holds_failed job hdb
  | inserting job version todo => exact h.rolledBack fun db hdb => holds_failed job hdb
  | ready | saving | removing | removed | dropping | closing | failing =>
    exact h.rolledBack fun db hdb => hdb

theorem holds_begins (call : Call D I) {db : Tables D I} (hdb : db.sessions p = Session.empty) :
    Holds x db p (call.begins db) := by
  cases call with
  | mutate | replace | remove | rebuild => exact hdb
  | drain table maxAttempts =>
    unfold Call.begins
    dsimp only
    cases db.marks table with
    | none => exact hdb
    | some request =>
      dsimp only
      split_ifs <;> exact hdb

/-- Every step keeps the invariant. -/
theorem inv_step (h : Inv x s) (action : OutboxAction D I) : Inv x (step x s action) := by
  cases action with
  | begin p call =>
    unfold step
    dsimp only
    cases hat : s.stages p
    case ready =>
      have hstage := h.calls p
      rw [hat] at hstage
      exact h.goto (Advances.refl h.sound) (holds_begins call hstage)
    all_goals exact h
  | next p now id =>
    unfold step
    dsimp only
    cases hs : s.next x p now id with
    | none => exact h
    | some s' => exact inv_next h hs
  | throws p => exact inv_throws h p
  | crash p => exact h.rolledBack fun db hdb => hdb
  | other =>
    exact ⟨h.sound.skip, fun p => (h.calls p).keeps (Keeps.skip s.db p), h.genuine, h.served⟩

theorem inv_start (x : Builders D I) : Inv x State.start where
  sound := sound_initial
  calls _ := rfl
  genuine e he := by rcases he with he | ⟨p, he⟩ <;> cases he
  served d hd := by cases hd

end Steps

/-- In every run of saves, removals, drains and rebuilds, a span that a producer
inserts is built from the row that is current then, every delta of a later save has
a larger `seq`, and a request that `complete` deletes has been served, unless its
fence found no tournament. -/
theorem fence_orders_spans (x : Builders D I) (actions : List (OutboxAction D I)) :
    Fenced x (run (step x) State.start actions) fun d => d.fence = none := by
  have hstep : ∀ (s : State D I) (action : OutboxAction D I), Inv x s → Inv x (step x s action) :=
    fun _ action hinv => inv_step hinv action
  have h : Inv x (run (step x) State.start actions) := run_always hstep actions (inv_start x)
  refine ⟨?_, ?_, h.served⟩
  · intro e he producer version horigin
    exact ⟨h.sound.found e (Or.inl he) producer version horigin,
      h.genuine e (Or.inl he) producer version horigin⟩
  · intro e he e' he'
    exact h.sound.order e e' (Or.inl he) (Or.inl he')

/-- Records are numbers, and a span names its record. -/
def plainBuilders : Builders ℕ ℕ := ⟨fun _ _ _ record => some [record], 0⟩

/-- A wholesale save requests a snapshot and the tournament is removed. While the
drain of the request holds no lock, a mutation that had fetched the record saves it. -/
def savedAgain : List (OutboxAction ℕ ℕ) :=
  [.begin 0 (.replace false 7 true [] "factory-save"), .next 0 1 "", .next 0 2 "", .next 0 3 "",
    .next 0 4 "", .begin 1 .remove, .begin 2 (.drain .snapshot 5), .next 1 5 "", .next 2 6 "",
    .next 2 7 "", .begin 3 (.mutate false 8 [] false), .next 3 8 "", .next 2 9 "", .next 2 10 ""]

/-- The request of an existing tournament is deleted, and the queue has no span. -/
theorem request_of_saved_again :
    ¬ ∀ (D I : Type) (x : Builders D I) (actions : List (OutboxAction D I)),
      Fenced x (run (step x) State.start actions) fun d => d.row = none := by
  intro h
  have hserved := (h ℕ ℕ plainBuilders savedAgain).served
    ⟨.snapshot, ⟨3, ⟨"factory-save", 0⟩, 0⟩, none, some ⟨1, 8, 8⟩⟩ List.mem_cons_self
  have hqueue : (run (step plainBuilders) State.start savedAgain).db.log = [] := rfl
  rw [hqueue] at hserved
  rcases hserved with ⟨version, -, span, deltas, hspan, ⟨source, id, hbuild⟩, hitems, -⟩ | hrow
  · obtain rfl := List.eq_nil_of_infix_nil hspan
    obtain rfl := Option.some.inj hbuild
    cases hitems
  · cases hrow

end FactoryServer.FencedSpans
