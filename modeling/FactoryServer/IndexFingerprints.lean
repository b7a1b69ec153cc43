import FactoryServer.ParticipationIndex

/-!
# Rows and fingerprints move together

In every run of replacements and deletions the fingerprint that is stored is that of
the rows, a replacement leaves the given rows, one for each primary key, and a
replacement that throws leaves what was there. For that the joined keys must tell the
rows of a call apart as the primary key does.
-/

namespace FactoryServer.IndexFingerprints

open InsertionMaps TextCodes GuardedRuns ParticipationIndex

/-! ## What is to be shown -/

/-- What a call of `replaceTournamentRows` promises: on success the given rows are in the table, one
for each primary key; where it throws the rows are as before. -/
def Exact (report : Report) : Prop :=
  match report.unchanged with
  | some _ => report.after.Perm (lastByPrimaryKey report.rows)
  | none => report.after = report.before

/-- The stored fingerprint is that of the rows. -/
def Matches (sha256 : String → String) (entry : IndexEntry) : Prop :=
  ∀ fingerprint, entry.fingerprint = some fingerprint →
    fingerprint = fingerprintRows sha256 entry.rows

/-- Every call has kept its promise, and every stored fingerprint is that of the rows. -/
def Faithful {ι : Type} (sha256 : String → String) (s : IndexState ι) : Prop :=
  (∀ report ∈ s.reports, Exact report) ∧ ∀ tournamentId, Matches sha256 (s.committed tournamentId)

/-- The rows of a call have no two primary keys with one joined key, and a date that can be read is
the text of a day. -/
def Legible {ι : Type} (storeDay : String → Option String) (_ : IndexState ι) :
    IndexAction ι → Prop
  | .replace _ _ rows => Unambiguous rows ∧
      ∀ row ∈ rows, ∀ stored, storeRow storeDay row = some stored → stored = row
  | _ => True

/-! ## Unique rows -/

/-- Where the joined key tells the rows apart, the last row of every primary key is kept. -/
theorem uniqueByKey_eq {rows : List ParticipationRow} (h : Unambiguous rows) :
    uniqueByKey rows = lastByPrimaryKey rows := by
  refine mapOf_rekey fun row hrow other hother => ⟨h row hrow other hother, fun hkey => ?_⟩
  simp only [primaryKey, Prod.mk.injEq] at hkey
  simp only [rowKey, hkey.1, hkey.2.1, hkey.2.2]

/-- Unique rows are among the given ones. -/
theorem mem_of_mem_uniqueByKey {rows : List ParticipationRow} {row : ParticipationRow}
    (h : row ∈ uniqueByKey rows) : row ∈ rows := by
  obtain ⟨entry, hentry, rfl⟩ := List.mem_map.mp h
  obtain ⟨given, hgiven, rfl⟩ := List.mem_map.mp (mem_pairs_of_mem_mapOf hentry)
  exact hgiven

/-- Rows that the columns give back are inserted as they are. -/
theorem insertRows_eq {storeDay : String → Option String} {old rows after : List ParticipationRow}
    (h : ∀ row ∈ rows, ∀ stored, storeRow storeDay row = some stored → stored = row)
    (hinsert : insertRows storeDay old rows = some after) : after = old ++ rows := by
  have hstored : ∀ stored, rows.mapM (storeRow storeDay) = some stored → stored = rows := by
    clear hinsert
    induction rows with
    | nil =>
      intro stored hs
      exact (Option.some.inj hs).symm
    | cons row rest ih =>
      intro stored hs
      rw [List.mapM_cons] at hs
      obtain ⟨first, hfirst, hs⟩ := Option.bind_eq_some_iff.mp hs
      obtain ⟨others, hothers, hs⟩ := Option.bind_eq_some_iff.mp hs
      rw [← Option.some.inj hs, h row List.mem_cons_self first hfirst,
        ih (fun row hrow => h row (List.mem_cons_of_mem _ hrow)) others hothers]
  unfold insertRows at hinsert
  split at hinsert
  next stored hs =>
    split_ifs at hinsert
    rw [← Option.some.inj hinsert, hstored stored hs]
  next => cases hinsert

/-! ## The invariant -/

section Invariant

variable {ι : Type} [DecidableEq ι] (sha256 : String → String) (storeDay : String → Option String)

/-- What a transaction has made of a tournament can be committed: where it has written nothing, it
is what is committed, and there is a fingerprint. -/
structure Settled (s : IndexState ι) (tournamentId : String) (lock : Lock ι) : Prop where
  /-- The fingerprint is that of the rows. -/
  matching : Matches sha256 lock.entry
  /-- Nothing was written. -/
  untouched : lock.rewritten = false →
    lock.entry = s.committed tournamentId ∧ lock.entry.fingerprint ≠ none

/-- What a call has made of its tournament, by the statement it comes to. -/
def LockFits (s : IndexState ι) (call : Call ι) (lock : Lock ι) : Prop :=
  match call.stage with
  | .claiming => Settled sha256 s call.tournamentId lock
  | .deleting => lock.entry.fingerprint = some (fingerprintRows sha256 (uniqueByKey call.rows))
  | .inserting => lock.rewritten = true ∧
      lock.entry = ⟨[], some (fingerprintRows sha256 (uniqueByKey call.rows))⟩
  | .ending _ => Settled sha256 s call.tournamentId lock ∧
      lock.entry.rows.Perm (lastByPrimaryKey call.rows)

/-- What is known of a call. -/
structure CallHolds (s : IndexState ι) (client : ι) (call : Call ι) : Prop where
  /-- Its rows. -/
  legible : Unambiguous call.rows ∧
    ∀ row ∈ call.rows, ∀ stored, storeRow storeDay row = some stored → stored = row
  /-- The lock fits its stage. -/
  fits : ∀ lock, lockOf s client call.tournamentId = some lock → LockFits sha256 s call lock
  /-- It is locked after the claim. -/
  locked : call.stage ≠ .claiming → lockOf s client call.tournamentId ≠ none
  /-- Before the claim nothing has changed since the savepoint. -/
  started : call.stage = .claiming → lockOf s client call.tournamentId = call.savepoint
  /-- What the savepoint gives back can be committed. -/
  saved : ∀ lock, call.savepoint = some lock → lock.client = client ∧
    Settled sha256 s call.tournamentId lock ∧ lockOf s client call.tournamentId ≠ none

/-- What is known of a connection. -/
structure ClientHolds (s : IndexState ι) (client : ι) : Prop where
  /-- What it has locked can be committed, the tournament of its call aside. -/
  settled : ∀ tournamentId lock, lockOf s client tournamentId = some lock →
    (∀ call, (s.clients client).call = some call → call.tournamentId ≠ tournamentId) →
      Settled sha256 s tournamentId lock
  /-- Its call. -/
  call : ∀ call, (s.clients client).call = some call → CallHolds sha256 storeDay s client call

/-- What every state of a run meets. -/
structure Indexed (s : IndexState ι) : Prop where
  /-- The stored fingerprints are those of the rows. -/
  committed : ∀ tournamentId, Matches sha256 (s.committed tournamentId)
  /-- A deletion that reaches the rows reaches their fingerprint. -/
  reached : ∀ deletion ∈ s.deletions, deletion.reachesRows = true →
    (s.committed deletion.tournamentId).fingerprint ≠ none → deletion.reachesState = true
  /-- The connections. -/
  clients : ∀ client, ClientHolds sha256 storeDay s client
  /-- The calls that have ended. -/
  reports : ∀ report ∈ s.reports, Exact report

variable {sha256 storeDay} {s s' : IndexState ι} {client : ι}

theorem indexed_start : Indexed sha256 storeDay ({} : IndexState ι) where
  committed := fun _ _ h => (nomatch h)
  reached := fun _ h => absurd h List.not_mem_nil
  clients := fun _ => ⟨fun _ _ h => (nomatch h), fun _ h => (nomatch h)⟩
  reports := fun _ h => absurd h List.not_mem_nil

theorem lockOf_eq_some {tournamentId : String} {lock : Lock ι} :
    lockOf s client tournamentId = some lock ↔
      s.locks tournamentId = some lock ∧ lock.client = client := by
  unfold lockOf
  rw [Option.filter_eq_some_iff, decide_eq_true_eq]

/-- A tournament is locked by one connection. -/
theorem lockOf_other {tournamentId : String} {lock : Lock ι}
    (h : s.locks tournamentId = some lock) {other : ι} (hne : other ≠ lock.client) :
    lockOf s other tournamentId = none := by
  unfold lockOf
  rw [h, Option.filter_some, if_neg]
  simpa using Ne.symm hne

theorem seen_of_lock {tournamentId : String} {lock : Lock ι}
    (h : lockOf s client tournamentId = some lock) : seen s client tournamentId = lock.entry := by
  rw [seen, h]
  rfl

theorem seen_of_none {tournamentId : String} (h : lockOf s client tournamentId = none) :
    seen s client tournamentId = s.committed tournamentId := by
  rw [seen, h]
  rfl

omit [DecidableEq ι] in
/-- What is committed matters only where a fingerprint is committed. -/
theorem Settled.congr {tournamentId : String} {lock : Lock ι}
    (h : Settled sha256 s tournamentId lock)
    (hsame : s'.committed tournamentId = s.committed tournamentId ∨
      (s.committed tournamentId).fingerprint = none) : Settled sha256 s' tournamentId lock where
  matching := h.matching
  untouched := by
    intro hrewritten
    obtain ⟨hentry, hfingerprint⟩ := h.untouched hrewritten
    refine ⟨?_, hfingerprint⟩
    rcases hsame with hsame | hnone
    · rw [hsame]
      exact hentry
    · rw [hentry] at hfingerprint
      exact absurd hnone hfingerprint

omit [DecidableEq ι] in
theorem LockFits.congr {call : Call ι} {lock : Lock ι} (h : LockFits sha256 s call lock)
    (hsame : s'.committed call.tournamentId = s.committed call.tournamentId ∨
      (s.committed call.tournamentId).fingerprint = none) : LockFits sha256 s' call lock := by
  unfold LockFits at h ⊢
  cases hstage : call.stage with
  | claiming =>
    rw [hstage] at h
    exact h.congr hsame
  | deleting =>
    rw [hstage] at h
    exact h
  | inserting =>
    rw [hstage] at h
    exact h
  | ending unchanged =>
    rw [hstage] at h
    exact ⟨h.1.congr hsame, h.2⟩

/-- A connection is not concerned by what others do. -/
theorem ClientHolds.congr (h : ClientHolds sha256 storeDay s client)
    (hclient : s'.clients client = s.clients client)
    (hlocks : ∀ tournamentId, lockOf s' client tournamentId = lockOf s client tournamentId)
    (hcommitted : ∀ tournamentId, lockOf s client tournamentId ≠ none →
      s'.committed tournamentId = s.committed tournamentId ∨
        (s.committed tournamentId).fingerprint = none) :
    ClientHolds sha256 storeDay s' client where
  settled := by
    intro tournamentId lock hlock hcall
    rw [hlocks] at hlock
    rw [hclient] at hcall
    exact (h.settled tournamentId lock hlock hcall).congr
      (hcommitted _ fun hnone => (nomatch hlock.symm.trans hnone))
  call := by
    intro call hcall
    rw [hclient] at hcall
    have hc := h.call call hcall
    refine ⟨hc.legible, ?_, ?_, ?_, ?_⟩
    · intro lock hlock
      rw [hlocks] at hlock
      exact (hc.fits lock hlock).congr
        (hcommitted _ fun hnone => (nomatch hlock.symm.trans hnone))
    · rw [hlocks]
      exact hc.locked
    · rw [hlocks]
      exact hc.started
    · intro lock hlock
      obtain ⟨howner, hsettled, hheld⟩ := hc.saved lock hlock
      rw [hlocks]
      exact ⟨howner, hsettled.congr (hcommitted _ hheld), hheld⟩

/-! ## One connection -/

/-- What one connection does on its own. -/
theorem Indexed.alone (h : Indexed sha256 storeDay s)
    (hclients : ∀ other, other ≠ client → s'.clients other = s.clients other)
    (hlocks : ∀ other, other ≠ client → ∀ tournamentId,
      lockOf s' other tournamentId = lockOf s other tournamentId)
    (hcommitted : s'.committed = s.committed) (hdeletions : s'.deletions = s.deletions)
    (hreports : s'.reports = s.reports) (hclient : ClientHolds sha256 storeDay s' client) :
    Indexed sha256 storeDay s' where
  committed := by
    rw [hcommitted]
    exact h.committed
  reached := by
    rw [hdeletions, hcommitted]
    exact h.reached
  clients := by
    intro other
    by_cases hother : other = client
    · subst hother
      exact hclient
    · refine (h.clients other).congr (hclients other hother) (hlocks other hother) ?_
      intro tournamentId _
      rw [hcommitted]
      exact Or.inl rfl
  reports := by
    rw [hreports]
    exact h.reports

/-- A call ends. -/
theorem Indexed.report (h : Indexed sha256 storeDay s) {report : Report} (hexact : Exact report) :
    Indexed sha256 storeDay { s with reports := s.reports ++ [report] } where
  committed := h.committed
  reached := h.reached
  clients := fun client => (h.clients client).congr rfl (fun _ => rfl) fun _ _ => Or.inl rfl
  reports := by
    intro other hin
    rcases List.mem_append.mp hin with hold | hnew
    · exact h.reports other hold
    · rw [List.mem_singleton.mp hnew]
      exact hexact

theorem setClient_other {state : Client ι} {other : ι} (hne : other ≠ client) :
    (setClient s client state).clients other = s.clients other :=
  Function.update_of_ne hne _ _

theorem setClient_self {state : Client ι} : (setClient s client state).clients client = state :=
  Function.update_self _ _ _

/-- A lock of another connection is not concerned. -/
theorem lockOf_setLock_other {tournamentId : String} {lock : Option (Lock ι)} {other : ι}
    (hold : ∀ held, s.locks tournamentId = some held → held.client = client)
    (hnew : ∀ held, lock = some held → held.client = client) (hne : other ≠ client)
    (key : String) : lockOf (setLock s tournamentId lock) other key = lockOf s other key := by
  have hnone : ∀ found : Option (Lock ι), (∀ held, found = some held → held.client = client) →
      found.filter (fun held => held.client = other) = none := by
    intro found hfound
    rw [Option.filter_eq_none_iff]
    intro held hheld
    rw [decide_eq_true_eq, hfound held hheld]
    exact Ne.symm hne
  unfold lockOf setLock
  by_cases hkey : key = tournamentId
  · subst hkey
    simp only [Function.update_self]
    rw [hnone _ hnew, hnone _ hold]
  · simp only [Function.update_of_ne hkey]

theorem lockOf_setLock_self {tournamentId : String} {lock : Option (Lock ι)}
    (hnew : ∀ held, lock = some held → held.client = client) :
    lockOf (setLock s tournamentId lock) client tournamentId = lock := by
  unfold lockOf setLock
  simp only [Function.update_self]
  cases lock with
  | none => rfl
  | some held => rw [Option.filter_some, if_pos (decide_eq_true (hnew held rfl))]

theorem lockOf_setLock_of_ne {tournamentId key : String} {lock : Option (Lock ι)}
    (hne : key ≠ tournamentId) (other : ι) :
    lockOf (setLock s tournamentId lock) other key = lockOf s other key := by
  unfold lockOf setLock
  simp only [Function.update_of_ne hne]

/-- A call goes on with its lock. -/
theorem indexed_goOn (h : Indexed sha256 storeDay s) {call : Call ι}
    (hcall : (s.clients client).call = some call)
    (hfree : ∀ held, s.locks call.tournamentId = some held → held.client = client)
    {lock : Lock ι} (howner : lock.client = client) {stage : Stage} (hstage : stage ≠ .claiming)
    (hfits : LockFits sha256 s { call with stage } lock) :
    Indexed sha256 storeDay
      (goOn (setLock s call.tournamentId (some lock)) client call stage) := by
  have hnew : ∀ held, some lock = some held → held.client = client := by
    intro held hheld
    rw [← Option.some.inj hheld]
    exact howner
  have hself : lockOf (goOn (setLock s call.tournamentId (some lock)) client call stage) client
      call.tournamentId = some lock := lockOf_setLock_self hnew
  have hclient : ((goOn (setLock s call.tournamentId (some lock)) client call stage).clients
      client).call = some { call with stage } := by
    unfold goOn
    rw [setClient_self]
  obtain ⟨hsettled, hc⟩ := h.clients client
  replace hc := hc call hcall
  refine h.alone (fun other hne => setClient_other hne)
    (fun other hne => lockOf_setLock_other hfree hnew hne) rfl rfl rfl ⟨?_, ?_⟩
  · intro tournamentId other hlock hother
    have hne : tournamentId ≠ call.tournamentId := (hother _ hclient).symm
    have hold : lockOf s client tournamentId = some other :=
      (lockOf_setLock_of_ne hne client).symm.trans hlock
    refine (hsettled tournamentId other hold fun old hold => ?_).congr (Or.inl rfl)
    obtain rfl := Option.some.inj (hcall.symm.trans hold)
    exact hne.symm
  · intro next hnext
    obtain rfl := Option.some.inj (hclient.symm.trans hnext)
    refine ⟨hc.legible, ?_, ?_, fun hclaiming => absurd hclaiming hstage, ?_⟩
    · intro held hheld
      obtain rfl := Option.some.inj (hself.symm.trans hheld)
      exact hfits.congr (Or.inl rfl)
    · intro _ hnone
      exact (nomatch hself.symm.trans hnone)
    · intro held hheld
      obtain ⟨hown, hsettledHeld, -⟩ := hc.saved held hheld
      exact ⟨hown, hsettledHeld.congr (Or.inl rfl), fun hnone => (nomatch hself.symm.trans hnone)⟩

/-- The connection holds no lock and no call. -/
theorem clientHolds_free {command : Bool}
    (hnone : ∀ tournamentId, lockOf s client tournamentId = none) :
    ClientHolds sha256 storeDay (setClient s client { command }) client where
  settled := fun tournamentId _ hlock _ => (nomatch (hnone tournamentId).symm.trans hlock)
  call := by
    intro call hcall
    rw [setClient_self] at hcall
    cases hcall

/-- A connection without a call, all of whose locks can be committed. -/
theorem clientHolds_settled {command : Bool}
    (hall : ∀ tournamentId lock, lockOf s client tournamentId = some lock →
      Settled sha256 s tournamentId lock) :
    ClientHolds sha256 storeDay (setClient s client { command }) client where
  settled := fun tournamentId lock hlock _ =>
    (hall tournamentId lock hlock).congr (Or.inl rfl)
  call := by
    intro call hcall
    rw [setClient_self] at hcall
    cases hcall

theorem lockOf_unlocked (tournamentId : String) :
    lockOf (dropLocks s client) client tournamentId = none := by
  unfold lockOf dropLocks unlocked
  rw [Option.filter_eq_none_iff]
  intro lock hlock
  have hne := (Option.filter_eq_some_iff.mp hlock).2
  simpa using hne

theorem lockOf_unlocked_other {other : ι} (hne : other ≠ client) (tournamentId : String) :
    lockOf (dropLocks s client) other tournamentId = lockOf s other tournamentId := by
  change ((s.locks tournamentId).filter _).filter _ = (s.locks tournamentId).filter _
  cases s.locks tournamentId with
  | none => rfl
  | some lock =>
    by_cases howner : lock.client = client
    · simp [Option.filter_some, howner, Ne.symm hne]
    · simp [Option.filter_some, howner]

/-- A transaction is rolled back. -/
theorem indexed_dropLocks (h : Indexed sha256 storeDay s) (command : Bool) :
    Indexed sha256 storeDay (setClient (dropLocks s client) client { command }) :=
  h.alone (fun _ hne => setClient_other hne) (fun _ hne => lockOf_unlocked_other hne) rfl rfl rfl
    (clientHolds_free lockOf_unlocked)

/-- A transaction commits. -/
theorem indexed_commitLocks (h : Indexed sha256 storeDay s)
    (hall : ∀ tournamentId lock, lockOf s client tournamentId = some lock →
      Settled sha256 s tournamentId lock) (command : Bool) :
    Indexed sha256 storeDay (setClient (commitLocks s client) client { command }) where
  committed := by
    intro tournamentId
    change Matches sha256 (seen s client tournamentId)
    cases hlock : lockOf s client tournamentId with
    | none =>
      rw [seen_of_none hlock]
      exact h.committed tournamentId
    | some lock =>
      rw [seen_of_lock hlock]
      exact (hall tournamentId lock hlock).matching
  reached := by
    intro deletion hin hrows hfingerprint
    obtain ⟨old, hold, rfl⟩ := List.mem_map.mp hin
    split_ifs at hrows hfingerprint ⊢ with hrewritten
    have hsame : seen s client old.tournamentId = s.committed old.tournamentId := by
      cases hlock : lockOf s client old.tournamentId with
      | none => exact seen_of_none hlock
      | some lock =>
        rw [hlock] at hrewritten
        rw [seen_of_lock hlock]
        exact ((hall _ lock hlock).untouched (Bool.eq_false_iff.mpr hrewritten)).1
    change (seen s client old.tournamentId).fingerprint ≠ none at hfingerprint
    rw [hsame] at hfingerprint
    exact h.reached old hold hrows hfingerprint
  clients := by
    intro other
    by_cases hother : other = client
    · subst hother
      exact clientHolds_free lockOf_unlocked
    · refine (h.clients other).congr (setClient_other hother)
        (lockOf_unlocked_other hother) fun tournamentId hheld => Or.inl ?_
      refine seen_of_none ?_
      cases hlock : s.locks tournamentId with
      | none => simp [lockOf, hlock]
      | some lock =>
        refine lockOf_other hlock fun howner => hheld ?_
        exact lockOf_other hlock (howner ▸ hother)
  reports := h.reports

/-! ## The statements of a call -/

/-- A call without its stage fits no worse. -/
theorem settled_of_ending (h : ClientHolds sha256 storeDay s client) {call : Call ι}
    (hcall : (s.clients client).call = some call) {unchanged : Bool}
    (hstage : call.stage = .ending unchanged) {tournamentId : String} {lock : Lock ι}
    (hlock : lockOf s client tournamentId = some lock) : Settled sha256 s tournamentId lock := by
  by_cases hkey : call.tournamentId = tournamentId
  · subst hkey
    have hfits := (h.call call hcall).fits lock hlock
    unfold LockFits at hfits
    rw [hstage] at hfits
    exact hfits.1
  · refine h.settled tournamentId lock hlock fun other hother => ?_
    obtain rfl := Option.some.inj (hcall.symm.trans hother)
    exact hkey

/-- A call returns. -/
theorem indexed_endCall (h : Indexed sha256 storeDay s) {call : Call ι}
    (hcall : (s.clients client).call = some call) {unchanged : Bool}
    (hstage : call.stage = .ending unchanged) :
    Indexed sha256 storeDay (endCall s client call unchanged) := by
  have hclient := h.clients client
  have hall : ∀ tournamentId lock, lockOf s client tournamentId = some lock →
      Settled sha256 s tournamentId lock := fun tournamentId lock hlock =>
    settled_of_ending hclient hcall hstage hlock
  obtain ⟨lock, hlock⟩ : ∃ lock, lockOf s client call.tournamentId = some lock := by
    have hheld := (hclient.call call hcall).locked (by rw [hstage]; exact nofun)
    exact Option.ne_none_iff_exists'.mp hheld
  have hrows : lock.entry.rows.Perm (lastByPrimaryKey call.rows) := by
    have hfits := (hclient.call call hcall).fits lock hlock
    unfold LockFits at hfits
    rw [hstage] at hfits
    exact hfits.2
  unfold endCall
  cases hcommand : (s.clients client).command with
  | true =>
    refine (h.alone (fun other hne => setClient_other hne) (fun _ _ _ => rfl) rfl rfl rfl
      (clientHolds_settled hall)).report ?_
    change (seen s client call.tournamentId).rows.Perm _
    rw [seen_of_lock hlock]
    exact hrows
  | false =>
    refine (indexed_commitLocks h hall false).report ?_
    have hgone : lockOf (commitLocks s client) client call.tournamentId = none :=
      lockOf_unlocked call.tournamentId
    change (seen (commitLocks s client) client call.tournamentId).rows.Perm _
    rw [seen_of_none hgone]
    change (seen s client call.tournamentId).rows.Perm _
    rw [seen_of_lock hlock]
    exact hrows

/-- A call throws. -/
theorem indexed_failCall (h : Indexed sha256 storeDay s) {call : Call ι}
    (hcall : (s.clients client).call = some call) (lost : Bool) :
    Indexed sha256 storeDay (failCall s client call lost) := by
  obtain ⟨hsettled, hc⟩ := h.clients client
  replace hc := hc call hcall
  unfold failCall
  cases hcommand : (s.clients client).command && !lost with
  | false =>
    refine (indexed_dropLocks h false).report ?_
    change (seen (dropLocks s client) client call.tournamentId).rows = _
    rw [seen_of_none (lockOf_unlocked call.tournamentId)]
    rfl
  | true =>
    cases hlock : lockOf s client call.tournamentId with
    | none =>
      have hsavepoint : call.savepoint = none := by
        cases hsavepoint : call.savepoint with
        | none => rfl
        | some saved => exact absurd hlock (hc.saved saved hsavepoint).2.2
      refine (h.alone (fun other hne => setClient_other hne) (fun _ _ _ => rfl) rfl rfl rfl
        (clientHolds_settled fun tournamentId lock hheld => ?_)).report ?_
      · refine hsettled tournamentId lock hheld fun other hother hkey => ?_
        obtain rfl := Option.some.inj (hcall.symm.trans hother)
        rw [hkey] at hlock
        exact (nomatch hlock.symm.trans hheld)
      · change (seen s client call.tournamentId).rows = _
        rw [seen_of_none hlock, hsavepoint]
        rfl
    | some lock =>
      have hfree : ∀ held, s.locks call.tournamentId = some held → held.client = client := by
        intro held hheld
        have hboth := lockOf_eq_some.mp hlock
        rw [← Option.some.inj (hboth.1.symm.trans hheld)]
        exact hboth.2
      have hnew : ∀ held, call.savepoint = some held → held.client = client :=
        fun held hheld => (hc.saved held hheld).1
      have hself : lockOf (setLock s call.tournamentId call.savepoint) client call.tournamentId =
          call.savepoint := lockOf_setLock_self hnew
      have hback : Indexed sha256 storeDay (setClient
          (setLock s call.tournamentId call.savepoint) client { command := true }) := by
        refine h.alone (fun other hne => setClient_other hne)
          (fun other hne => lockOf_setLock_other hfree hnew hne) rfl rfl rfl
          (clientHolds_settled fun tournamentId held hheld => ?_)
        by_cases hkey : tournamentId = call.tournamentId
        · subst hkey
          exact (hc.saved held (hself.symm.trans hheld)).2.1.congr (Or.inl rfl)
        · rw [lockOf_setLock_of_ne hkey] at hheld
          refine (hsettled tournamentId held hheld fun other hother => ?_).congr (Or.inl rfl)
          obtain rfl := Option.some.inj (hcall.symm.trans hother)
          exact Ne.symm hkey
      refine hback.report ?_
      change (seen (setLock s call.tournamentId call.savepoint) client
        call.tournamentId).rows = _
      unfold seen
      rw [hself]
      rfl

/-- The next statement of a call executes. -/
theorem indexed_statement (hsha : Function.Injective sha256) (h : Indexed sha256 storeDay s)
    {call : Call ι} (hcall : (s.clients client).call = some call) :
    Indexed sha256 storeDay (statement sha256 storeDay s client call) := by
  obtain ⟨hsettled, hc⟩ := h.clients client
  replace hc := hc call hcall
  have hunique := uniqueByKey_eq hc.legible.1
  have hheld : ∀ lock, s.locks call.tournamentId = some lock →
      lockOf s client call.tournamentId ≠ none → lock.client = client ∧
        lockOf s client call.tournamentId = some lock := by
    intro lock hlock hne
    obtain ⟨own, hown⟩ := Option.ne_none_iff_exists'.mp hne
    have hboth := lockOf_eq_some.mp hown
    obtain rfl := Option.some.inj (hboth.1.symm.trans hlock)
    exact ⟨hboth.2, hown⟩
  cases hstage : call.stage with
  | claiming =>
    have hstep : statement sha256 storeDay s client call =
        if ∃ held ∈ s.locks call.tournamentId, held.client ≠ client then s
        else if (seen s client call.tournamentId).fingerprint =
            some (fingerprintRows sha256 (uniqueByKey call.rows)) then
          goOn (setLock s call.tournamentId (some ⟨client, seen s client call.tournamentId,
            ((s.locks call.tournamentId).map Lock.rewritten).getD false⟩)) client call
            (.ending true)
        else
          goOn (setLock s call.tournamentId (some ⟨client, { seen s client call.tournamentId with
            fingerprint := some (fingerprintRows sha256 (uniqueByKey call.rows)) },
            ((s.locks call.tournamentId).map Lock.rewritten).getD false⟩)) client call
            .deleting := by
      simp only [statement, hstage]
    rw [hstep]
    split_ifs with hwait hclaimed
    · exact h
    · have hfree : ∀ held, s.locks call.tournamentId = some held → held.client = client :=
        fun held hlock => by_contra fun hne => hwait ⟨held, hlock, hne⟩
      have hentry : Settled sha256 s call.tournamentId ⟨client, seen s client call.tournamentId,
          ((s.locks call.tournamentId).map Lock.rewritten).getD false⟩ := by
        cases hlock : s.locks call.tournamentId with
        | none =>
          have hnone : lockOf s client call.tournamentId = none := by simp [lockOf, hlock]
          rw [seen_of_none hnone] at hclaimed ⊢
          exact ⟨h.committed call.tournamentId,
            fun _ => ⟨rfl, fun hnone => (nomatch hclaimed.symm.trans hnone)⟩⟩
        | some lock =>
          have hown := lockOf_eq_some.mpr ⟨hlock, hfree lock hlock⟩
          have hfits := hc.fits lock hown
          unfold LockFits at hfits
          rw [hstage] at hfits
          rw [seen_of_lock hown]
          exact ⟨hfits.matching, hfits.untouched⟩
      refine indexed_goOn h hcall hfree rfl nofun ⟨hentry, ?_⟩
      have hsame := hentry.matching _ hclaimed
      rw [← hunique]
      exact ((fingerprintRows_eq_iff hsha).mp hsame).symm
    · have hfree : ∀ held, s.locks call.tournamentId = some held → held.client = client :=
        fun held hlock => by_contra fun hne => hwait ⟨held, hlock, hne⟩
      exact indexed_goOn h hcall hfree rfl nofun rfl
  | deleting =>
    obtain ⟨lock, hown⟩ := Option.ne_none_iff_exists'.mp (hc.locked (by rw [hstage]; exact nofun))
    obtain ⟨hlock, howner⟩ := lockOf_eq_some.mp hown
    have hfree : ∀ held, s.locks call.tournamentId = some held → held.client = client := by
      intro held hheld
      rw [← Option.some.inj (hlock.symm.trans hheld)]
      exact howner
    have hfits := hc.fits lock hown
    unfold LockFits at hfits
    rw [hstage] at hfits
    have hstep : statement sha256 storeDay s client call =
        goOn (setLock s call.tournamentId
          (some { lock with entry := { lock.entry with rows := [] }, rewritten := true })) client
          call (if uniqueByKey call.rows = [] then .ending false else .inserting) := by
      simp only [statement, hstage, hlock]
    rw [hstep]
    have hnext : (if uniqueByKey call.rows = [] then Stage.ending false else .inserting) ≠
        .claiming := by
      split_ifs <;> exact nofun
    refine indexed_goOn h hcall hfree ?_ hnext ?_
    · exact howner
    split_ifs with hempty
    · refine ⟨⟨?_, fun hfalse => (nomatch hfalse)⟩, ?_⟩
      · intro fingerprint hfingerprint
        rw [← Option.some.inj (hfits.symm.trans hfingerprint), hempty]
      · rw [← hunique, hempty]
    · refine ⟨rfl, ?_⟩
      change IndexEntry.mk [] lock.entry.fingerprint = _
      rw [hfits]
  | inserting =>
    obtain ⟨lock, hown⟩ := Option.ne_none_iff_exists'.mp (hc.locked (by rw [hstage]; exact nofun))
    obtain ⟨hlock, howner⟩ := lockOf_eq_some.mp hown
    have hfree : ∀ held, s.locks call.tournamentId = some held → held.client = client := by
      intro held hheld
      rw [← Option.some.inj (hlock.symm.trans hheld)]
      exact howner
    have hfits := hc.fits lock hown
    unfold LockFits at hfits
    rw [hstage] at hfits
    cases hinsert : insertRows storeDay lock.entry.rows (uniqueByKey call.rows) with
    | none =>
      have hstep : statement sha256 storeDay s client call = failCall s client call false := by
        simp only [statement, hstage, hlock, hinsert]
      rw [hstep]
      exact indexed_failCall h hcall false
    | some rows =>
      have hstep : statement sha256 storeDay s client call =
          goOn (setLock s call.tournamentId
            (some { lock with entry := { lock.entry with rows } })) client call
            (.ending false) := by
        simp only [statement, hstage, hlock, hinsert]
      have hrows : rows = uniqueByKey call.rows := by
        have heq := insertRows_eq
          (fun row hrow => hc.legible.2 row (mem_of_mem_uniqueByKey hrow)) hinsert
        rw [heq, hfits.2]
        rfl
      rw [hstep]
      have hnext : Stage.ending false ≠ .claiming := nofun
      refine indexed_goOn h hcall hfree ?_ hnext ⟨⟨?_, ?_⟩, ?_⟩
      · exact howner
      · intro fingerprint hfingerprint
        change lock.entry.fingerprint = some fingerprint at hfingerprint
        rw [hfits.2] at hfingerprint
        rw [← Option.some.inj hfingerprint, ← hrows]
      · intro hfalse
        exact (nomatch hfits.1.symm.trans hfalse)
      · change rows.Perm _
        rw [hrows, hunique]
  | ending unchanged =>
    have hstep : statement sha256 storeDay s client call = endCall s client call unchanged := by
      simp only [statement, hstage]
    rw [hstep]
    exact indexed_endCall h hcall hstage

/-! ## Calls, commands and deletions -/

/-- A call begins. -/
theorem indexed_replace (h : Indexed sha256 storeDay s) {command : Bool}
    (hfree : s.clients client = ⟨command, none⟩) {tournamentId : String}
    {rows : List ParticipationRow}
    (hlegible : Legible storeDay s (.replace client tournamentId rows)) :
    Indexed sha256 storeDay (setClient s client
      ⟨command, some ⟨tournamentId, rows, lockOf s client tournamentId, .claiming⟩⟩) := by
  have hsettled : ∀ key lock, lockOf s client key = some lock →
      Settled sha256 s key lock := by
    intro key lock hlock
    refine (h.clients client).settled key lock hlock fun call hcall => ?_
    rw [hfree] at hcall
    cases hcall
  refine h.alone (fun other hne => setClient_other hne) (fun _ _ _ => rfl) rfl rfl rfl ⟨?_, ?_⟩
  · exact fun key lock hlock _ => (hsettled key lock hlock).congr (Or.inl rfl)
  · intro call hcall
    rw [setClient_self] at hcall
    obtain rfl := Option.some.inj hcall
    refine ⟨hlegible, ?_, fun hne => absurd rfl hne, fun _ => rfl, ?_⟩
    · exact fun lock hlock => (hsettled tournamentId lock hlock).congr (Or.inl rfl)
    · intro lock hlock
      change lockOf s client tournamentId = some lock at hlock
      exact ⟨(lockOf_eq_some.mp hlock).2, (hsettled tournamentId lock hlock).congr (Or.inl rfl),
        fun hnone => (nomatch hlock.symm.trans hnone)⟩

/-- A connection without a call can commit all that it has locked. -/
theorem settled_of_free (h : Indexed sha256 storeDay s) {command : Bool}
    (hfree : s.clients client = ⟨command, none⟩) (tournamentId : String) (lock : Lock ι)
    (hlock : lockOf s client tournamentId = some lock) : Settled sha256 s tournamentId lock := by
  refine (h.clients client).settled tournamentId lock hlock fun call hcall => ?_
  rw [hfree] at hcall
  cases hcall

/-- A deletion takes its snapshot: it reaches the rows, and the fingerprint where there is one. -/
theorem indexed_startDelete (h : Indexed sha256 storeDay s) (tournamentId : String) :
    Indexed sha256 storeDay (step sha256 storeDay s (.startDelete tournamentId)) where
  committed := h.committed
  reached := by
    intro deletion hin hrows hfingerprint
    rcases List.mem_append.mp hin with hold | hnew
    · exact h.reached deletion hold hrows hfingerprint
    · rw [List.mem_singleton.mp hnew] at hfingerprint ⊢
      exact Option.isSome_iff_ne_none.mpr hfingerprint
  clients := fun client => (h.clients client).congr rfl (fun _ => rfl) fun _ _ => Or.inl rfl
  reports := h.reports

/-- A deletion executes. -/
theorem indexed_finishDelete (h : Indexed sha256 storeDay s) {position : ℕ} {deletion : Deletion}
    (hdeletion : s.deletions[position]? = some deletion) :
    Indexed sha256 storeDay (finishDelete s position deletion) := by
  have hreached := h.reached deletion (List.mem_of_getElem? hdeletion)
  unfold finishDelete
  by_cases hwait : deletion.reachesState = true ∧ s.locks deletion.tournamentId ≠ none
  · rw [if_pos hwait]
    exact h
  rw [if_neg hwait]
  refine ⟨?_, ?_, ?_, h.reports⟩
  · intro tournamentId fingerprint hfingerprint
    by_cases hkey : tournamentId = deletion.tournamentId
    · subst hkey
      simp only [Function.update_self] at hfingerprint ⊢
      split_ifs at hfingerprint with hstate
      have hrows : ¬deletion.reachesRows = true := fun hrows => hstate
        (hreached hrows fun hnone => (nomatch hfingerprint.symm.trans hnone))
      rw [if_neg hrows]
      exact h.committed _ fingerprint hfingerprint
    · simp only [Function.update_of_ne hkey] at hfingerprint ⊢
      exact h.committed _ fingerprint hfingerprint
  · intro other hin hrows hfingerprint
    obtain ⟨old, hold, rfl⟩ := List.mem_map.mp hin
    replace hold := List.mem_of_mem_eraseIdx hold
    by_cases hkey : old.tournamentId = deletion.tournamentId
    · rw [if_pos hkey] at hrows hfingerprint ⊢
      simp only [hkey, Function.update_self] at hfingerprint
      by_cases hstate : deletion.reachesState = true
      · rw [if_pos hstate] at hfingerprint
        exact absurd rfl hfingerprint
      · rw [if_neg hstate] at hfingerprint
        have hreaches := h.reached old hold (Bool.and_elim_left hrows)
          (hkey ▸ hfingerprint)
        simp [hreaches, hstate]
    · rw [if_neg hkey] at hrows hfingerprint ⊢
      simp only [Function.update_of_ne hkey] at hfingerprint
      exact h.reached old hold hrows hfingerprint
  · intro client
    refine (h.clients client).congr rfl (fun _ => rfl) fun tournamentId hheld => ?_
    by_cases hkey : tournamentId = deletion.tournamentId
    · subst hkey
      have hlocked : s.locks deletion.tournamentId ≠ none := by
        intro hnone
        exact hheld (by simp [lockOf, hnone])
      have hstate : ¬deletion.reachesState = true := fun hstate => hwait ⟨hstate, hlocked⟩
      by_cases hnone : (s.committed deletion.tournamentId).fingerprint = none
      · exact Or.inr hnone
      · have hrows : ¬deletion.reachesRows = true := fun hrows => hstate (hreached hrows hnone)
        refine Or.inl ?_
        simp only [Function.update_self, if_neg hrows, if_neg hstate]
    · exact Or.inl (Function.update_of_ne hkey _ _)

/-! ## Every run -/

/-- A step whose rows are legible keeps rows and fingerprints together. -/
theorem indexed_step (hsha : Function.Injective sha256) {action : IndexAction ι}
    (hlegible : Legible storeDay s action) (h : Indexed sha256 storeDay s) :
    Indexed sha256 storeDay (step sha256 storeDay s action) := by
  cases action with
  | openCommand client =>
    rcases hfree : s.clients client with ⟨_ | _, _ | call⟩
    · have hstep : step sha256 storeDay s (.openCommand client) =
          setClient s client { command := true } := by simp only [step, hfree]
      rw [hstep]
      exact h.alone (fun other hne => setClient_other hne) (fun _ _ _ => rfl) rfl rfl rfl
        (clientHolds_settled (settled_of_free h hfree))
    all_goals
      have hstep : step sha256 storeDay s (.openCommand client) = s := by simp only [step, hfree]
      rwa [hstep]
  | closeCommand client commit =>
    rcases hfree : s.clients client with ⟨_ | _, _ | call⟩
    case true.none =>
      have hstep : step sha256 storeDay s (.closeCommand client commit) =
          setClient (if commit then commitLocks s client else dropLocks s client) client {} := by
        simp only [step, hfree]
      rw [hstep]
      cases commit with
      | true => exact indexed_commitLocks h (settled_of_free h hfree) false
      | false => exact indexed_dropLocks h false
    all_goals
      have hstep : step sha256 storeDay s (.closeCommand client commit) = s := by
        simp only [step, hfree]
      rwa [hstep]
  | replace client tournamentId rows =>
    rcases hfree : s.clients client with ⟨command, _ | call⟩
    · have hstep : step sha256 storeDay s (.replace client tournamentId rows) = setClient s client
          ⟨command, some ⟨tournamentId, rows, lockOf s client tournamentId, .claiming⟩⟩ := by
        simp only [step, hfree]
      rw [hstep]
      exact indexed_replace h hfree hlegible
    · have hstep : step sha256 storeDay s (.replace client tournamentId rows) = s := by
        simp only [step, hfree]
      rwa [hstep]
  | statement client =>
    cases hcall : (s.clients client).call with
    | some call =>
      have hstep : step sha256 storeDay s (.statement client) =
          statement sha256 storeDay s client call := by simp only [step, hcall]
      rw [hstep]
      exact indexed_statement hsha h hcall
    | none =>
      have hstep : step sha256 storeDay s (.statement client) = s := by simp only [step, hcall]
      rwa [hstep]
  | fail client lost =>
    cases hcall : (s.clients client).call with
    | some call =>
      have hstep : step sha256 storeDay s (.fail client lost) = failCall s client call lost := by
        simp only [step, hcall]
      rw [hstep]
      exact indexed_failCall h hcall lost
    | none =>
      have hstep : step sha256 storeDay s (.fail client lost) = s := by simp only [step, hcall]
      rwa [hstep]
  | startDelete tournamentId => exact indexed_startDelete h tournamentId
  | finishDelete position =>
    cases hdeletion : s.deletions[position]? with
    | some deletion =>
      have hstep : step sha256 storeDay s (.finishDelete position) =
          finishDelete s position deletion := by simp only [step, hdeletion]
      rw [hstep]
      exact indexed_finishDelete h hdeletion
    | none =>
      have hstep : step sha256 storeDay s (.finishDelete position) = s := by
        simp only [step, hdeletion]
      rwa [hstep]
  | failDelete position =>
    exact ⟨h.committed, fun deletion hin => h.reached deletion (List.mem_of_mem_eraseIdx hin),
      fun client => (h.clients client).congr rfl (fun _ => rfl) fun _ _ => Or.inl rfl, h.reports⟩

/-- Where the joined key tells the rows of every call apart as the primary key does, a replacement
leaves the given rows, one for each primary key, a replacement that throws leaves what was there,
and the stored fingerprint is that of the rows. -/
theorem replaced_exactly (hsha : Function.Injective sha256) {actions : List (IndexAction ι)}
    (hmeets : RunMeets (step sha256 storeDay) (Legible storeDay) {} actions) :
    Faithful sha256 (run (step sha256 storeDay) {} actions) := by
  have hstep : ∀ (s : IndexState ι) action, Legible storeDay s action → Indexed sha256 storeDay s →
      Indexed sha256 storeDay (step sha256 storeDay s action) :=
    fun _ _ hlegible h => indexed_step hsha hlegible h
  have h : Indexed sha256 storeDay (run (step sha256 storeDay) ({} : IndexState ι) actions) :=
    run_keeps hstep hmeets indexed_start
  exact ⟨h.reports, h.committed⟩

end Invariant

/-! ## Rows of one team -/

/-- The day that a date begins with. -/
def sampleDay (text : String) : Option String := some (text.take 10).toString

/-- A row of a team. -/
def sampleRow (subjectId participantId : String) : ParticipationRow :=
  ⟨.TEAM, subjectId, participantId, none, none, none, none, none, some 2⟩

/-- The digest of the sample row's text, and texts that are told apart otherwise. -/
def sampleDigest (text : String) : String :=
  if text = "[\"TEAM\",\"team-1\",\"participant-1\",null,null,null,null,null,2]" then
    "d6e1c0bb331aec90733e237d8a4b89d5f5bd5ba5a18d95e538a61c168a7b9e7f"
  else "_" ++ text

theorem sampleDigest_injective : Function.Injective sampleDigest := by
  intro a b h
  unfold sampleDigest at h
  split_ifs at h with ha hb hb
  · rw [ha, hb]
  · have hfirst := congrArg String.toList h
    simp at hfirst
  · have hfirst := congrArg String.toList h
    simp at hfirst
  · have hlists := congrArg String.toList h
    rw [String.toList_append, String.toList_append] at hlists
    exact String.toList_injective (List.append_cancel_left hlists)

/-- The rows are written, found unchanged, and a call that loses its connection writes nothing. -/
theorem replaced_exactly_twice :
    let rows := [sampleRow "team-1" "participant-1"]
    let actions : List (IndexAction ℕ) := [.replace 0 "tournament" rows, .statement 0,
      .statement 0, .statement 0, .statement 0, .openCommand 1, .replace 1 "tournament" rows,
      .statement 1, .statement 1, .replace 1 "tournament" [], .statement 1, .fail 1 true]
    Faithful sampleDigest (run (step sampleDigest sampleDay) {} actions) := by
  intro rows actions
  apply replaced_exactly sampleDigest_injective
  have hrows : Legible sampleDay ({} : IndexState ℕ) (.replace 0 "tournament" rows) := by
    refine ⟨?_, ?_⟩
    · intro row hrow other hother _
      rw [List.mem_singleton.mp hrow, List.mem_singleton.mp hother]
    · intro row hrow stored hstored
      rw [List.mem_singleton.mp hrow] at hstored ⊢
      exact (Option.some.inj hstored).symm
  exact ⟨hrows, trivial, trivial, trivial, trivial, trivial, hrows, trivial, trivial,
    ⟨fun _ hrow => absurd hrow List.not_mem_nil, fun _ hrow => absurd hrow List.not_mem_nil⟩,
    trivial, trivial, trivial⟩

/-- Two participants whose joined keys are one text: the first one is lost. -/
theorem replaced_rows_merged :
    ¬∀ (sha256 : String → String) (storeDay : String → Option String),
      Function.Injective sha256 → ∀ actions : List (IndexAction ℕ),
        Faithful sha256 (run (step sha256 storeDay) {} actions) := by
  intro hall
  have hreports := (hall (fun text => text) sampleDay (fun _ _ h => h)
    [.replace 0 "tournament" [sampleRow "a|b" "c", sampleRow "a" "b|c"], .statement 0,
      .statement 0, .statement 0, .statement 0]).1
  have hlength : ([sampleRow "a" "b|c"] : List ParticipationRow).length =
      (lastByPrimaryKey [sampleRow "a|b" "c", sampleRow "a" "b|c"]).length :=
    (hreports ⟨"tournament", [sampleRow "a|b" "c", sampleRow "a" "b|c"], some false, [],
      [sampleRow "a" "b|c"]⟩ (List.mem_of_getElem? (i := 0) rfl)).length_eq
  exact absurd hlength (by decide)

end FactoryServer.IndexFingerprints
