import FactoryServer.ConcurrentWrites

/-!
# Writers under their locks

Calls that write only rows whose locks they hold. The rows are then what the log
of committed upserts says, the upserts of one row follow each other by the clock,
and while a call holds the lock of a row nobody else writes it. The upserts of an
open transaction belong to the end of the log already.
-/

namespace FactoryServer.LockDiscipline

open JsonValue TournamentAccess CommandTransaction CommandReceipts StorageTables TournamentStorage
  ExecutionQueue CallbackOutcomes GuardedRuns ConcurrentWrites

variable {ι : Type}

/-! ## What a stage holds -/

/-- The work of a call that holds its locks. -/
def lockedWork? : Stage ι → Option Work
  | .receipt work _ => some work
  | .checking request roles records _ => some (.save request roles records)
  | .resolving request => some (.queue request)
  | .fetching request _ => some (.queue request)
  | .writing work _ _ _ => some work
  | _ => none

/-- The work of a call that found no receipt. -/
def openedWork? : Stage ι → Option Work
  | .receipt _ _ => none
  | stage => lockedWork? stage

/-- The upserts a call has executed. -/
def written : Stage ι → List (Write ι)
  | .writing _ _ written _ => written
  | _ => []

/-- The upserts of an open transaction. -/
def pending : Stage ι → List (Write ι)
  | .writing work _ written _ => if work.isDurable then written else []
  | _ => []

/-- None of the call's upserts is committed. -/
def silent : Stage ι → Bool
  | .ended _ => false
  | .writing work _ _ _ => work.isDurable
  | _ => true

/-- The save request of a call, with its records. -/
def save? : Stage ι → Option (SaveRequest × RecordMap)
  | .gating request _ _ gated todo => some (request, gated ++ todo)
  | .attaching request _ attached todo => some (request, attached ++ todo)
  | .locking (.save request _ records) => some (request, records)
  | .receipt (.save request _ records) _ => some (request, records)
  | .checking request _ records _ => some (request, records)
  | .writing (.save request _ records) _ _ _ => some (request, records)
  | _ => none

/-- The records still to be written. -/
def unwritten : Stage ι → RecordMap
  | .writing _ _ _ todo => todo
  | _ => []

/-! ## The condition -/

/-- A step of writers that take locks: saves send records under their own ids, a
mutation writes rows it has locked, and what happens outside touches neither rows
nor receipts. -/
structure Disciplined [DecidableEq ι] (h : Host) (s : State ι) (a : WriteAction ι) : Prop where
  /-- The keys of a save are the ids of its records. -/
  named : ∀ c request, a = .save c request → ∀ entry ∈ request.records, Named entry
  /-- A mutation writes rows it has locked. -/
  locked : ∀ c request reply written key record todo w, (a = .advance c ∨ a = .lose c) →
    s.calls c = .writing (.queue request) reply written ((key, record) :: todo) →
    nextWrite h s c (.queue request) written key record = .ok (.ok w) →
    .tournament w.id ∈ (Work.queue request).lockKeys c
  /-- Nobody writes a row without its lock, and the clock does not go back. -/
  outside : ∀ tables roles, a = .outside tables roles →
    tables.tournaments = s.tables.tournaments ∧
    tables.commandReceipts = s.tables.commandReceipts ∧ s.tables.now ≤ tables.now

/-! ## The invariant -/

/-- A later upsert of the same row has a later time. -/
def Earlier (v w : Write ι) : Prop := v.id = w.id → v.row.updatedAt < w.row.updatedAt

/-- The records of a save are under the keys of its request, and each is its own. -/
structure KeptKeys (request : SaveRequest) (records : RecordMap) : Prop where
  keys : records.map Prod.fst = request.records.map Prod.fst
  named : ∀ entry ∈ records, Named entry

/-- What holds of a call in a stage; the run has started at `since`. -/
structure CallHolds (since : ℕ) (s : State ι) (c : ι) (stage : Stage ι) : Prop where
  kept : ∀ request records, save? stage = some (request, records) → KeptKeys request records
  suffix : ∀ request records, save? stage = some (request, records) →
    ∀ entry ∈ unwritten stage, entry ∈ records
  locks : ∀ work, lockedWork? stage = some work → ∀ key ∈ work.lockKeys c, s.holder key = some c
  command : ∀ work, openedWork? stage = some work → work.isDurable = true →
    ∃ identity, identityOf work.payload = some identity ∧
      s.holder (.command identity.actor identity.commandId) = some c
  identity : ∀ work identity, stage = .receipt work identity →
    identityOf work.payload = some identity
  /-- The upserts of a call are its own, and their rows are locked. -/
  mine : ∀ work, lockedWork? stage = some work → ∀ w ∈ written stage,
    w.call = c ∧ .tournament w.id ∈ work.lockKeys c
  quiet : silent stage = true → ∀ w ∈ s.log, w.call ≠ c
  order : (s.log ++ pending stage).Pairwise Earlier
  clock : ∀ w ∈ s.log ++ pending stage,
    since ≤ w.row.updatedAt ∧ w.row.updatedAt < s.tables.now

/-- Every committed command has its receipt, and its key is free. -/
def Receipted (h : Host) (s : State ι) : Prop :=
  ∀ entry ∈ s.accepted, s.tables.commandReceipts entry.1.actor entry.1.commandId =
      some ⟨entry.1.fingerprint, h.storedJson entry.2⟩ ∧
    s.holder (.command entry.1.actor entry.1.commandId) = none

/-- What holds after every disciplined step of a run that starts with these tables. -/
structure Inv (h : Host) (start : Tables) (s : State ι) : Prop where
  rows : s.tables.tournaments = putRows start.tournaments s.log
  now : start.now ≤ s.tables.now
  calls : ∀ c, CallHolds start.now s c (s.calls c)
  receipts : Receipted h s

/-! ## Times -/

/-- The time a client reads of a tournament. -/
def timeRead (h : Host) (rows : String → Option TournamentRow) (tid : String) : Option String :=
  (rows tid).map fun row => h.external.toIso row.updatedAt

/-- Times are reported as different strings. -/
structure DistinctTimes (h : Host) (start : Tables) : Prop where
  /-- `toISOString` tells times apart. -/
  reported : Function.Injective h.external.toIso
  /-- The stored rows were written before the run. -/
  stored : ∀ id row, start.tournaments id = some row → row.updatedAt < start.now

/-- Times that are reported as numbers. -/
theorem distinctTimes_plain (tables : Tables)
    (hstored : ∀ id row, tables.tournaments id = some row → row.updatedAt < tables.now) :
    DistinctTimes plainHost tables where
  reported a b hab := by
    have hdigits : Nat.toDigits 10 a = Nat.toDigits 10 b := by
      rw [← Nat.toList_repr, ← Nat.toList_repr]
      exact congrArg String.toList hab
    have hback := congrArg (fun digits => Nat.ofDigitChars 10 digits 0) hdigits
    simpa using hback
  stored := hstored

/-! ## What other calls leave -/

/-- What a step leaves to a call that does not take it. -/
structure Leaves (since : ℕ) (s s' : State ι) (c : ι) : Prop where
  holder : ∀ key, s.holder key = some c → s'.holder key = some c
  now : s.tables.now ≤ s'.tables.now
  log : ∃ ws, s'.log = s.log ++ ws ∧
    ∀ w ∈ ws, w.call ≠ c ∧ s.holder (.tournament w.id) ≠ some c
  order : s'.log.Pairwise Earlier
  clock : ∀ w ∈ s'.log, since ≤ w.row.updatedAt ∧ w.row.updatedAt < s'.tables.now

/-- What holds of a call still holds when others have gone on. -/
theorem CallHolds.transfer {since : ℕ} {s s' : State ι} {c : ι} {stage : Stage ι}
    (hs : CallHolds since s c stage) (hl : Leaves since s s' c) :
    CallHolds since s' c stage := by
  obtain ⟨ws, hlog, hforeign⟩ := hl.log
  have hpending : ∀ w ∈ pending stage, s.holder (.tournament w.id) = some c := by
    intro w hw
    cases stage with
    | writing work reply ws todo =>
      have hw' : w ∈ ws := by
        simp only [pending] at hw
        split_ifs at hw
        · exact hw
        · exact absurd hw List.not_mem_nil
      exact hs.locks work rfl _ (hs.mine work rfl w hw').2
    | _ => exact absurd hw List.not_mem_nil
  have hcross := List.pairwise_append.mp hs.order
  refine ⟨hs.kept, hs.suffix, fun work hwork key hkey => hl.holder _ (hs.locks work hwork key hkey),
    fun work hwork hd => (hs.command work hwork hd).imp fun _ hc => ⟨hc.1, hl.holder _ hc.2⟩,
    hs.identity, hs.mine, fun hsilent w hw => ?_, ?_, fun w hw => ?_⟩
  · rw [hlog] at hw
    rcases List.mem_append.mp hw with hold | hnew
    · exact hs.quiet hsilent w hold
    · exact (hforeign w hnew).1
  · refine List.pairwise_append.mpr ⟨hl.order, hcross.2.1, fun v hv w hw => ?_⟩
    rw [hlog] at hv
    rcases List.mem_append.mp hv with hold | hnew
    · exact hcross.2.2 v hold w hw
    · intro hid
      exact absurd (hid ▸ hpending w hw) (hforeign v hnew).2
  · rcases List.mem_append.mp hw with hcommitted | hopen
    · exact hl.clock w hcommitted
    · have hw' := hs.clock w (List.mem_append_right _ hopen)
      have hnow := hl.now
      omega

/-- A call goes on to a stage in which it has written nothing. -/
theorem CallHolds.enter {since : ℕ} {s s' : State ι} {c : ι} {stage stage' : Stage ι}
    (hs : CallHolds since s c stage) (hsilent : silent stage = true)
    (hpending : pending stage = []) (hlog : s'.log = s.log)
    (hnow : s'.tables.now = s.tables.now) (hwritten : written stage' = [])
    (hkept : ∀ request records, save? stage' = some (request, records) →
      KeptKeys request records ∧ ∀ entry ∈ unwritten stage', entry ∈ records)
    (hlocks : ∀ work, lockedWork? stage' = some work →
      ∀ key ∈ work.lockKeys c, s'.holder key = some c)
    (hcommand : ∀ work, openedWork? stage' = some work → work.isDurable = true →
      ∃ identity, identityOf work.payload = some identity ∧
        s'.holder (.command identity.actor identity.commandId) = some c)
    (hidentity : ∀ work identity, stage' = .receipt work identity →
      identityOf work.payload = some identity) :
    CallHolds since s' c stage' := by
  have hnone : pending stage' = [] := by
    cases stage' with
    | writing work reply ws todo =>
      have hws : ws = [] := hwritten
      simp [pending, hws]
    | _ => rfl
  have horder := hs.order
  have hclock := hs.clock
  rw [hpending, List.append_nil] at horder hclock
  refine ⟨fun request records hsave => (hkept request records hsave).1,
    fun request records hsave => (hkept request records hsave).2, hlocks, hcommand, hidentity,
    fun work hwork w hw => ?_, fun _ w hw => ?_, ?_, fun w hw => ?_⟩
  · rw [hwritten] at hw
    exact absurd hw List.not_mem_nil
  · rw [hlog] at hw
    exact hs.quiet hsilent w hw
  · rw [hnone, hlog, List.append_nil]
    exact horder
  · rw [hnone, hlog, List.append_nil] at hw
    rw [hnow]
    exact hclock w hw

/-- A call that is over only leaves its upserts in the log. -/
theorem callHolds_ended {since : ℕ} {s : State ι} {c : ι} {outcome : Except Thrown (Option Json)}
    (horder : s.log.Pairwise Earlier)
    (hclock : ∀ w ∈ s.log, since ≤ w.row.updatedAt ∧ w.row.updatedAt < s.tables.now) :
    CallHolds since s c (.ended outcome) where
  kept _ _ hsave := nomatch hsave
  suffix _ _ hsave := nomatch hsave
  locks _ hwork := nomatch hwork
  command _ hwork := nomatch hwork
  identity _ _ hstage := nomatch hstage
  mine _ hwork := nomatch hwork
  quiet hsilent := nomatch hsilent
  order := by
    rw [show pending (.ended outcome : Stage ι) = [] from rfl, List.append_nil]
    exact horder
  clock w hw := by
    rw [show pending (.ended outcome : Stage ι) = [] from rfl, List.append_nil] at hw
    exact hclock w hw

/-! ## What one call does -/

/-- What a step of a call changes, and how it leaves the call. -/
structure Moves (h : Host) (since : ℕ) (s s' : State ι) (d : ι) : Prop where
  holder : ∀ key c, c ≠ d → s.holder key = some c → s'.holder key = some c
  now : s.tables.now ≤ s'.tables.now
  log : ∃ ws, s'.log = s.log ++ ws ∧
    s'.tables.tournaments = putRows s.tables.tournaments ws ∧
    ∀ w ∈ ws, w.call = d ∧ s.holder (.tournament w.id) = some d
  own : CallHolds since s' d (s'.calls d)
  receipts : Receipted h s'

variable {h : Host}

/-- The log of a call's state is ordered. -/
theorem CallHolds.log_ordered {since : ℕ} {s : State ι} {c : ι} {stage : Stage ι}
    (hs : CallHolds since s c stage) : s.log.Pairwise Earlier ∧
      ∀ w ∈ s.log, since ≤ w.row.updatedAt ∧ w.row.updatedAt < s.tables.now :=
  ⟨(List.pairwise_append.mp hs.order).1, fun w hw => hs.clock w (List.mem_append_left _ hw)⟩

/-- A step of one call leaves the others what they rely on. -/
theorem Moves.leaves {since : ℕ} {s s' : State ι} {c d : ι} (hm : Moves h since s s' d)
    (hne : c ≠ d) : Leaves since s s' c := by
  obtain ⟨ws, hlog, -, hmine⟩ := hm.log
  refine ⟨fun key hkey => hm.holder key c hne hkey, hm.now, ⟨ws, hlog, fun w hw => ⟨?_, ?_⟩⟩,
    hm.own.log_ordered.1, hm.own.log_ordered.2⟩
  · rw [(hmine w hw).1]
    exact hne.symm
  · rw [(hmine w hw).2]
    intro heq
    exact hne (Option.some.inj heq).symm

/-- A step that commits nothing. -/
theorem moves_uncommitted {since : ℕ} {s s' : State ι} {d : ι} (hr : Receipted h s)
    (htables : s'.tables = s.tables) (hlog : s'.log = s.log) (haccepted : s'.accepted = s.accepted)
    (hholder : ∀ key c, c ≠ d → s.holder key = some c → s'.holder key = some c)
    (hfree : ∀ entry ∈ s.accepted, s'.holder (.command entry.1.actor entry.1.commandId) = none)
    (hown : CallHolds since s' d (s'.calls d)) : Moves h since s s' d := by
  refine ⟨hholder, Nat.le_of_eq (by rw [htables]),
    ⟨[], ?_, ?_, fun w hw => absurd hw List.not_mem_nil⟩, hown, fun entry hentry => ?_⟩
  · rw [hlog, List.append_nil]
  · rw [htables]
    rfl
  · rw [haccepted] at hentry
    rw [htables]
    exact ⟨(hr entry hentry).1, hfree entry hentry⟩

/-- `withTournamentLock` takes no key of a command. -/
theorem command_not_lockKey (work : Work) (c : ι) (actor commandId : String) :
    (.command actor commandId : LockKey ι) ∉ work.lockKeys c := by
  intro hin
  cases work with
  | save request roles records =>
    obtain ⟨entry, -, heq⟩ := List.mem_map.mp hin
    cases heq
  | queue request =>
    obtain ⟨i, hi, heq⟩ := List.mem_mapIdx.mp hin
    generalize (request.tournamentIds.iterate?.getD [])[i] = id at heq
    cases id <;> cases heq

section Calls

variable [DecidableEq ι] {since : ℕ} {s : State ι} {d : ι}

/-- Only the locks of the call are given back. -/
theorem release_holder {key : LockKey ι} {c : ι} (hne : c ≠ d) (hkey : s.holder key = some c) :
    (s.release d).holder key = some c := by
  have hother : s.holder key ≠ some d := by
    rw [hkey]
    intro heq
    exact hne (Option.some.inj heq)
  exact (if_neg hother).trans hkey

theorem release_free {key : LockKey ι} (hkey : s.holder key = none) :
    (s.release d).holder key = none := by
  have hother : s.holder key ≠ some d := by
    rw [hkey]
    exact fun heq => nomatch heq
  exact (if_neg hother).trans hkey

/-- Only free locks are taken. -/
theorem take_holder {keys : List (LockKey ι)} (hfree : ∀ key ∈ keys, s.holder key = none)
    {key : LockKey ι} {c : ι} (hkey : s.holder key = some c) :
    (s.take d keys).holder key = some c := by
  have hout : key ∉ keys := by
    intro hin
    have hnone := hfree key hin
    rw [hkey] at hnone
    cases hnone
  exact (if_neg hout).trans hkey

theorem take_held {keys : List (LockKey ι)} {key : LockKey ι} (hkey : key ∈ keys) :
    (s.take d keys).holder key = some d :=
  if_pos hkey

theorem take_other {keys : List (LockKey ι)} {key : LockKey ι} (hkey : key ∉ keys) :
    (s.take d keys).holder key = s.holder key :=
  if_neg hkey

/-- Work that throws, or returns without a commit, leaves everything but the locks
of the call. -/
theorem moves_return (hs : CallHolds since s d (s.calls d)) (hr : Receipted h s)
    (outcome : Except Thrown (Option Json)) :
    Moves h since s ((s.release d).setCall d (.ended outcome)) d := by
  refine moves_uncommitted hr rfl rfl rfl (fun key c hne hkey => release_holder hne hkey)
    (fun entry hentry => release_free (hr entry hentry).2) ?_
  rw [setCall_calls, Function.update_self]
  exact callHolds_ended hs.log_ordered.1 hs.log_ordered.2

/-- A commit adds the upserts of the transaction to the log. -/
theorem moves_commit {work : Work} {identity : CommandIdentity} {ws : List (Write ι)}
    {result : Option Json} (hs : CallHolds since s d (s.calls d)) (hr : Receipted h s)
    (hlocked : lockedWork? (s.calls d) = some work) (hopened : openedWork? (s.calls d) = some work)
    (hdurable : work.isDurable = true) (hidentity : identityOf work.payload = some identity)
    (hws : ws = [] ∨ ws = pending (s.calls d) ∧ ws = written (s.calls d)) :
    Moves h since s (s.commitCommand h d identity ws result) d := by
  have hheld : s.holder (.command identity.actor identity.commandId) = some d := by
    obtain ⟨identity', hidentity', hheld⟩ := hs.command work hopened hdurable
    cases hidentity.symm.trans hidentity'
    exact hheld
  have hmine : ∀ w ∈ ws, w.call = d ∧ .tournament w.id ∈ work.lockKeys d := by
    intro w hw
    rcases hws with rfl | ⟨-, rfl⟩
    · exact absurd hw List.not_mem_nil
    · exact hs.mine work hlocked w hw
  have horder : (s.log ++ ws).Pairwise Earlier ∧ ∀ w ∈ s.log ++ ws,
      since ≤ w.row.updatedAt ∧ w.row.updatedAt < s.tables.now := by
    rcases hws with rfl | ⟨heq, -⟩
    · rw [List.append_nil]
      exact hs.log_ordered
    · rw [heq]
      exact ⟨hs.order, hs.clock⟩
  refine ⟨fun key c hne hkey => release_holder hne hkey, Nat.le_refl _,
    ⟨ws, rfl, rfl, fun w hw => ⟨(hmine w hw).1, hs.locks work hlocked _ (hmine w hw).2⟩⟩, ?_,
    fun entry hentry => ?_⟩
  · rw [commitCommand_calls, Function.update_self]
    exact callHolds_ended horder.1 horder.2
  · rcases List.mem_append.mp hentry with hold | hnew
    · obtain ⟨hreceipt, hfree⟩ := hr entry hold
      refine ⟨?_, release_free hfree⟩
      have hother : ¬ (entry.1.actor = identity.actor ∧
          entry.1.commandId = identity.commandId) := by
        rintro ⟨ha, hc⟩
        rw [ha, hc, hheld] at hfree
        cases hfree
      rw [← hreceipt]
      by_cases ha : entry.1.actor = identity.actor
      · have hc : entry.1.commandId ≠ identity.commandId := fun hc => hother ⟨ha, hc⟩
        simp only [State.commitCommand, State.commit, State.release, setCall_tables, ha,
          Function.update_self]
        exact Function.update_of_ne hc _ _
      · simp only [State.commitCommand, State.commit, State.release, setCall_tables]
        rw [Function.update_of_ne ha]
    · rw [List.mem_singleton.mp hnew]
      refine ⟨?_, if_pos hheld⟩
      simp only [State.commitCommand, State.commit, State.release, setCall_tables,
        Function.update_self]

/-- However the work ends, it has moved as a call may. -/
theorem moves_conclude {work : Work} {ws : List (Write ι)} {result : Option Json}
    (hs : CallHolds since s d (s.calls d)) (hr : Receipted h s)
    (hlocked : lockedWork? (s.calls d) = some work) (hopened : openedWork? (s.calls d) = some work)
    (hws : work.isDurable = true → ws = [] ∨ ws = pending (s.calls d) ∧ ws = written (s.calls d)) :
    Moves h since s (s.conclude h d work ws result) d := by
  rcases conclude_cases (h := h) s d work ws result with
    ⟨outcome, heq, -⟩ | ⟨identity, hdurable, hidentity, -, heq⟩
  · rw [heq]
    exact moves_return hs hr outcome
  · rw [heq]
    exact moves_commit hs hr hlocked hopened hdurable hidentity (hws hdurable)

/-- An upsert is the last of its row. -/
theorem moves_put {work : Work} {reply : Reply} {ws : List (Write ι)} {key : String}
    {record : TournamentRecord} {rest : RecordMap} {w : Write ι}
    (hs : CallHolds since s d (.writing work reply ws ((key, record) :: rest)))
    (hr : Receipted h s) (hsince : since ≤ s.tables.now)
    (hw : nextWrite h s d work ws key record = .ok (.ok w))
    (hlock : .tournament w.id ∈ work.lockKeys d) :
    Moves h since s ((s.put work w).setCall d (.writing work reply (ws ++ [w]) rest)) d := by
  obtain ⟨hcall, -, htime⟩ := nextWrite_spec hw
  have hheld := hs.locks work rfl _ hlock
  have hlast : ∀ v ∈ s.log ++ pending (.writing work reply ws ((key, record) :: rest)),
      Earlier v w := by
    intro v hv _
    rw [htime]
    exact (hs.clock v hv).2
  have hkept : ∀ s' : State ι, s'.holder = s.holder →
      (silent (.writing work reply (ws ++ [w]) rest) = true → ∀ v ∈ s'.log, v.call ≠ d) →
      (s'.log ++ pending (.writing work reply (ws ++ [w]) rest)).Pairwise Earlier →
      (∀ v ∈ s'.log ++ pending (.writing work reply (ws ++ [w]) rest),
        since ≤ v.row.updatedAt ∧ v.row.updatedAt < s'.tables.now) →
      CallHolds since s' d (.writing work reply (ws ++ [w]) rest) := by
    intro s' hholder hquiet horder hclock
    refine ⟨fun request records hsave => hs.kept request records ?_,
      fun request records hsave entry hentry => hs.suffix request records ?_ entry
        (List.mem_cons_of_mem _ hentry),
      fun work' hwork key' hkey => hholder ▸ hs.locks work' hwork key' hkey,
      fun work' hwork hd => hholder ▸ hs.command work' hwork hd,
      fun work' identity hstage => (nomatch hstage), fun work' hwork v hv => ?_, hquiet, horder,
      hclock⟩
    · cases work <;> exact hsave
    · cases work <;> exact hsave
    · cases hwork
      rcases List.mem_append.mp hv with hold | hnew
      · exact hs.mine work rfl v hold
      · rw [List.mem_singleton.mp hnew]
        exact ⟨hcall, hlock⟩
  cases hd : work.isDurable with
  | true =>
    have hput : s.put work w = { s with tables := { s.tables with now := s.tables.now + 1 } } := by
      simp [State.put, hd]
    have hpend : pending (.writing work reply ws ((key, record) :: rest)) = ws := by
      simp [pending, hd]
    have hpend' : pending (.writing work reply (ws ++ [w]) rest) = ws ++ [w] := by
      simp [pending, hd]
    rw [hpend] at hlast
    have horder := hs.order
    have hclock := hs.clock
    rw [hpend] at horder hclock
    rw [hput]
    refine ⟨fun key c _ hkey => hkey, Nat.le_succ _,
      ⟨[], (List.append_nil _).symm, rfl, fun v hv => absurd hv List.not_mem_nil⟩, ?_, hr⟩
    rw [setCall_calls, Function.update_self]
    refine hkept _ rfl (fun _ => hs.quiet hd) ?_ fun v hv => ?_
    · rw [hpend', ← List.append_assoc]
      exact List.pairwise_append.mpr ⟨horder, List.pairwise_singleton _ _,
        fun v hv u hu => by rw [List.mem_singleton.mp hu]; exact hlast v hv⟩
    · rw [hpend', ← List.append_assoc] at hv
      change since ≤ v.row.updatedAt ∧ v.row.updatedAt < s.tables.now + 1
      rcases List.mem_append.mp hv with hold | hnew
      · have hold' := hclock v hold
        omega
      · rw [List.mem_singleton.mp hnew, htime]
        omega
  | false =>
    have hput : s.put work w =
        { s with tables := { s.tables with now := s.tables.now + 1 } }.commit [w] := by
      simp [State.put, hd]
    have hpend : ∀ vs todo, pending (.writing work reply vs todo : Stage ι) = [] := by
      intro vs todo
      simp [pending, hd]
    rw [hpend, List.append_nil] at hlast
    obtain ⟨horder, hclock⟩ := hs.log_ordered
    rw [hput]
    refine ⟨fun key c _ hkey => hkey, Nat.le_succ _, ⟨[w], rfl, rfl, fun v hv => ?_⟩, ?_, hr⟩
    · rw [List.mem_singleton.mp hv]
      exact ⟨hcall, hheld⟩
    · rw [setCall_calls, Function.update_self]
      refine hkept _ rfl (fun hsilent => ?_) ?_ fun v hv => ?_
      · exact absurd (hsilent.symm.trans hd) (by simp)
      · rw [hpend, List.append_nil]
        exact List.pairwise_append.mpr ⟨horder, List.pairwise_singleton _ _,
          fun v hv u hu => by rw [List.mem_singleton.mp hu]; exact hlast v hv⟩
      · rw [hpend, List.append_nil] at hv
        change since ≤ v.row.updatedAt ∧ v.row.updatedAt < s.tables.now + 1
        rcases List.mem_append.mp hv with hold | hnew
        · have hold' := hclock v hold
          omega
        · rw [List.mem_singleton.mp hnew, htime]
          omega

/-- A call goes on, and may have taken locks. -/
theorem moves_enter {s₁ : State ι} {stage' : Stage ι} (hs : CallHolds since s d (s.calls d))
    (hr : Receipted h s) (htables : s₁.tables = s.tables) (hlog : s₁.log = s.log)
    (haccepted : s₁.accepted = s.accepted)
    (hholder : ∀ key c, s.holder key = some c → s₁.holder key = some c)
    (hfree : ∀ entry ∈ s.accepted, s₁.holder (.command entry.1.actor entry.1.commandId) = none)
    (hsilent : silent (s.calls d) = true) (hpending : pending (s.calls d) = [])
    (hwritten : written stage' = [])
    (hkept : ∀ request records, save? stage' = some (request, records) →
      KeptKeys request records ∧ ∀ entry ∈ unwritten stage', entry ∈ records)
    (hlocks : ∀ work, lockedWork? stage' = some work →
      ∀ key ∈ work.lockKeys d, s₁.holder key = some d)
    (hcommand : ∀ work, openedWork? stage' = some work → work.isDurable = true →
      ∃ identity, identityOf work.payload = some identity ∧
        s₁.holder (.command identity.actor identity.commandId) = some d)
    (hidentity : ∀ work identity, stage' = .receipt work identity →
      identityOf work.payload = some identity) :
    Moves h since s (s₁.setCall d stage') d := by
  refine moves_uncommitted hr htables hlog haccepted (fun key c _ hkey => hholder key c hkey)
    hfree ?_
  rw [setCall_calls, Function.update_self]
  exact hs.enter hsilent hpending hlog (by rw [setCall_tables, htables]) hwritten hkept hlocks
    hcommand hidentity

/-- A call that holds no locks goes on without them. -/
theorem moves_unlocked {stage' : Stage ι} (hs : CallHolds since s d (s.calls d))
    (hr : Receipted h s) (hsilent : silent (s.calls d) = true) (hpending : pending (s.calls d) = [])
    (hunlocked : lockedWork? stage' = none)
    (hkept : ∀ request records, save? stage' = some (request, records) →
      KeptKeys request records) : Moves h since s (s.setCall d stage') d := by
  have hstage : written stage' = [] ∧ unwritten stage' = [] ∧ openedWork? stage' = none ∧
      ∀ work identity, stage' ≠ .receipt work identity := by
    cases stage' with
    | receipt work identity => cases hunlocked
    | writing work reply ws todo => cases hunlocked
    | _ => exact ⟨rfl, rfl, by first | rfl | exact hunlocked, fun _ _ heq => nomatch heq⟩
  obtain ⟨hwritten, hunwritten, hopened, hreceipt⟩ := hstage
  refine moves_enter hs hr rfl rfl rfl (fun _ _ hkey => hkey) (fun entry he => (hr entry he).2)
    hsilent hpending hwritten (fun request records hsave => ⟨hkept request records hsave, ?_⟩)
    (fun work hwork => ?_) (fun work hwork => ?_)
    (fun work identity heq => absurd heq (hreceipt work identity))
  · rw [hunwritten]
    exact fun entry he => absurd he List.not_mem_nil
  · rw [hunlocked] at hwork
    cases hwork
  · rw [hopened] at hwork
    cases hwork

/-- A call goes on with its work, under the locks it holds. -/
theorem moves_locked {work : Work} {stage' : Stage ι} (hs : CallHolds since s d (s.calls d))
    (hr : Receipted h s) (hsilent : silent (s.calls d) = true) (hpending : pending (s.calls d) = [])
    (hlocked : lockedWork? (s.calls d) = some work) (hopened : openedWork? (s.calls d) = some work)
    (hlocked' : lockedWork? stage' = some work) (hopened' : openedWork? stage' = some work)
    (hwritten : written stage' = [])
    (hkept : ∀ request records, save? stage' = some (request, records) →
      save? (s.calls d) = some (request, records) ∧ ∀ entry ∈ unwritten stage', entry ∈ records) :
    Moves h since s (s.setCall d stage') d := by
  refine moves_enter hs hr rfl rfl rfl (fun _ _ hkey => hkey) (fun entry he => (hr entry he).2)
    hsilent hpending hwritten (fun request records hsave => ?_) (fun work' hwork => ?_)
    (fun work' hwork => ?_) (fun work' identity hreceipt => ?_)
  · obtain ⟨hsaved, hsuffix⟩ := hkept request records hsave
    exact ⟨hs.kept request records hsaved, hsuffix⟩
  · cases hlocked'.symm.trans hwork
    exact hs.locks work hlocked
  · cases hopened'.symm.trans hwork
    exact hs.command work hopened
  · rw [hreceipt] at hopened'
    cases hopened'

omit [DecidableEq ι] in
/-- The stages of opened work. -/
theorem opened_stage (work : Work) : lockedWork? (opened work : Stage ι) = some work ∧
    openedWork? (opened work : Stage ι) = some work ∧ written (opened work : Stage ι) = [] ∧
    unwritten (opened work : Stage ι) = [] ∧
    (∀ work' identity, (opened work : Stage ι) ≠ .receipt work' identity) ∧
    save? (opened work : Stage ι) = save? (.locking work : Stage ι) := by
  cases work with
  | queue request => exact ⟨rfl, rfl, rfl, rfl, (fun _ _ heq => nomatch heq), rfl⟩
  | save request roles records =>
    cases hf : expectedFields (request.params.field? "expectedServerUpdatedAt") <;>
      simp only [opened, hf] <;>
      exact ⟨rfl, rfl, rfl, rfl, (fun _ _ heq => nomatch heq), rfl⟩

/-- The work opens under its locks. -/
theorem moves_open {work : Work} {keys : List (LockKey ι)} (hs : CallHolds since s d (s.calls d))
    (hr : Receipted h s) (hfree : ∀ key ∈ keys, s.holder key = none)
    (haccepted : ∀ entry ∈ s.accepted, .command entry.1.actor entry.1.commandId ∉ keys)
    (hsilent : silent (s.calls d) = true) (hpending : pending (s.calls d) = [])
    (hsave : save? (.locking work : Stage ι) = save? (s.calls d))
    (hlocks : ∀ key ∈ work.lockKeys d, (s.take d keys).holder key = some d)
    (hcommand : work.isDurable = true → ∃ identity, identityOf work.payload = some identity ∧
      (s.take d keys).holder (.command identity.actor identity.commandId) = some d) :
    Moves h since s ((s.take d keys).setCall d (opened work)) d := by
  obtain ⟨hlocked, hopened, hwritten, hunwritten, hreceipt, hkept⟩ := opened_stage (ι := ι) work
  refine moves_enter hs hr rfl rfl rfl (fun key c hkey => take_holder hfree hkey)
    (fun entry he => (take_other (haccepted entry he)).trans (hr entry he).2) hsilent hpending
    hwritten (fun request records heq => ⟨hs.kept request records ?_, ?_⟩) (fun work' hwork => ?_)
    (fun work' hwork => ?_) (fun work' identity heq => absurd heq (hreceipt work' identity))
  · rw [← hsave, ← hkept]
    exact heq
  · rw [hunwritten]
    exact fun entry he => absurd he List.not_mem_nil
  · cases hlocked.symm.trans hwork
    exact hlocks
  · cases hopened.symm.trans hwork
    exact hcommand

omit [DecidableEq ι] in
/-- Nothing has happened. -/
theorem moves_refl (hs : CallHolds since s d (s.calls d)) (hr : Receipted h s) :
    Moves h since s s d :=
  moves_uncommitted hr rfl rfl rfl (fun _ _ _ hkey => hkey) (fun entry he => (hr entry he).2) hs

/-- A new creator leaves the records of a save under their keys. -/
theorem kept_gateRecord {request : SaveRequest} {ctx : UserContext}
    {roles : List (String × String)} {gated todo : RecordMap}
    {entry : String × TournamentRecord} {record : TournamentRecord} {view : Option UpdatedAtView}
    (hk : KeptKeys request (gated ++ entry :: todo))
    (hgate : gateRecord h ctx roles entry.1 entry.2 view = some record) :
    KeptKeys request ((gated ++ [(entry.1, record)]) ++ todo) := by
  have hid : record.tournamentId = entry.2.tournamentId := by
    cases view with
    | none =>
      cases hgate
      rfl
    | some view =>
      simp only [gateRecord] at hgate
      split_ifs at hgate
      cases hgate
      rfl
  refine ⟨?_, fun e he => ?_⟩
  · rw [← hk.keys]
    simp
  · simp only [List.mem_append, List.mem_singleton] at he
    rcases he with (hin | rfl) | hin
    · exact hk.named e (List.mem_append_left _ hin)
    · exact hid.trans (hk.named entry (List.mem_append_right _ List.mem_cons_self))
    · exact hk.named e (List.mem_append_right _ (List.mem_cons_of_mem _ hin))

/-- So does a policy. -/
theorem kept_attach {request : SaveRequest} {attached todo : RecordMap}
    {entry : String × TournamentRecord} (t : Tables)
    (hk : KeptKeys request (attached ++ entry :: todo)) :
    KeptKeys request
      ((attached ++ [(entry.1, attachProviderPrivacyOnCreate h t entry.2)]) ++ todo) := by
  refine ⟨?_, fun e he => ?_⟩
  · rw [← hk.keys]
    simp
  · simp only [List.mem_append, List.mem_singleton] at he
    rcases he with (hin | rfl) | hin
    · exact hk.named e (List.mem_append_left _ hin)
    · exact (attach_keeps t entry.2).1.trans
        (hk.named entry (List.mem_append_right _ List.mem_cons_self))
    · exact hk.named e (List.mem_append_right _ (List.mem_cons_of_mem _ hin))

/-- The row of an upsert is locked. -/
theorem locked_nextWrite {a : WriteAction ι} (hd : Disciplined h s a)
    (ha : a = .advance d ∨ a = .lose d) {work : Work} {reply : Reply} {ws : List (Write ι)}
    {key : String} {record : TournamentRecord} {rest : RecordMap} {w : Write ι}
    (hstage : s.calls d = .writing work reply ws ((key, record) :: rest))
    (hs : CallHolds since s d (.writing work reply ws ((key, record) :: rest)))
    (hw : nextWrite h s d work ws key record = .ok (.ok w)) :
    .tournament w.id ∈ work.lockKeys d := by
  cases work with
  | queue request => exact hd.locked d request reply ws key record rest w ha hstage hw
  | save request roles records =>
    have hentry : (key, record) ∈ records := hs.suffix request records rfl _ List.mem_cons_self
    have hnamed : Named (key, record) := (hs.kept request records rfl).named _ hentry
    obtain ⟨-, hwrite⟩ := nextWrite_named hnamed hw
    rw [hwrite]
    exact List.mem_map.mpr ⟨(key, record), hentry, rfl⟩

/-- A call whose await is answered has moved as a call may. -/
theorem moves_advance {a : WriteAction ι} (hd : Disciplined h s a)
    (ha : a = .advance d ∨ a = .lose d) (hsince : since ≤ s.tables.now)
    (hs : CallHolds since s d (s.calls d)) (hr : Receipted h s) :
    Moves h since s (advance h s d) d := by
  cases hstage : s.calls d with
  | idle =>
    simp only [advance, hstage]
    exact moves_refl hs hr
  | ended outcome =>
    simp only [advance, hstage]
    exact moves_refl hs hr
  | gating request ctx roles gated todo =>
    have hk := hs.kept request (gated ++ todo) (by rw [hstage]; rfl)
    cases todo with
    | nil =>
      simp only [advance, hstage]
      refine moves_unlocked hs hr (by rw [hstage]; rfl) (by rw [hstage]; rfl) rfl
        fun request' records hsave => ?_
      cases hsave
      simpa using hk
    | cons entry todo =>
      simp only [advance, hstage]
      cases hgate : gateRecord h ctx roles entry.1 entry.2 (viewOf s.tables entry.1) with
      | none =>
        exact moves_unlocked hs hr (by rw [hstage]; rfl) (by rw [hstage]; rfl) rfl
          fun _ _ hsave => nomatch hsave
      | some record =>
        refine moves_unlocked hs hr (by rw [hstage]; rfl) (by rw [hstage]; rfl) rfl
          fun request' records hsave => ?_
        cases hsave
        exact kept_gateRecord hk hgate
  | attaching request roles attached todo =>
    have hk := hs.kept request (attached ++ todo) (by rw [hstage]; rfl)
    cases todo with
    | nil =>
      simp only [advance, hstage]
      rw [List.append_nil] at hk
      split_ifs
      · refine moves_unlocked hs hr (by rw [hstage]; rfl) (by rw [hstage]; rfl) rfl
          fun request' records hsave => ?_
        cases hsave
        exact hk
      · exact moves_unlocked hs hr (by rw [hstage]; rfl) (by rw [hstage]; rfl) rfl
          fun _ _ hsave => nomatch hsave
    | cons entry todo =>
      simp only [advance, hstage]
      refine moves_unlocked hs hr (by rw [hstage]; rfl) (by rw [hstage]; rfl) rfl
        fun request' records hsave => ?_
      cases hsave
      exact kept_attach s.tables hk
  | locking work =>
    have hno : ∀ entry ∈ s.accepted,
        (.command entry.1.actor entry.1.commandId : LockKey ι) ∉ work.lockKeys d :=
      fun entry _ => command_not_lockKey work d _ _
    simp only [advance, hstage]
    rcases acquire_cases (h := h) s d work with heq | ⟨havail, hcases⟩
    · rw [heq]
      exact moves_refl hs hr
    · rcases hcases with ⟨error, heq⟩ | ⟨hplain, heq⟩ | ⟨identity, hidentity, heq⟩
      · rw [heq]
        refine moves_uncommitted hr rfl rfl rfl
          (fun key c hne hkey => release_holder hne (take_holder havail.2 hkey))
          (fun entry he => release_free ((take_other (hno entry he)).trans (hr entry he).2)) ?_
        rw [abort_calls, Function.update_self]
        exact callHolds_ended hs.log_ordered.1 hs.log_ordered.2
      · rw [heq]
        exact moves_open hs hr havail.2 hno (by rw [hstage]; rfl) (by rw [hstage]; rfl)
          (by rw [hstage]) (fun key hkey => take_held hkey)
          fun hdurable => absurd (hplain.symm.trans hdurable) (by simp)
      · rw [heq]
        refine moves_enter hs hr rfl rfl rfl (fun key c hkey => take_holder havail.2 hkey)
          (fun entry he => (take_other (hno entry he)).trans (hr entry he).2) (by rw [hstage]; rfl)
          (by rw [hstage]; rfl) rfl (fun request records hsave => ⟨?_, ?_⟩) (fun work' hwork => ?_)
          (fun _ hwork => nomatch hwork) (fun work' identity' heq' => ?_)
        · refine hs.kept request records ?_
          rw [hstage]
          cases work <;> exact hsave
        · exact fun entry he => absurd he List.not_mem_nil
        · cases hwork
          exact fun key hkey => take_held hkey
        · cases heq'
          exact hidentity
  | receipt work identity =>
    have hidentity := hs.identity work identity hstage
    have hlocks := hs.locks work (by rw [hstage]; rfl)
    simp only [advance, hstage]
    rcases readReceipt_cases s d work identity with
      heq | ⟨hfree, hnone, heq⟩ | ⟨error, heq⟩ | ⟨receipt, -, heq⟩
    · rw [heq]
      exact moves_refl hs hr
    · rw [heq]
      have hkeys : ∀ key ∈ [(.command identity.actor identity.commandId : LockKey ι)],
          s.holder key = none := by
        intro key hkey
        rw [List.mem_singleton.mp hkey]
        exact hfree
      refine moves_open hs hr hkeys (fun entry he hin => ?_) (by rw [hstage]; rfl)
        (by rw [hstage]; rfl) ?_ (fun key hkey => take_holder hkeys (hlocks key hkey))
        fun _ => ⟨identity, hidentity, take_held (List.mem_singleton_self _)⟩
      · have hsame := List.mem_singleton.mp hin
        injection hsame with hactor hcommand
        have hreceipt := (hr entry he).1
        rw [hactor, hcommand, hnone] at hreceipt
        cases hreceipt
      · rw [hstage]
        cases work <;> rfl
    · rw [heq]
      exact moves_return hs hr _
    · rw [heq]
      exact moves_return hs hr _
  | checking request roles records todo =>
    simp only [advance, hstage]
    rcases checkKey_cases (h := h) s d request roles records todo with
      ⟨-, heq⟩ | ⟨_, _, -, ⟨heq, -⟩ | ⟨_, _, heq⟩⟩ <;> rw [heq]
    · refine moves_locked hs hr (by rw [hstage]; rfl) (by rw [hstage]; rfl) (by rw [hstage]; rfl)
        (by rw [hstage]; rfl) rfl rfl rfl fun request' records' hsave => ?_
      cases hsave
      exact ⟨by rw [hstage]; rfl, fun entry he => he⟩
    · refine moves_locked hs hr (by rw [hstage]; rfl) (by rw [hstage]; rfl) (by rw [hstage]; rfl)
        (by rw [hstage]; rfl) rfl rfl rfl fun request' records' hsave => ?_
      cases hsave
      exact ⟨by rw [hstage]; rfl, fun entry he => absurd he List.not_mem_nil⟩
    · exact moves_conclude hs hr (by rw [hstage]; rfl) (by rw [hstage]; rfl) fun _ => Or.inl rfl
  | resolving request =>
    simp only [advance, hstage]
    cases indexedMethods h.external s.tables request.tournamentIds request.methods with
    | none => exact moves_return hs hr _
    | some methods =>
      exact moves_locked hs hr (by rw [hstage]; rfl) (by rw [hstage]; rfl) (by rw [hstage]; rfl)
        (by rw [hstage]; rfl) rfl rfl rfl fun _ _ hsave => nomatch hsave
  | fetching request methods =>
    simp only [advance, hstage]
    rcases fetchAndRun_cases (h := h) s d request methods with
      ⟨_, heq⟩ | ⟨_, heq⟩ | ⟨_, _, _, -, -, -, heq⟩ <;> rw [heq]
    · exact moves_return hs hr _
    · exact moves_conclude hs hr (by rw [hstage]; rfl) (by rw [hstage]; rfl) fun _ => Or.inl rfl
    · exact moves_locked hs hr (by rw [hstage]; rfl) (by rw [hstage]; rfl) (by rw [hstage]; rfl)
        (by rw [hstage]; rfl) rfl rfl rfl fun _ _ hsave => nomatch hsave
  | writing work reply ws todo =>
    simp only [advance, hstage]
    rcases saveNext_cases (h := h) s d work reply ws todo with
      ⟨-, heq⟩ | ⟨key, record, rest, htodo, ⟨_, heq⟩ | ⟨_, heq⟩ | ⟨w, hw, heq⟩⟩ <;> rw [heq]
    · refine moves_conclude hs hr (by rw [hstage]; rfl) (by rw [hstage]; rfl) fun hdurable =>
        Or.inr ⟨?_, by rw [hstage]; rfl⟩
      rw [hstage]
      simp [pending, hdurable]
    · exact moves_return hs hr _
    · exact moves_conclude hs hr (by rw [hstage]; rfl) (by rw [hstage]; rfl) fun _ => Or.inl rfl
    · rw [htodo] at hstage
      rw [hstage] at hs
      exact moves_put hs hr hsince hw (locked_nextWrite hd ha hstage hs hw)

/-- A call whose await is rejected has moved as a call may. -/
theorem moves_reject (hs : CallHolds since s d (s.calls d)) (hr : Receipted h s) :
    Moves h since s (reject s d) d := by
  cases hstage : s.calls d with
  | idle =>
    simp only [reject, hstage]
    exact moves_refl hs hr
  | ended outcome =>
    simp only [reject, hstage]
    exact moves_refl hs hr
  | attaching request roles attached todo =>
    simp only [reject, hstage]
    cases todo with
    | nil => exact moves_return hs hr _
    | cons entry todo =>
      refine moves_unlocked hs hr (by rw [hstage]; rfl) (by rw [hstage]; rfl) rfl
        fun request' records hsave => hs.kept request' records ?_
      rw [hstage, ← hsave]
      simp [save?]
  | _ =>
    simp only [reject, hstage]
    exact moves_return hs hr _

/-- A call that loses an executed await has moved as a call may. -/
theorem moves_lost {s' : State ι} (hm : Moves h since s s' d) (error : Thrown) :
    Moves h since s (s'.abort d error) d := by
  have hreturned := moves_return (h := h) hm.own hm.receipts (.error error)
  exact ⟨fun key c hne hkey => hreturned.holder key c hne (hm.holder key c hne hkey), hm.now,
    hm.log, hreturned.own, hreturned.receipts⟩

/-- A step of a call moves it as a call may. -/
theorem moves_step {a : WriteAction ι} (hd : Disciplined h s a) (hcall : a.call? = some d)
    (hsince : since ≤ s.tables.now) (hs : CallHolds since s d (s.calls d)) (hr : Receipted h s) :
    Moves h since s (step h s a) d := by
  cases a with
  | save c request =>
    obtain rfl : c = d := Option.some.inj hcall
    cases hstage : s.calls c with
    | idle =>
      simp only [step, hstage]
      have hk : KeptKeys request request.records := ⟨rfl, hd.named c request rfl⟩
      have hunlocked : lockedWork? (arriveSave s request) = none ∧
          ∀ request' records, save? (arriveSave s request) = some (request', records) →
            KeptKeys request' records := by
        unfold arriveSave
        split_ifs
        · exact ⟨rfl, fun _ _ hsave => by cases hsave⟩
        · exact ⟨rfl, fun _ _ hsave => by cases hsave⟩
        · cases request.userContext with
          | none => exact ⟨rfl, fun _ _ hsave => by cases hsave; exact hk⟩
          | some ctx => exact ⟨rfl, fun _ _ hsave => by cases hsave; exact hk⟩
      exact moves_unlocked hs hr (by rw [hstage]; rfl) (by rw [hstage]; rfl) hunlocked.1
        hunlocked.2
    | _ =>
      simp only [step, hstage]
      exact moves_refl hs hr
  | queue c payload =>
    obtain rfl : c = d := Option.some.inj hcall
    cases hstage : s.calls c with
    | idle =>
      simp only [step, hstage]
      have hunlocked : lockedWork? (arriveQueue h payload : Stage ι) = none ∧
          ∀ request' records, save? (arriveQueue h payload : Stage ι) = some (request', records) →
            KeptKeys request' records := by
        unfold arriveQueue
        split <;> exact ⟨rfl, fun _ _ hsave => by cases hsave⟩
      exact moves_unlocked hs hr (by rw [hstage]; rfl) (by rw [hstage]; rfl) hunlocked.1
        hunlocked.2
    | _ =>
      simp only [step, hstage]
      exact moves_refl hs hr
  | advance c =>
    obtain rfl : c = d := Option.some.inj hcall
    exact moves_advance hd (Or.inl rfl) hsince hs hr
  | reject c =>
    obtain rfl : c = d := Option.some.inj hcall
    exact moves_reject hs hr
  | lose c =>
    obtain rfl : c = d := Option.some.inj hcall
    have hlost := moves_lost (moves_advance hd (Or.inr rfl) hsince hs hr)
      (.error "database error")
    cases hstage : s.calls c with
    | idle =>
      simp only [step, hstage]
      exact moves_refl hs hr
    | ended outcome =>
      simp only [step, hstage]
      exact moves_refl hs hr
    | attaching request roles attached todo =>
      cases todo with
      | nil => simpa only [step, hstage] using hlost
      | cons entry todo => simpa only [step, hstage] using moves_reject hs hr
    | _ => simpa only [step, hstage] using hlost
  | outside tables roles => cases hcall

/-! ## Whole runs -/

/-- One disciplined step keeps the invariant. -/
theorem inv_step {start : Tables} (s : State ι) (a : WriteAction ι) (hd : Disciplined h s a)
    (hi : Inv h start s) : Inv h start (step h s a) := by
  cases hcall : a.call? with
  | none =>
    cases a with
    | outside tables roles =>
      obtain ⟨hrows, hreceipts, hnow⟩ := hd.outside tables roles rfl
      refine ⟨hrows.trans hi.rows, Nat.le_trans hi.now hnow, fun c => ?_, fun entry he => ?_⟩
      · refine (hi.calls c).transfer ⟨fun _ hkey => hkey, hnow,
          ⟨[], (List.append_nil _).symm, fun w hw => absurd hw List.not_mem_nil⟩,
          (hi.calls c).log_ordered.1, fun w hw => ?_⟩
        obtain ⟨hsince, hbefore⟩ := (hi.calls c).log_ordered.2 w hw
        exact ⟨hsince, Nat.lt_of_lt_of_le hbefore hnow⟩
      · obtain ⟨hreceipt, hfree⟩ := hi.receipts entry he
        refine ⟨?_, hfree⟩
        simp only [step]
        rw [hreceipts]
        exact hreceipt
    | _ => cases hcall
  | some d =>
    have hm := moves_step hd hcall hi.now (hi.calls d) hi.receipts
    obtain ⟨ws, hlog, hrows, -⟩ := hm.log
    refine ⟨?_, Nat.le_trans hi.now hm.now, fun c => ?_, hm.receipts⟩
    · rw [hrows, hlog, hi.rows]
      exact (List.foldl_append).symm
    · by_cases hc : c = d
      · rw [hc]
        exact hm.own
      · rw [step_calls_other fun heq => hc (Option.some.inj (hcall.symm.trans heq)).symm]
        exact (hi.calls c).transfer (hm.leaves hc)

omit [DecidableEq ι] in
/-- Nothing is asked of a call that has not come. -/
theorem callHolds_start (tables : Tables) (roles : String → List (String × String)) (c : ι) :
    CallHolds tables.now (State.start tables roles) c .idle where
  kept _ _ hsave := nomatch hsave
  suffix _ _ hsave := nomatch hsave
  locks _ hwork := nomatch hwork
  command _ hwork := nomatch hwork
  identity _ _ hstage := nomatch hstage
  mine _ hwork := nomatch hwork
  quiet _ _ hw := absurd hw List.not_mem_nil
  order := List.Pairwise.nil
  clock _ hw := absurd hw List.not_mem_nil

omit [DecidableEq ι] in
/-- The invariant holds before the first call. -/
theorem inv_start (tables : Tables) (roles : String → List (String × String)) :
    Inv h tables (State.start tables roles : State ι) where
  rows := rfl
  now := Nat.le_refl _
  calls c := callHolds_start tables roles c
  receipts _ he := absurd he List.not_mem_nil

end Calls

end FactoryServer.LockDiscipline
