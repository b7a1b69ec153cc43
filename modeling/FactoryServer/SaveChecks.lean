import Mathlib.Data.List.Induction
import FactoryServer.LockDiscipline
import FactoryServer.RequestIdentity

/-!
# What a wholesale save has checked of the row it writes

The gate, the locks and the comparison of a wholesale save all go by the keys of
its record map; three layers down the row is written under the id inside the
record. This module follows a save through a whole run and says when the row it
writes is one it has locked, decided on and compared.
-/

namespace FactoryServer.SaveChecks

open JsonValue TournamentAccess RequestIdentity CommandTransaction CommandReceipts StorageTables
  TournamentStorage ExecutionQueue MutationGate CallbackOutcomes DurableSave GuardedRuns ConcurrentWrites
  LockDiscipline

variable {ι : Type} (h : Host)

/-! ## What a step does -/

/-- `expectedServerUpdatedAt[tid]`, when the client gave one. -/
def expectedFor (request : SaveRequest) (tid : String) : Option Json :=
  ((expectedFields (request.params.field? "expectedServerUpdatedAt")).getD []).lookup tid

/-- The gate of a save looks up tournament `tid`: it finds none, or accepts the caller
by the stored provider and creator. -/
def Decides (c : ι) (request : SaveRequest) (tid : String) (s : State ι) (a : WriteAction ι) :
    Prop :=
  a = .advance c ∧ ∃ ctx roles gated record todo, request.userContext = some ctx ∧
    s.calls c = .gating request ctx roles gated ((tid, record) :: todo) ∧
    ∀ view, viewOf s.tables tid = some view →
      canMutateTournament h.scoping { viewRecord view with tournamentId := some (.str tid) }
        (some ctx) roles [] = true

/-- The save compares the stored row of `tid` with what the client expects, under the
lock of `tid`. -/
def Compares (c : ι) (request : SaveRequest) (tid : String) (expected : Json) (s : State ι)
    (a : WriteAction ι) : Prop :=
  a = .advance c ∧ s.holder (.tournament tid) = some c ∧ ∃ roles records todo,
    s.calls c = .checking request roles records (tid :: todo) ∧
    sameTime ((viewOf s.tables tid).map fun view => h.external.toIso view.serverUpdatedAt)
      expected = true

/-- The save writes the row `x`. -/
def WritesRow (c : ι) (request : SaveRequest) (x : String) (s : State ι) (a : WriteAction ι) :
    Prop :=
  (a = .advance c ∨ a = .lose c) ∧ ∃ roles records reply written key record todo w,
    s.calls c = .writing (.save request roles records) reply written ((key, record) :: todo) ∧
    nextWrite h s c (.save request roles records) written key record = .ok (.ok w) ∧ w.id = x

variable [DecidableEq ι]

/-- Of row `x`, that the save is about to write after these actions: its lock is held,
the gate has decided on it, and the time the client gave for it was compared. -/
def RowChecked (s : State ι) (actions : List (WriteAction ι)) (c : ι) (request : SaveRequest)
    (x : String) : Prop :=
  (run (step h) s actions).holder (.tournament x) = some c ∧
    Happened (step h) (Decides h c request x) s actions ∧
    ∀ expected, expectedFor request x = some expected →
      Happened (step h) (Compares h c request x expected) s actions

/-! ## What is kept -/

/-- The checks of the past: what gates have decided on, and what was compared. -/
structure Past (ι : Type) where
  /-- The gate of a save has decided on a tournament. -/
  decided : ι → SaveRequest → String → Prop
  /-- A save has compared the row of a tournament. -/
  compared : ι → SaveRequest → String → Json → Prop

/-- The records have the keys of the request, and its gate has decided on each. -/
def Gated (past : Past ι) (c : ι) (request : SaveRequest) (records : RecordMap) : Prop :=
  records.map Prod.fst = request.records.map Prod.fst ∧
    (request.userContext.isSome = true → ∀ entry ∈ records, past.decided c request entry.1)

/-- The call holds the lock of each key. -/
def HoldsLocks (holder : LockKey ι → Option ι) (c : ι) (records : RecordMap) : Prop :=
  ∀ entry ∈ records, holder (.tournament entry.1) = some c

/-- What the client expects of a key was compared. -/
def ComparedKey (past : Past ι) (c : ι) (request : SaveRequest) (tid : String) : Prop :=
  ∀ expected, expectedFor request tid = some expected → past.compared c request tid expected

/-- What a save has behind it in each of its stages. -/
def StageChecked (past : Past ι) (holder : LockKey ι → Option ι) (c : ι) : Stage ι → Prop
  | .gating request ctx _ gated todo => request.userContext = some ctx ∧
      (gated ++ todo).map Prod.fst = request.records.map Prod.fst ∧
      ∀ entry ∈ gated, past.decided c request entry.1
  | .attaching request _ attached todo => Gated past c request (attached ++ todo)
  | .locking (.save request _ records) => Gated past c request records
  | .receipt (.save request _ records) _ => Gated past c request records ∧ HoldsLocks holder c records
  | .checking request _ records todo => Gated past c request records ∧ HoldsLocks holder c records ∧
      ∀ entry ∈ records, entry.1 ∈ todo ∨ ComparedKey past c request entry.1
  | .writing (.save request _ records) _ _ _ => Gated past c request records ∧
      HoldsLocks holder c records ∧ ∀ entry ∈ records, ComparedKey past c request entry.1
  | _ => True

/-- The past grows with what a step checks. -/
structure Grows (s : State ι) (a : WriteAction ι) (past past' : Past ι) : Prop where
  /-- Decisions stay. -/
  decided : ∀ c request tid, past.decided c request tid → past'.decided c request tid
  /-- A decision of this step is noted. -/
  decides : ∀ c request tid, Decides h c request tid s a → past'.decided c request tid
  /-- Comparisons stay. -/
  compared : ∀ c request tid expected,
    past.compared c request tid expected → past'.compared c request tid expected
  /-- A comparison of this step is noted. -/
  compares : ∀ c request tid expected,
    Compares h c request tid expected s a → past'.compared c request tid expected

variable {h} {past past' : Past ι} {s : State ι} {c d : ι}

omit [DecidableEq ι] in
theorem Gated.mono {a : WriteAction ι} (hg : Grows h s a past past') {request : SaveRequest}
    {records : RecordMap} (hs : Gated past c request records) : Gated past' c request records :=
  ⟨hs.1, fun hctx entry he => hg.decided _ _ _ (hs.2 hctx entry he)⟩

omit [DecidableEq ι] in
theorem ComparedKey.mono {a : WriteAction ι} (hg : Grows h s a past past') {request : SaveRequest}
    {tid : String} (hs : ComparedKey past c request tid) : ComparedKey past' c request tid :=
  fun expected he => hg.compared _ _ _ _ (hs expected he)

omit [DecidableEq ι] in
/-- What a call has behind it stays, as long as nobody takes its locks. -/
theorem StageChecked.mono {a : WriteAction ι} (hg : Grows h s a past past')
    {holder holder' : LockKey ι → Option ι} {stage : Stage ι}
    (hs : StageChecked past holder c stage)
    (hheld : ∀ key, holder key = some c → holder' key = some c) :
    StageChecked past' holder' c stage := by
  have hlocks : ∀ records, HoldsLocks holder c records → HoldsLocks holder' c records :=
    fun records hl entry he => hheld _ (hl entry he)
  cases stage with
  | gating request ctx roles gated todo =>
    exact ⟨hs.1, hs.2.1, fun entry he => hg.decided _ _ _ (hs.2.2 entry he)⟩
  | attaching request roles attached todo => exact Gated.mono hg hs
  | locking work =>
    cases work with
    | save request roles records => exact Gated.mono hg hs
    | queue request => trivial
  | receipt work identity =>
    cases work with
    | save request roles records => exact ⟨hs.1.mono hg, hlocks _ hs.2⟩
    | queue request => trivial
  | checking request roles records todo =>
    exact ⟨hs.1.mono hg, hlocks _ hs.2.1, fun entry he =>
      (hs.2.2 entry he).imp id fun hcompared => hcompared.mono hg⟩
  | writing work reply written todo =>
    cases work with
    | save request roles records =>
      exact ⟨hs.1.mono hg, hlocks _ hs.2.1, fun entry he => (hs.2.2 entry he).mono hg⟩
    | queue request => trivial
  | _ => trivial

/-! ## The locks of the others -/

/-- Locked work that is over gives back no lock of another call. -/
theorem conclude_holder_other {key : LockKey ι} (hne : d ≠ c) (hkey : s.holder key = some d)
    (work : Work) (written : List (Write ι)) (result : Option Json) :
    (s.conclude h c work written result).holder key = some d := by
  rcases conclude_cases (h := h) s c work written result with
    ⟨outcome, heq, -⟩ | ⟨identity, -, -, -, heq⟩ <;> rw [heq]
  · exact release_holder hne hkey
  · exact release_holder (s := s.commit written) hne hkey

/-- A call that goes on takes and gives back no lock of another. -/
theorem advance_holder_other {key : LockKey ι} (hne : d ≠ c) (hkey : s.holder key = some d) :
    (advance h s c).holder key = some d := by
  have habort : ∀ error, (s.abort c error).holder key = some d :=
    fun error => release_holder hne hkey
  unfold advance
  cases hs : s.calls c with
  | idle => exact hkey
  | ended outcome => exact hkey
  | gating request ctx roles gated todo =>
    cases todo with
    | nil => exact hkey
    | cons entry todo =>
      dsimp only
      cases gateRecord h ctx roles entry.1 entry.2 (viewOf s.tables entry.1) <;> exact hkey
  | attaching request roles attached todo => cases todo <;> exact hkey
  | locking work =>
    dsimp only
    rcases acquire_cases (h := h) s c work with
      heq | ⟨⟨-, hfree⟩, ⟨_, heq⟩ | ⟨-, heq⟩ | ⟨_, -, heq⟩⟩ <;> rw [heq]
    · exact hkey
    · exact release_holder hne (take_holder hfree hkey)
    · exact take_holder hfree hkey
    · exact take_holder hfree hkey
  | receipt work identity =>
    dsimp only
    rcases readReceipt_cases s c work identity with
      heq | ⟨hfree, -, heq⟩ | ⟨_, heq⟩ | ⟨_, -, heq⟩ <;> rw [heq]
    · exact hkey
    · exact take_holder (fun k hk => List.mem_singleton.mp hk ▸ hfree) hkey
    · exact habort _
    · exact release_holder hne hkey
  | checking request roles records todo =>
    dsimp only
    rcases checkKey_cases (h := h) s c request roles records todo with
      ⟨-, heq⟩ | ⟨_, _, -, ⟨heq, -⟩ | ⟨_, _, heq⟩⟩ <;> rw [heq]
    · exact hkey
    · exact hkey
    · exact conclude_holder_other hne hkey _ _ _
  | resolving request =>
    dsimp only
    cases indexedMethods h.external s.tables request.tournamentIds request.methods with
    | none => exact habort _
    | some methods => exact hkey
  | fetching request methods =>
    dsimp only
    rcases fetchAndRun_cases (h := h) s c request methods with
      ⟨_, heq⟩ | ⟨_, heq⟩ | ⟨_, _, _, -, -, -, heq⟩ <;> rw [heq]
    · exact habort _
    · exact conclude_holder_other hne hkey _ _ _
    · exact hkey
  | writing work reply written todo =>
    dsimp only
    rcases saveNext_cases (h := h) s c work reply written todo with
      ⟨-, heq⟩ | ⟨_, _, _, -, ⟨_, heq⟩ | ⟨_, heq⟩ | ⟨w, -, heq⟩⟩ <;> rw [heq]
    · exact conclude_holder_other hne hkey _ _ _
    · exact habort _
    · exact conclude_holder_other hne hkey _ _ _
    · exact (congrFun (put_holder s work w) key).trans hkey

/-- No step takes or gives back a lock of another call. -/
theorem step_holder_other {a : WriteAction ι} {key : LockKey ι} (hd : a.call? ≠ some d)
    (hkey : s.holder key = some d) : (step h s a).holder key = some d := by
  have hne : ∀ c, some c ≠ some d → d ≠ c := fun c hc heq => hc (by rw [heq])
  have hreject : ∀ c, some c ≠ some d → (reject s c).holder key = some d := by
    intro c hc
    unfold reject
    cases s.calls c with
    | idle => exact hkey
    | ended outcome => exact hkey
    | attaching request roles attached todo =>
      cases todo with
      | nil => exact release_holder (hne c hc) hkey
      | cons entry todo => exact hkey
    | _ => exact release_holder (hne c hc) hkey
  have hlost : ∀ c, some c ≠ some d →
      ((advance h s c).abort c (.error "database error")).holder key = some d :=
    fun c hc => release_holder (hne c hc) (advance_holder_other (hne c hc) hkey)
  cases a with
  | save c request =>
    simp only [step]
    cases s.calls c <;> exact hkey
  | queue c payload =>
    simp only [step]
    cases s.calls c <;> exact hkey
  | advance c => exact advance_holder_other (hne c hd) hkey
  | reject c => exact hreject c hd
  | lose c =>
    cases hs : s.calls c with
    | idle => simpa only [step, hs] using hkey
    | ended outcome => simpa only [step, hs] using hkey
    | attaching request roles attached todo =>
      cases todo with
      | nil => simpa only [step, hs] using hlost c hd
      | cons entry todo => simpa only [step, hs] using hreject c hd
    | _ => simpa only [step, hs] using hlost c hd
  | outside tables roles => exact hkey

/-! ## The steps of a save -/

omit [DecidableEq ι] in
/-- A record that passes the gate was decided on. -/
theorem decides_of_gateRecord {request : SaveRequest} {ctx : UserContext}
    {roles : List (String × String)} {gated todo : RecordMap} {entry : String × TournamentRecord}
    {record : TournamentRecord} (hctx : request.userContext = some ctx)
    (hstage : s.calls c = .gating request ctx roles gated (entry :: todo))
    (hgate : gateRecord h ctx roles entry.1 entry.2 (viewOf s.tables entry.1) = some record) :
    Decides h c request entry.1 s (.advance c) := by
  refine ⟨rfl, ctx, roles, gated, entry.2, todo, hctx, hstage, fun view hview => ?_⟩
  rw [hview] at hgate
  simp only [gateRecord] at hgate
  split_ifs at hgate with hcan
  exact hcan

omit [DecidableEq ι] in
/-- Locked work begins with all its keys still to be compared. -/
theorem checked_opened {holder : LockKey ι → Option ι} {work : Work}
    (hgated : StageChecked past holder c (.locking work))
    (hheld : ∀ key ∈ work.lockKeys c, holder key = some c) :
    StageChecked past holder c (opened work) := by
  cases work with
  | queue request => trivial
  | save request roles records =>
    have hlocks : HoldsLocks holder c records := fun entry he =>
      hheld _ (List.mem_map_of_mem (f := fun r => LockKey.tournament r.1) he)
    cases hf : expectedFields (request.params.field? "expectedServerUpdatedAt") with
    | none =>
      simp only [opened, hf]
      refine ⟨hgated, hlocks, fun entry _ => Or.inr fun expected he => ?_⟩
      simp [expectedFor, hf] at he
    | some fields =>
      simp only [opened, hf]
      exact ⟨hgated, hlocks, fun entry he => Or.inl (List.mem_map_of_mem he)⟩

/-- A call that is answered keeps its checks, and notes the one it makes. -/
theorem checked_advance (hg : Grows h s (.advance c) past past')
    (hs : StageChecked past s.holder c (s.calls c)) :
    StageChecked past' (advance h s c).holder c ((advance h s c).calls c) := by
  have hset : ∀ (s' : State ι) (stage : Stage ι), StageChecked past' s'.holder c stage →
      StageChecked past' (s'.setCall c stage).holder c ((s'.setCall c stage).calls c) := by
    intro s' stage hstage
    rw [setCall_calls, Function.update_self]
    exact hstage
  have hover : ∀ (s' : State ι) (error : Thrown),
      StageChecked past' (s'.abort c error).holder c ((s'.abort c error).calls c) :=
    fun s' error => hset (s'.release c) _ trivial
  have hconcluded : ∀ work written result,
      StageChecked past' (s.conclude h c work written result).holder c
        ((s.conclude h c work written result).calls c) := by
    intro work written result
    obtain ⟨outcome, houtcome⟩ := conclude_calls (h := h) s c work written result
    rw [houtcome, Function.update_self]
    trivial
  have hsame : StageChecked past' s.holder c (s.calls c) := hs.mono hg fun _ hk => hk
  cases hstage : s.calls c with
  | idle => simp only [advance, hstage, StageChecked]
  | ended outcome => simp only [advance, hstage, StageChecked]
  | gating request ctx roles gated todo =>
    rw [hstage] at hs
    obtain ⟨hctx, hkeys, hdecided⟩ := hs
    cases todo with
    | nil =>
      simp only [advance, hstage]
      rw [List.append_nil] at hkeys
      exact hset s _ ⟨hkeys, fun _ entry he => hg.decided _ _ _ (hdecided entry he)⟩
    | cons entry todo =>
      simp only [advance, hstage]
      cases hgate : gateRecord h ctx roles entry.1 entry.2 (viewOf s.tables entry.1) with
      | none => exact hset s _ trivial
      | some record =>
        refine hset s _ ⟨hctx, by simpa using hkeys, fun e he => ?_⟩
        rcases List.mem_append.mp he with hin | hin
        · exact hg.decided _ _ _ (hdecided e hin)
        · have hnow := decides_of_gateRecord hctx hstage hgate
          rw [List.mem_singleton.mp hin]
          exact hg.decides _ _ _ hnow
  | attaching request roles attached todo =>
    have hgated : Gated past' c request (attached ++ todo) := by
      rw [hstage] at hsame
      exact hsame
    cases todo with
    | nil =>
      simp only [advance, hstage]
      rw [List.append_nil] at hgated
      split_ifs
      · exact hset s _ hgated
      · exact hset s _ trivial
    | cons entry todo =>
      simp only [advance, hstage]
      refine hset s _ ⟨by simpa using hgated.1, fun hctx e he => ?_⟩
      have hold : ∃ e' ∈ attached ++ entry :: todo, e'.1 = e.1 := by
        simp only [List.mem_append, List.mem_singleton] at he
        rcases he with (hin | rfl) | hin
        · exact ⟨e, by simp [hin], rfl⟩
        · exact ⟨entry, by simp, rfl⟩
        · exact ⟨e, by simp [hin], rfl⟩
      obtain ⟨e', he', heq⟩ := hold
      exact heq ▸ hgated.2 hctx e' he'
  | locking work =>
    rw [hstage] at hsame
    simp only [advance, hstage]
    rcases acquire_cases (h := h) s c work with
      heq | ⟨hfree, ⟨_, heq⟩ | ⟨-, heq⟩ | ⟨_, -, heq⟩⟩ <;> rw [heq]
    · rw [hstage]
      exact hsame
    · exact hover _ _
    all_goals
      have htaken : ∀ key ∈ work.lockKeys c,
          (s.take c (work.lockKeys c)).holder key = some c := fun key hk => take_held hk
    · exact hset _ _ (checked_opened (by cases work <;> exact hsame) htaken)
    · refine hset _ _ ?_
      cases work with
      | queue request => trivial
      | save request roles records =>
        exact ⟨hsame, fun entry he => htaken _ (List.mem_map_of_mem
          (f := fun r : String × TournamentRecord => LockKey.tournament r.1) he)⟩
  | receipt work identity =>
    rw [hstage] at hsame
    simp only [advance, hstage]
    rcases readReceipt_cases s c work identity with
      heq | ⟨hfree, -, heq⟩ | ⟨_, heq⟩ | ⟨_, -, heq⟩ <;> rw [heq]
    · rw [hstage]
      exact hsame
    · refine hset _ _ ?_
      have hfree' : ∀ k ∈ [(.command identity.actor identity.commandId : LockKey ι)],
          s.holder k = none := fun k hk => List.mem_singleton.mp hk ▸ hfree
      cases work with
      | queue request => trivial
      | save request roles records =>
        have hlocking : StageChecked past'
            (s.take c [.command identity.actor identity.commandId]).holder c
            (.locking (.save request roles records)) := hsame.1
        refine checked_opened hlocking fun key hk => ?_
        obtain ⟨entry, he, rfl⟩ := List.mem_map.mp hk
        exact take_holder hfree' (hsame.2 entry he)
    · exact hover _ _
    · exact hset _ _ trivial
  | checking request roles records todo =>
    rw [hstage] at hsame
    obtain ⟨hgated, hlocks, hkeys⟩ := hsame
    simp only [advance, hstage]
    rcases checkKey_cases (h := h) s c request roles records todo with
      ⟨htodo, heq⟩ | ⟨tid, rest, htodo, ⟨heq, hequal⟩ | ⟨_, _, heq⟩⟩ <;> rw [heq]
    · refine hset _ _ ⟨hgated, hlocks, fun entry he => ?_⟩
      rcases hkeys entry he with hin | hcompared
      · rw [htodo] at hin
        cases hin
      · exact hcompared
    · refine hset _ _ ⟨hgated, hlocks, fun entry he => ?_⟩
      rcases hkeys entry he with hin | hcompared
      · rw [htodo] at hin
        rcases List.mem_cons.mp hin with hhead | hin
        · refine Or.inr fun expected hexpected => hg.compares _ _ _ _ ⟨rfl, hlocks entry he, roles,
            records, rest, by rw [hstage, htodo, hhead], ?_⟩
          rw [hhead] at hexpected ⊢
          unfold expectedFor at hexpected
          cases hf : expectedFields (request.params.field? "expectedServerUpdatedAt") with
          | none => simp [hf] at hexpected
          | some fields => exact hequal fields expected hf (by simpa [hf] using hexpected)
        · exact Or.inl hin
      · exact Or.inr hcompared
    · exact hconcluded _ _ _
  | resolving request =>
    simp only [advance, hstage]
    cases indexedMethods h.external s.tables request.tournamentIds request.methods with
    | none => exact hover _ _
    | some methods => exact hset _ _ trivial
  | fetching request methods =>
    simp only [advance, hstage]
    rcases fetchAndRun_cases (h := h) s c request methods with
      ⟨_, heq⟩ | ⟨_, heq⟩ | ⟨_, _, _, -, -, -, heq⟩ <;> rw [heq]
    · exact hover _ _
    · exact hconcluded _ _ _
    · exact hset _ _ trivial
  | writing work reply written todo =>
    rw [hstage] at hsame
    simp only [advance, hstage]
    rcases saveNext_cases (h := h) s c work reply written todo with
      ⟨-, heq⟩ | ⟨_, _, _, htodo, ⟨_, heq⟩ | ⟨_, heq⟩ | ⟨w, hw, heq⟩⟩ <;> rw [heq]
    · exact hconcluded _ _ _
    · exact hover _ _
    · exact hconcluded _ _ _
    · refine hset _ _ ?_
      rw [put_holder]
      cases work with
      | queue request => trivial
      | save request roles records => exact hsame

/-- A call whose await is rejected is over, or goes on with the record as it is. -/
theorem checked_reject {a : WriteAction ι} (hg : Grows h s a past past')
    (hs : StageChecked past s.holder c (s.calls c)) :
    StageChecked past' (reject s c).holder c ((reject s c).calls c) := by
  have hover : ∀ error : Thrown,
      StageChecked past' (s.abort c error).holder c ((s.abort c error).calls c) := by
    intro error
    rw [abort_calls, Function.update_self]
    trivial
  have hsame : StageChecked past' s.holder c (s.calls c) := hs.mono hg fun _ hk => hk
  cases hstage : s.calls c with
  | idle => simp only [reject, hstage, StageChecked]
  | ended outcome => simp only [reject, hstage, StageChecked]
  | attaching request roles attached todo =>
    rw [hstage] at hsame
    simp only [reject, hstage]
    cases todo with
    | nil => exact hover _
    | cons entry todo =>
      rw [setCall_calls, Function.update_self]
      have happend : attached ++ [entry] ++ todo = attached ++ entry :: todo := by simp
      simpa only [StageChecked, happend] using hsame
  | _ =>
    simp only [reject, hstage]
    exact hover _

omit [DecidableEq ι] in
/-- A save that arrives has all its keys still to be decided on. -/
theorem checked_arriveSave {holder : LockKey ι → Option ι} (request : SaveRequest) :
    StageChecked past holder c (arriveSave s request) := by
  unfold arriveSave
  split_ifs
  · trivial
  · trivial
  · cases hc : request.userContext with
    | none => exact ⟨rfl, fun hsome => by rw [hc] at hsome; cases hsome⟩
    | some ctx => exact ⟨hc, rfl, fun entry he => absurd he List.not_mem_nil⟩

/-- Whatever happens, every save keeps its checks and notes the one it makes. -/
theorem checked_step {a : WriteAction ι} (hg : Grows h s a past past')
    (hi : ∀ c, StageChecked past s.holder c (s.calls c)) (d : ι) :
    StageChecked past' (step h s a).holder d ((step h s a).calls d) := by
  have hsame : StageChecked past' s.holder d (s.calls d) := (hi d).mono hg fun _ hk => hk
  by_cases hd : a.call? = some d
  · cases a with
    | save c request =>
      have hcd : c = d := Option.some.inj hd
      subst hcd
      cases hstage : s.calls c with
      | idle =>
        simp only [step, hstage, setCall_holder, setCall_calls, Function.update_self]
        exact checked_arriveSave request
      | _ => simpa only [step, hstage] using hsame
    | queue c payload =>
      have hcd : c = d := Option.some.inj hd
      subst hcd
      cases hstage : s.calls c with
      | idle =>
        simp only [step, hstage, setCall_holder, setCall_calls, Function.update_self]
        unfold arriveQueue
        split <;> trivial
      | _ => simpa only [step, hstage] using hsame
    | advance c =>
      have hcd : c = d := Option.some.inj hd
      subst hcd
      exact checked_advance hg (hi c)
    | reject c =>
      have hcd : c = d := Option.some.inj hd
      subst hcd
      exact checked_reject hg (hi c)
    | lose c =>
      have hcd : c = d := Option.some.inj hd
      subst hcd
      have hover : StageChecked past'
          ((advance h s c).abort c (.error "database error")).holder c
          (((advance h s c).abort c (.error "database error")).calls c) := by
        rw [abort_calls, Function.update_self]
        trivial
      cases hstage : s.calls c with
      | idle => simpa only [step, hstage] using hsame
      | ended outcome => simpa only [step, hstage] using hsame
      | attaching request roles attached todo =>
        cases todo with
        | nil => simpa only [step, hstage] using hover
        | cons entry todo => simpa only [step, hstage] using checked_reject hg (hi c)
      | _ => simpa only [step, hstage] using hover
    | outside tables roles => cases hd
  · rw [step_calls_other hd]
    exact (hi d).mono hg fun key hk => step_holder_other hd hk

/-! ## Whole runs -/

/-- What the actions of a run have checked. -/
def pastOf (h : Host) (s : State ι) (actions : List (WriteAction ι)) : Past ι where
  decided c request tid := Happened (step h) (Decides h c request tid) s actions
  compared c request tid expected :=
    Happened (step h) (Compares h c request tid expected) s actions

/-- After every run each save has the checks of its stage behind it. -/
theorem checked_run (tables : Tables) (roles : String → List (String × String))
    (actions : List (WriteAction ι)) (d : ι) :
    StageChecked (pastOf h (State.start tables roles) actions)
      (run (step h) (State.start tables roles) actions).holder d
      ((run (step h) (State.start tables roles) actions).calls d) := by
  induction actions using List.reverseRecOn generalizing d with
  | nil => trivial
  | append_singleton actions a ih =>
    rw [run_concat]
    have hgrows : Grows h (run (step h) (State.start tables roles) actions) a
        (pastOf h (State.start tables roles) actions)
        (pastOf h (State.start tables roles) (actions ++ [a])) := by
      constructor <;> intro c request tid
      · exact fun hp => happened_concat.mpr (Or.inl hp)
      · exact fun hp => happened_concat.mpr (Or.inr hp)
      · exact fun expected hp => happened_concat.mpr (Or.inl hp)
      · exact fun expected hp => happened_concat.mpr (Or.inr hp)
    exact checked_step hgrows ih d

/-- The gate of a save has decided only on keys of its own map. -/
theorem key_of_decided {tables : Tables} {roles : String → List (String × String)}
    {actions : List (WriteAction ι)} {request : SaveRequest} {tid : String}
    (hp : Happened (step h) (Decides h c request tid) (State.start tables roles) actions) :
    request.userContext.isSome = true ∧ tid ∈ request.records.map Prod.fst := by
  induction actions using List.reverseRecOn with
  | nil => cases hp
  | append_singleton actions a ih =>
    rcases happened_concat.mp hp with hp | ⟨-, ctx, gateRoles, gated, record, todo, hctx, hstage, -⟩
    · exact ih hp
    · have hs := checked_run (h := h) tables roles actions c
      rw [hstage] at hs
      refine ⟨by simp [hctx], ?_⟩
      rw [← hs.2.1]
      simp

/-! ## The route of a provider's key -/

/-- The records of `POST /provider-key/tournaments` that name another provider. -/
def otherProviders (authedProviderId : String) (records : RecordMap) : RecordMap :=
  records.filter fun r => (getTournamentProviderId r.2).any (· != authedProviderId)

/-- A record with the provider of the key, where it names none. -/
def stampProvider (authedProviderId : String) (record : TournamentRecord) : TournamentRecord :=
  { record with organisationId := some ((getTournamentProviderId record).getD authedProviderId) }

/-- The records with one more stamped and migrated. -/
def migrateRecords (authedProviderId : String)
    (migrateTournamentRecord : TournamentRecord → Option TournamentRecord)
    (records : RecordMap) : Option RecordMap :=
  records.mapM fun r =>
    (migrateTournamentRecord (stampProvider authedProviderId r.2)).map fun record => (r.1, record)

/-- Stamping and migrating leave the keys. -/
theorem keys_migrateRecords {authedProviderId : String}
    {migrateTournamentRecord : TournamentRecord → Option TournamentRecord}
    {records migrated : RecordMap}
    (hm : migrateRecords authedProviderId migrateTournamentRecord records = some migrated) :
    migrated.map Prod.fst = records.map Prod.fst := by
  unfold migrateRecords at hm
  induction records generalizing migrated with
  | nil =>
    cases hm
    rfl
  | cons r rest ih =>
    rw [List.mapM_cons] at hm
    obtain ⟨first, hfirst, hm⟩ := Option.bind_eq_some_iff.mp hm
    obtain ⟨others, hothers, hm⟩ := Option.bind_eq_some_iff.mp hm
    obtain ⟨record, -, rfl⟩ := Option.map_eq_some_iff.mp hfirst
    cases hm
    rw [List.map_cons, List.map_cons, ih hothers]

/-- `saveTournament` of the provider-key controller: the save it hands to the service,
with no other parameters. -/
def saveTournament (authedProviderId providerName : String)
    (migrateTournamentRecord : TournamentRecord → Option TournamentRecord)
    (records : RecordMap) (keys_nodup : (records.map Prod.fst).Nodup) : Option SaveRequest :=
  if records.isEmpty || !(otherProviders authedProviderId records).isEmpty then none else
  let principal := "provider:" ++ authedProviderId
  let email := "key@" ++ providerName
  match hm : migrateRecords authedProviderId migrateTournamentRecord records with
  | none => none
  | some migrated => some
    { params := .obj []
      user := some (keyUser principal email authedProviderId)
      userContext := some (keyContext principal email authedProviderId none)
      records := migrated
      keys_nodup := keys_migrateRecords hm ▸ keys_nodup }

/-- A save of the key's route has the context of the key and the keys of the body. -/
theorem saveTournament_spec {authedProviderId providerName : String}
    {migrateTournamentRecord : TournamentRecord → Option TournamentRecord}
    {records : RecordMap} {keys_nodup : (records.map Prod.fst).Nodup} {request : SaveRequest}
    (hsave : saveTournament authedProviderId providerName migrateTournamentRecord records
      keys_nodup = some request) :
    request.userContext.isSome = true ∧
      request.records.map Prod.fst = records.map Prod.fst := by
  unfold saveTournament at hsave
  split_ifs at hsave
  dsimp only at hsave
  split at hsave
  · cases hsave
  · rename_i migrated hm
    cases hsave
    exact ⟨rfl, keys_migrateRecords hm⟩

/-! ## The law -/

/-- In every run, and however the calls interleave: a row that a save writes is one
it has locked, decided on and compared exactly when the request has a context and the
id under which the row is stored is a key of its map. A save of a provider's key
always has a context. -/
theorem row_checked_iff (h : Host) (tables : Tables) (roles : String → List (String × String))
    (actions : List (WriteAction ι)) (a : WriteAction ι) (c : ι) (request : SaveRequest)
    (x : String) (hw : WritesRow h c request x (run (step h) (State.start tables roles) actions) a) :
    (RowChecked h (State.start tables roles) actions c request x ↔
      request.userContext.isSome = true ∧ x ∈ request.records.map Prod.fst) ∧
    ∀ authedProviderId providerName migrateTournamentRecord records keys_nodup,
      saveTournament authedProviderId providerName migrateTournamentRecord records keys_nodup =
        some request →
      (RowChecked h (State.start tables roles) actions c request x ↔
        x ∈ records.map Prod.fst) := by
  have hiff : RowChecked h (State.start tables roles) actions c request x ↔
      request.userContext.isSome = true ∧ x ∈ request.records.map Prod.fst := by
    constructor
    · rintro ⟨-, hdecided, -⟩
      exact key_of_decided hdecided
    · rintro ⟨hctx, hkey⟩
      obtain ⟨-, callRoles, records, reply, written, key, record, todo, w, hstage, -, -⟩ := hw
      have hs := checked_run (h := h) tables roles actions c
      rw [hstage] at hs
      obtain ⟨⟨hkeys, hdecided⟩, hlocks, hcompared⟩ := hs
      rw [← hkeys] at hkey
      obtain ⟨entry, he, rfl⟩ := List.mem_map.mp hkey
      exact ⟨hlocks entry he, hdecided hctx entry he, hcompared entry he⟩
  refine ⟨hiff, fun authedProviderId providerName migrateTournamentRecord records keys_nodup hsave
    => ?_⟩
  obtain ⟨hctx, hkeys⟩ := saveTournament_spec hsave
  rw [hiff, hkeys]
  exact and_iff_right hctx

/-- A director sends the tournament `t` under the key `key`. -/
def keyedSave (userId key : String) : SaveRequest where
  params := .obj []
  user := none
  userContext := some (director userId)
  records := [(key, plainRecord "t" (some "p"))]
  keys_nodup := by simp

/-- The steps of that save up to its write. -/
def upToWrite (userId key : String) : List (WriteAction Unit) :=
  .save () (keyedSave userId key) :: List.replicate 6 (.advance ())

/-- A save of `b` under another key overwrites the tournament of `a`: no lock of it is
held, and no gate has looked at it. -/
theorem renamed_save_unchecked :
    ¬ ∀ (tables : Tables) (actions : List (WriteAction Unit)) (a : WriteAction Unit)
        (request : SaveRequest) (x : String),
      request.userContext.all (fun ctx => !ctx.isSuperAdmin) = true →
      WritesRow plainHost () request x
        (run (step plainHost) (State.start tables fun _ => []) actions) a →
      RowChecked plainHost (State.start tables fun _ => []) actions () request x := by
  intro hall
  have hchecked := hall (createdBy "a" "t") (upToWrite "b" "new") (.advance ())
    (keyedSave "b" "new") "t" rfl ⟨Or.inl rfl, _, _, _, _, _, _, _, _, rfl, rfl, rfl⟩
  cases hchecked.1

/-- Under its own id the save of the creator is checked. -/
theorem row_checked_named :
    RowChecked plainHost (State.start (createdBy "a" "t") fun _ => []) (upToWrite "a" "t") ()
      (keyedSave "a" "t") "t" :=
  (row_checked_iff plainHost (createdBy "a" "t") (fun _ => []) (upToWrite "a" "t") (.advance ()) ()
    (keyedSave "a" "t") "t" ⟨Or.inl rfl, _, _, _, _, _, _, _, _, rfl, rfl, rfl⟩).1.mpr
    ⟨rfl, by decide⟩

end FactoryServer.SaveChecks
