import FactoryServer.LockDiscipline

/-!
# Conditional saves

A wholesale save may name the time at which each of its tournaments was last
written when the client read it. The comparison runs under the locks of the saved
tournaments, before anything is written. Among writers that take locks an accepted
save has therefore overwritten nothing that its client has not seen. A tournament
that is named and not saved is neither locked nor compared.
-/

namespace FactoryServer.ConditionalSaves

open JsonValue TournamentAccess CommandTransaction CommandReceipts StorageTables TournamentStorage
  ExecutionQueue CallbackOutcomes DurableSave GuardedRuns ConcurrentWrites LockDiscipline

variable {ι : Type} (h : Host)

/-! ## What is claimed -/

/-- Nobody but call `c` has written the tournament after any moment at which a client
could read the time that the request expects; `base` are the rows before the log. -/
def Untouched (base : String → Option TournamentRow) (log : List (Write ι)) (c : ι)
    (request : SaveRequest) (tid : String) : Prop :=
  ∀ fields expected, expectedFields (request.params.field? "expectedServerUpdatedAt") =
    some fields → fields.lookup tid = some expected → tid ≠ "" →
    ∀ before after, log = before ++ after →
      sameTime (timeRead h (putRows base before) tid) expected = true →
      ∀ w ∈ after, w.id = tid → w.call = c

/-- The tournaments a step of a save relies on satisfy `P`: it writes a record, or it
is accepted. -/
def SavesOnly (s : State ι) (a : WriteAction ι) (P : ι → SaveRequest → String → Prop) : Prop :=
  ∀ c request roles records reply ws todo, (a = .advance c ∨ a = .lose c) →
    s.calls c = .writing (.save request roles records) reply ws todo → ∀ tid, P c request tid

/-- As claimed: whatever the save names is untouched when it goes on to write. -/
def NamedUntouched (base : String → Option TournamentRow) (s : State ι) (a : WriteAction ι) : Prop :=
  SavesOnly s a fun c request tid => Untouched h base s.log c request tid

/-- The promises of a conditional save. -/
structure Conditional [DecidableEq ι] (base : String → Option TournamentRow) (s : State ι)
    (a : WriteAction ι) : Prop where
  /-- What the save names and writes is untouched when it goes on to write. -/
  untouched : SavesOnly s a fun c request tid =>
    tid ∈ request.records.map Prod.fst → Untouched h base s.log c request tid
  /-- A save that finds another time than expected is refused, and has written nothing. -/
  refused : ∀ c request roles records tid todo fields expected, a = .advance c →
    s.calls c = .checking request roles records (tid :: todo) → tid ≠ "" →
    expectedFields (request.params.field? "expectedServerUpdatedAt") = some fields →
    fields.lookup tid = some expected →
    sameTime (timeRead h s.tables.tournaments tid) expected = false →
    (step h s a).calls c = .ended (.ok (some (conflictAnswer tid expected
      (((timeRead h s.tables.tournaments tid).map .str).getD .null)))) ∧
    ∀ w ∈ (step h s a).log, w.call ≠ c
  /-- A command that was committed is answered again, whatever it expects. -/
  resent : ∀ c work identity entry, a = .advance c → s.calls c = .receipt work identity →
    entry ∈ s.accepted → entry.1.actor = identity.actor →
    entry.1.commandId = identity.commandId → entry.1.fingerprint = identity.fingerprint →
    (step h s a).calls c = .ended (.ok (some (deduplicated (h.storedJson entry.2))))

/-! ## The invariant -/

/-- What a call has compared so far is untouched. -/
def Compared (base : String → Option TournamentRow) (log : List (Write ι)) (c : ι) :
    Stage ι → Prop
  | .checking request _ _ todo => ∀ tid ∈ request.records.map Prod.fst, tid ∉ todo →
      Untouched h base log c request tid
  | .writing (.save request _ _) _ _ _ => ∀ tid ∈ request.records.map Prod.fst,
      Untouched h base log c request tid
  | _ => True

variable {h}

/-- Later upserts of others on other rows do not matter. -/
theorem Untouched.append {base : String → Option TournamentRow} {log ws : List (Write ι)} {c : ι}
    {request : SaveRequest} {tid : String} (hu : Untouched h base log c request tid)
    (hws : ∀ w ∈ ws, w.id = tid → w.call = c) : Untouched h base (log ++ ws) c request tid := by
  intro fields expected hfields hlookup hne before after hsplit hsame w hw hid
  rcases List.append_eq_append_iff.mp hsplit.symm with ⟨as, hlog, hafter⟩ | ⟨bs, hbefore, hws'⟩
  · rw [hafter] at hw
    rcases List.mem_append.mp hw with hold | hnew
    · exact hu fields expected hfields hlookup hne before as hlog hsame w hold hid
    · exact hws w hnew hid
  · exact hws w (hws' ▸ List.mem_append_right _ hw) hid

/-- A tournament whose time is as expected has not been written since it was read. -/
theorem untouched_of_same {start : Tables} {log : List (Write ι)} {c : ι} {request : SaveRequest}
    {tid : String} (htimes : DistinctTimes h start) (horder : log.Pairwise Earlier)
    (hclock : ∀ w ∈ log, start.now ≤ w.row.updatedAt)
    (hsame : ∀ fields expected,
      expectedFields (request.params.field? "expectedServerUpdatedAt") = some fields →
      fields.lookup tid = some expected →
      sameTime (timeRead h (putRows start.tournaments log) tid) expected = true) :
    Untouched h start.tournaments log c request tid := by
  intro fields expected hfields hlookup _ before after hsplit hread w hw hid
  have hnow := hsame fields expected hfields hlookup
  have hrows : putRows start.tournaments log =
      putRows (putRows start.tournaments before) after := by
    rw [hsplit]
    exact List.foldl_append
  rcases putRows_cases (putRows start.tournaments before) after tid with
    ⟨hnone, -⟩ | ⟨v, hv, hvid, hvrow⟩
  · exact absurd hid (hnone w hw)
  · -- The last upsert would have the time that was read before it.
    rw [hrows] at hnow
    simp only [timeRead, hvrow, Option.map_some] at hnow
    have hexpected : expected = .str (h.external.toIso v.row.updatedAt) := by
      cases expected with
      | str given => exact congrArg Json.str (beq_iff_eq.mp hnow).symm
      | _ => cases hnow
    rw [hexpected] at hread
    cases hrow : putRows start.tournaments before tid with
    | none =>
      simp only [timeRead, hrow, Option.map_none] at hread
      cases hread
    | some row =>
      simp only [timeRead, hrow, Option.map_some] at hread
      have htime : row.updatedAt = v.row.updatedAt :=
        htimes.reported (beq_iff_eq.mp hread)
      have hv' : v ∈ log := hsplit ▸ List.mem_append_right _ hv
      have hsince := hclock v hv'
      rcases putRows_cases start.tournaments before tid with ⟨-, hbase⟩ | ⟨u, hu, huid, hurow⟩
      · have hstored := htimes.stored tid row (hbase.symm.trans hrow)
        omega
      · rw [hsplit] at horder
        have hearlier : Earlier u v := (List.pairwise_append.mp horder).2.2 u hu v hv
        have hlt := hearlier (huid.trans hvid.symm)
        have heq : u.row = row := Option.some.inj (hurow.symm.trans hrow)
        rw [heq] at hlt
        omega

/-- Calls that compare nothing need nothing. -/
theorem compared_of_unlocked {base : String → Option TournamentRow} {log : List (Write ι)} {c : ι}
    {stage : Stage ι} (hunlocked : openedWork? stage = none) : Compared h base log c stage := by
  cases stage with
  | checking request roles records todo => cases hunlocked
  | writing work reply ws todo => cases hunlocked
  | _ => trivial

/-- What other calls do leaves a call with what it has compared. -/
theorem Compared.transfer {since : ℕ} {base : String → Option TournamentRow} {s s' : State ι}
    {c : ι} {stage : Stage ι} (hc : Compared h base s.log c stage)
    (hs : CallHolds since s c stage) (hl : Leaves since s s' c) :
    Compared h base s'.log c stage := by
  obtain ⟨ws, hlog, hforeign⟩ := hl.log
  have hlocked : ∀ request records roles, save? stage = some (request, records) →
      lockedWork? stage = some (.save request roles records) →
      ∀ tid ∈ request.records.map Prod.fst, ∀ w ∈ ws, w.id = tid → w.call = c := by
    intro request records roles hsave hwork tid htid w hw hid
    have hkeys := (hs.kept request records hsave).keys
    rw [← hkeys] at htid
    obtain ⟨entry, hentry, hfst⟩ := List.mem_map.mp htid
    have hkey : (.tournament w.id : LockKey ι) ∈ (Work.save request roles records).lockKeys c := by
      rw [hid, ← hfst]
      exact List.mem_map.mpr ⟨entry, hentry, rfl⟩
    exact absurd (hs.locks _ hwork _ hkey) (hforeign w hw).2
  rw [hlog]
  cases stage with
  | checking request roles records todo =>
    intro tid htid hdone
    exact (hc tid htid hdone).append (hlocked request records roles rfl rfl tid htid)
  | writing work reply written todo =>
    cases work with
    | queue request => trivial
    | save request roles records =>
      intro tid htid
      exact (hc tid htid).append (hlocked request records roles rfl rfl tid htid)
  | _ => trivial

/-- The comparison begins with every key it has to compare. -/
theorem compared_opened {base : String → Option TournamentRow} {log : List (Write ι)} {c : ι}
    {work : Work} (hkept : ∀ request records, save? (.locking work : Stage ι) =
      some (request, records) → KeptKeys request records) :
    Compared h base log c (opened work) := by
  cases work with
  | queue request => trivial
  | save request roles records =>
    cases hf : expectedFields (request.params.field? "expectedServerUpdatedAt") with
    | none =>
      simp only [opened, hf]
      intro tid _ _ fields expected hfields
      rw [hf] at hfields
      cases hfields
    | some fields =>
      simp only [opened, hf]
      intro tid htid hdone
      rw [(hkept request records rfl).keys] at hdone
      exact absurd htid hdone

/-- A time that the check of a key reads is the time a client reads. -/
theorem viewOf_time (t : Tables) {tid : String} (hne : tid ≠ "") :
    ((viewOf t tid).map fun view => h.external.toIso view.serverUpdatedAt) =
      timeRead h t.tournaments tid := by
  simp only [viewOf, if_neg hne, exec, timeRead, Option.map_map]
  rfl

section Calls

variable [DecidableEq ι]

/-- A call that is answered has compared what it goes on from. -/
theorem compared_advance {start : Tables} {s : State ι} {c : ι} (htimes : DistinctTimes h start)
    (hi : Inv h start s) (hc : Compared h start.tournaments s.log c (s.calls c)) :
    Compared h start.tournaments (advance h s c).log c ((advance h s c).calls c) := by
  have hs := hi.calls c
  have hconcluded : ∀ work ws result, Compared h start.tournaments
      (s.conclude h c work ws result).log c ((s.conclude h c work ws result).calls c) := by
    intro work ws result
    obtain ⟨outcome, houtcome⟩ := conclude_calls (h := h) s c work ws result
    rw [houtcome, Function.update_self]
    trivial
  have hset : ∀ (s' : State ι) (stage : Stage ι),
      Compared h start.tournaments s'.log c stage →
      Compared h start.tournaments (s'.setCall c stage).log c ((s'.setCall c stage).calls c) := by
    intro s' stage hstage
    rw [setCall_calls, Function.update_self]
    exact hstage
  cases hstage : s.calls c with
  | idle => simp only [advance, hstage, Compared]
  | ended outcome => simp only [advance, hstage, Compared]
  | gating request ctx roles gated todo =>
    cases todo with
    | nil =>
      simp only [advance, hstage]
      exact hset s _ trivial
    | cons entry todo =>
      simp only [advance, hstage]
      cases gateRecord h ctx roles entry.1 entry.2 (viewOf s.tables entry.1) <;>
        exact hset s _ trivial
  | attaching request roles attached todo =>
    cases todo with
    | nil =>
      simp only [advance, hstage]
      split_ifs <;> exact hset s _ trivial
    | cons entry todo =>
      simp only [advance, hstage]
      exact hset s _ trivial
  | locking work =>
    rw [hstage] at hc
    have hkept := hs.kept
    rw [hstage] at hkept
    simp only [advance, hstage]
    rcases acquire_cases (h := h) s c work with
      heq | ⟨-, ⟨_, heq⟩ | ⟨-, heq⟩ | ⟨_, -, heq⟩⟩ <;> rw [heq]
    · rw [hstage]
      trivial
    · exact hset _ _ trivial
    · exact hset _ _ (compared_opened hkept)
    · exact hset _ _ trivial
  | receipt work identity =>
    have hkept : ∀ request records, save? (.locking work : Stage ι) = some (request, records) →
        KeptKeys request records := by
      intro request records hsave
      refine hs.kept request records ?_
      rw [hstage]
      cases work <;> exact hsave
    simp only [advance, hstage]
    rcases readReceipt_cases s c work identity with
      heq | ⟨-, -, heq⟩ | ⟨_, heq⟩ | ⟨_, -, heq⟩ <;> rw [heq]
    · rw [hstage]
      trivial
    · exact hset _ _ (compared_opened hkept)
    · exact hset _ _ trivial
    · exact hset _ _ trivial
  | checking request roles records todo =>
    rw [hstage] at hc
    simp only [advance, hstage]
    rcases checkKey_cases (h := h) s c request roles records todo with
      ⟨hdone, heq⟩ | ⟨tid, rest, htodo, ⟨heq, hsame⟩ | ⟨_, _, heq⟩⟩ <;> rw [heq]
    · refine hset s _ fun tid htid => hc tid htid ?_
      rw [hdone]
      exact List.not_mem_nil
    · refine hset s _ fun tid' htid' hdone => ?_
      by_cases htid : tid' = tid
      · by_cases hne : tid = ""
        · exact fun _ _ _ _ hne' => absurd (htid.trans hne) hne'
        · rw [htid]
          refine untouched_of_same htimes hs.log_ordered.1
            (fun w hw => (hs.log_ordered.2 w hw).1) fun fields expected hfields hlookup => ?_
          rw [← hi.rows, ← viewOf_time s.tables hne]
          exact hsame fields expected hfields hlookup
      · refine hc tid' htid' ?_
        rw [htodo]
        exact fun hin => (List.mem_cons.mp hin).elim htid hdone
    · exact hconcluded _ _ _
  | resolving request =>
    simp only [advance, hstage]
    cases indexedMethods h.external s.tables request.tournamentIds request.methods <;>
      exact hset _ _ trivial
  | fetching request methods =>
    simp only [advance, hstage]
    rcases fetchAndRun_cases (h := h) s c request methods with
      ⟨_, heq⟩ | ⟨_, heq⟩ | ⟨_, _, _, -, -, -, heq⟩ <;> rw [heq]
    · exact hset _ _ trivial
    · exact hconcluded _ _ _
    · exact hset _ _ trivial
  | writing work reply ws todo =>
    rw [hstage] at hc
    simp only [advance, hstage]
    rcases saveNext_cases (h := h) s c work reply ws todo with
      ⟨-, heq⟩ | ⟨_, _, _, -, ⟨_, heq⟩ | ⟨_, heq⟩ | ⟨w, hw, heq⟩⟩ <;> rw [heq]
    · exact hconcluded _ _ _
    · exact hset _ _ trivial
    · exact hconcluded _ _ _
    · refine hset _ _ ?_
      cases work with
      | queue request => trivial
      | save request roles records =>
        intro tid htid
        have hold := hc tid htid
        unfold State.put
        cases (Work.save request roles records).isDurable with
        | true => exact hold
        | false =>
          have hown : ∀ v ∈ [w], v.id = tid → v.call = c := by
            intro v hv _
            rw [List.mem_singleton.mp hv]
            exact (nextWrite_spec hw).1
          exact hold.append hown

/-- One disciplined step keeps what the calls have compared. -/
theorem compared_step {start : Tables} (htimes : DistinctTimes h start) (s : State ι)
    (a : WriteAction ι) (hd : Disciplined h s a)
    (hi : Inv h start s ∧ ∀ c, Compared h start.tournaments s.log c (s.calls c)) :
    Inv h start (step h s a) ∧
      ∀ c, Compared h start.tournaments (step h s a).log c ((step h s a).calls c) := by
  obtain ⟨hinv, hc⟩ := hi
  refine ⟨inv_step s a hd hinv, fun c => ?_⟩
  have hset : ∀ stage : Stage ι, openedWork? stage = none →
      Compared h start.tournaments (s.setCall c stage).log c ((s.setCall c stage).calls c) := by
    intro stage hstage
    rw [setCall_calls, Function.update_self]
    exact compared_of_unlocked hstage
  have hover : ∀ (s' : State ι) (error : Thrown),
      Compared h start.tournaments (s'.abort c error).log c ((s'.abort c error).calls c) := by
    intro s' error
    rw [abort_calls, Function.update_self]
    trivial
  have hreject : Compared h start.tournaments (reject s c).log c ((reject s c).calls c) := by
    cases hstage : s.calls c with
    | idle => simp only [reject, hstage, Compared]
    | ended outcome => simp only [reject, hstage, Compared]
    | attaching request roles attached todo =>
      cases todo with
      | nil =>
        simp only [reject, hstage]
        exact hover s _
      | cons entry todo =>
        simp only [reject, hstage]
        exact hset _ rfl
    | _ =>
      simp only [reject, hstage]
      exact hover s _
  by_cases hcall : a.call? = some c
  · cases a with
    | save d request =>
      obtain rfl : d = c := Option.some.inj hcall
      cases hstage : s.calls d with
      | idle =>
        simp only [step, hstage]
        refine hset _ ?_
        unfold arriveSave
        split_ifs
        · rfl
        · rfl
        · cases request.userContext <;> rfl
      | _ => simpa only [step, hstage] using hc d
    | queue d payload =>
      obtain rfl : d = c := Option.some.inj hcall
      cases hstage : s.calls d with
      | idle =>
        simp only [step, hstage]
        refine hset _ ?_
        unfold arriveQueue
        split <;> rfl
      | _ => simpa only [step, hstage] using hc d
    | advance d =>
      obtain rfl : d = c := Option.some.inj hcall
      exact compared_advance htimes hinv (hc d)
    | reject d =>
      obtain rfl : d = c := Option.some.inj hcall
      exact hreject
    | lose d =>
      obtain rfl : d = c := Option.some.inj hcall
      cases hstage : s.calls d with
      | idle => simpa only [step, hstage] using hc d
      | ended outcome => simpa only [step, hstage] using hc d
      | attaching request roles attached todo =>
        cases todo with
        | nil => simpa only [step, hstage] using hover (advance h s d) _
        | cons entry todo => simpa only [step, hstage] using hreject
      | _ => simpa only [step, hstage] using hover (advance h s d) _
    | outside tables roles => cases hcall
  · rw [step_calls_other hcall]
    cases hother : a.call? with
    | none =>
      cases a with
      | outside tables roles => exact hc c
      | _ => cases hother
    | some d =>
      have hne : c ≠ d := fun heq => hcall (hother.trans (congrArg some heq.symm))
      have hm := moves_step hd hother hinv.now (hinv.calls d) hinv.receipts
      exact (hc c).transfer (hinv.calls c) (hm.leaves hne)

/-- A durable save that is refused has a valid identity, and answers the refusal. -/
theorem conclude_refused {s : State ι} {c : ι} {work : Work} {result : Option Json}
    (hidentity : work.isDurable = true → ∃ identity, identityOf work.payload = some identity)
    (hrefused : succeeded result = false)
    (hfinal : truthy (chain result "retryable") = false) :
    s.conclude h c work [] result = (s.release c).setCall c (.ended (.ok result)) := by
  unfold State.conclude
  cases hdurable : work.isDurable with
  | false => rfl
  | true =>
    obtain ⟨identity, hi⟩ := hidentity hdurable
    rw [if_pos rfl, hi]
    dsimp only
    rw [if_neg (by simp [hrefused]), if_neg (by simp [hfinal])]

/-- What the invariant says about a step. -/
theorem conditional_of_inv {start : Tables} (s : State ι) (a : WriteAction ι)
    (hi : Inv h start s ∧ ∀ c, Compared h start.tournaments s.log c (s.calls c)) :
    Conditional h start.tournaments s a where
  untouched c request roles records reply ws todo _ hstage tid htid := by
    have hc := hi.2 c
    rw [hstage] at hc
    exact hc tid htid
  refused c request roles records tid todo fields expected ha hstage hne hfields hlookup hother := by
    have hs := hi.1.calls c
    have hidentity : (Work.save request roles records).isDurable = true →
        ∃ identity, identityOf request.params = some identity := by
      intro hdurable
      rw [hstage] at hs
      obtain ⟨identity, hid, -⟩ := hs.command _ rfl hdurable
      exact ⟨identity, hid⟩
    have hstep : step h s a = (s.release c).setCall c (.ended (.ok (some (conflictAnswer tid expected
        (((timeRead h s.tables.tournaments tid).map .str).getD .null))))) := by
      have htime := viewOf_time (h := h) s.tables hne
      rw [ha]
      simp only [step, advance, hstage, checkKey, hfields, Option.getD_some, hlookup, htime, hother]
      rw [if_neg (by simp)]
      exact conclude_refused hidentity
        (by simp [succeeded, chain, conflictAnswer, Json.field?, truthy])
        (by simp [chain, conflictAnswer, Json.field?, truthy])
    rw [hstep]
    refine ⟨by rw [setCall_calls, Function.update_self], hs.quiet ?_⟩
    rw [hstage]
    rfl
  resent c work identity entry ha hstage hentry hactor hcommand hfingerprint := by
    obtain ⟨hreceipt, hfree⟩ := hi.1.receipts entry hentry
    rw [hactor, hcommand] at hreceipt hfree
    rw [ha]
    simp only [step, advance, hstage, readReceipt, hfree, hreceipt, if_true, hfingerprint]
    rw [if_neg (by simp), setCall_calls, Function.update_self]

/-- Among writers that take locks: a save that names the times at which its tournaments
were last written overwrites nothing its client has not seen; a save that finds another
time is refused as a whole; and a committed command is answered again. -/
theorem saves_conditionally (h : Host) (tables : Tables) (roles : String → List (String × String))
    (actions : List (WriteAction ι)) (htimes : DistinctTimes h tables)
    (hmeets : RunMeets (step h) (Disciplined h) (State.start tables roles) actions) :
    RunMeets (step h) (Conditional h tables.tournaments) (State.start tables roles) actions :=
  run_meets (compared_step htimes) (fun s a _ hi => conditional_of_inv s a hi) hmeets
    ⟨inv_start tables roles, fun _ => trivial⟩

end Calls

/-! ## A time nobody compares -/

/-- The director `a` creates the tournament `t`, which must not exist yet. -/
def creation : SaveRequest :=
  saveOf "a" "t" (.obj [("expectedServerUpdatedAt", .obj [("t", .null)])])

/-- Alone, a save is disciplined as long as it is no mutation. -/
theorem disciplined_alone {s : State Unit} {a : WriteAction Unit}
    (ha : a = .save () creation ∨ a = .advance ())
    (hsave : ∀ request reply ws todo, s.calls () ≠ .writing (.queue request) reply ws todo) :
    Disciplined plainHost s a where
  named c request hcall entry hentry := by
    rcases ha with rfl | rfl
    · cases hcall
      rw [List.mem_singleton.mp hentry]
      rfl
    · cases hcall
  locked c request reply ws key record todo w _ hstage := absurd hstage (hsave _ _ _ _)
  outside tables roles hout := by rcases ha with rfl | rfl <;> cases hout

/-- The creation is accepted: from its arrival to its answer it is disciplined. -/
theorem saves_conditionally_creation :
    RunMeets (step plainHost) (Conditional plainHost emptyTables.tournaments)
      (State.start emptyTables fun _ => [])
      (.save () creation :: List.replicate 9 (.advance ())) := by
  apply saves_conditionally
  · exact distinctTimes_plain _ fun id row hrow => nomatch hrow
  · have hadvance : ∀ s : State Unit, (∀ request reply ws todo,
        s.calls () ≠ .writing (.queue request) reply ws todo) →
        Disciplined plainHost s (.advance ()) := fun s hs => disciplined_alone (Or.inr rfl) hs
    refine ⟨disciplined_alone (Or.inl rfl) ?_, hadvance _ ?_, hadvance _ ?_, hadvance _ ?_,
      hadvance _ ?_, hadvance _ ?_, hadvance _ ?_, hadvance _ ?_, hadvance _ ?_, hadvance _ ?_,
      trivial⟩
    all_goals exact fun _ _ _ _ hstage => nomatch hstage

/-- The tournament `u` is stored; a save of `t` names the time of `u` as well. -/
def foreignTime : SaveRequest :=
  saveOf "b" "t" (.obj [("expectedServerUpdatedAt", .obj [("u", .str "0")])])

/-- Its creator saves `u`, and then the save of `t` goes on to write. -/
def overtaken : List (WriteAction Bool) :=
  .save true (saveOf "a" "u" (.obj [])) :: List.replicate 8 (.advance true) ++
    .save false foreignTime :: List.replicate 7 (.advance false)

/-- The save of `t` is not refused, although `u` has changed. -/
theorem unsaved_time_ignored :
    ¬ ∀ actions : List (WriteAction Bool),
      RunMeets (step plainHost) (NamedUntouched plainHost (createdBy "a" "u").tournaments)
        (State.start (createdBy "a" "u") fun _ => []) actions := by
  intro hall
  have hlast := runMeets_last (hall (overtaken ++ [.advance false]))
  have huntouched := hlast false foreignTime _ _ _ _ _ (Or.inl rfl) rfl "u" _ _ rfl rfl (by decide)
    [] _ rfl (by decide) _ List.mem_cons_self rfl
  exact absurd huntouched (by decide)

end FactoryServer.ConditionalSaves
