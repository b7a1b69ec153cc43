import FactoryServer.ConcurrentWrites

/-!
# The authority of a wholesale save

The gate of a wholesale save decides on the stored row it reads before the locks
are taken, and copies the creator of that row into the record. What the save then
replaces is the row it finds under its lock. The two are the same row when nothing
else has written it in between.
-/

namespace FactoryServer.SaveAuthority

open JsonValue TournamentAccess CommandTransaction CommandReceipts StorageTables TournamentStorage
  ExecutionQueue MutationGate CallbackOutcomes DurableSave GuardedRuns ConcurrentWrites

/-! ## Creators -/

/-- The creator after `setCreatedByUserId`. -/
theorem creator_setCreatedByUserId (record : TournamentRecord) (userId : Option Json) :
    getCreatedByUserId (setCreatedByUserId record userId) =
      if truthy userId then userId else none := by
  have hothers : (record.extensions.filter fun e => e.name != CREATED_BY_USER_ID).find?
      (fun e => e.name == CREATED_BY_USER_ID) = none := by
    rw [List.find?_eq_none]
    intro e he
    have hne : (e.name != CREATED_BY_USER_ID) = true := (List.mem_filter.mp he).2
    simpa using hne
  unfold getCreatedByUserId setCreatedByUserId
  cases ht : truthy userId with
  | false => simp [hothers]
  | true =>
    cases userId with
    | none => cases ht
    | some value => simp [List.find?_append, hothers]

/-- The creator after `stampCreatedBy`. -/
theorem creator_stampCreatedBy (userId : Option String) (record : TournamentRecord) :
    getCreatedByUserId (stampCreatedBy userId record) =
      (getCreatedByUserId record).orElse fun _ => (nonEmpty userId).map Json.str := by
  unfold stampCreatedBy
  cases hu : nonEmpty userId with
  | none => cases getCreatedByUserId record <;> rfl
  | some user =>
    dsimp only
    unfold getCreatedByUserId
    cases hf : record.extensions.find? fun e => e.name == CREATED_BY_USER_ID with
    | none => simp [List.find?_append, hf]
    | some e => simp [hf]

/-- The decision on a tournament reads its provider, its creator and its id. -/
theorem canMutateTournament_congr {scoping : Bool} {a b : TournamentRecord}
    {userContext : Option UserContext} {roles : List (String × String)} {methods : List String}
    (hp : getTournamentProviderId a = getTournamentProviderId b)
    (hc : getCreatedByUserId a = getCreatedByUserId b)
    (hi : tournamentIdOf a = tournamentIdOf b) :
    canMutateTournament scoping a userContext roles methods =
      canMutateTournament scoping b userContext roles methods := by
  unfold canMutateTournament canViewTournament
  rw [hp, hc, hi]

variable {ι : Type} (h : Host)

/-! ## What is claimed -/

/-- Authority over a stored row: the row as it is decided on. -/
def MayReplace (request : SaveRequest) (assignedRoles : List (String × String)) (tid : String)
    (row : TournamentRow) : Prop :=
  canMutateTournament h.scoping { row.record with tournamentId := some (.str tid) }
    request.userContext assignedRoles [] = true

/-- The step lets a save replace a stored row. -/
def Replaces (s : State ι) (a : WriteAction ι) (request : SaveRequest)
    (assignedRoles : List (String × String)) (w : Write ι) (row : TournamentRow) : Prop :=
  ∃ c records reply written key record todo, (a = .advance c ∨ a = .lose c) ∧
    s.calls c =
      .writing (.save request assignedRoles records) reply written ((key, record) :: todo) ∧
    nextWrite h s c (.save request assignedRoles records) written key record = .ok (.ok w) ∧
    rowSeen s.tables (.save request assignedRoles records) written w.id = some row

/-- A save replaces only what its user may modify, and keeps the creator. -/
def Authorized (s : State ι) (a : WriteAction ι) : Prop :=
  ∀ request assignedRoles w row, Replaces h s a request assignedRoles w row →
    MayReplace h request assignedRoles w.id row ∧
      getCreatedByUserId w.row.record = getCreatedByUserId row.record

/-! ## The condition -/

/-- The save request and the records that have passed its gate and are still to be written. -/
def passed? : Stage ι → Option (SaveRequest × RecordMap)
  | .gating request _ _ gated _ => some (request, gated)
  | .attaching request _ attached todo => some (request, attached ++ todo)
  | .locking (.save request _ records) => some (request, records)
  | .receipt (.save request _ records) _ => some (request, records)
  | .checking request _ records _ => some (request, records)
  | .writing (.save request _ _) _ _ todo => some (request, todo)
  | _ => none

/-- A save that takes over the creator of the row writes that creator. -/
def KeepsCreator (request : SaveRequest) (row : TournamentRow) : Prop :=
  truthy (getCreatedByUserId row.record) = true ∨
    (getCreatedByUserId row.record = none ∧ nonEmpty request.userId = none)

/-- What a step must meet for the gate to have decided on what is overwritten. -/
structure Vouched [DecidableEq ι] (s : State ι) (a : WriteAction ι) : Prop where
  /-- A save comes with a context, and each record under its own id. -/
  identified : ∀ c request, a = .save c request →
    request.userContext.isSome = true ∧ ∀ entry ∈ request.records, Named entry
  /-- The gate reads a row that names its creator. -/
  created : ∀ c request ctx roles gated tid record todo row, a = .advance c →
    s.calls c = .gating request ctx roles gated ((tid, record) :: todo) →
    s.tables.tournaments tid = some row → KeepsCreator request row
  /-- Between the gate of a save and its write nobody else touches the row. -/
  undisturbed : ∀ c request records, passed? (s.calls c) = some (request, records) →
    a.call? ≠ some c → ∀ entry ∈ records,
      (step h s a).tables.tournaments entry.1 = s.tables.tournaments entry.1

/-! ## The invariant -/

/-- The row stored under the id of a record is one the gate has decided on. -/
def Vetted (rows : String → Option TournamentRow) (request : SaveRequest)
    (roles : List (String × String)) (entry : String × TournamentRecord) : Prop :=
  entry.1 ≠ "" → ∀ row, rows entry.1 = some row → MayReplace h request roles entry.1 row ∧
    getCreatedByUserId (stampCreatedBy request.userId entry.2) = getCreatedByUserId row.record

/-- Records that have passed the gate. -/
structure PassedGate (rows : String → Option TournamentRow) (request : SaveRequest)
    (roles : List (String × String)) (records : RecordMap) : Prop where
  keys : (records.map Prod.fst).Nodup
  named : ∀ entry ∈ records, Named entry
  vetted : ∀ entry ∈ records, Vetted h rows request roles entry

/-- What holds of a call in each of its stages. -/
def StageHolds (rows : String → Option TournamentRow) : Stage ι → Prop
  | .gating request ctx roles gated todo =>
    request.userContext = some ctx ∧ ((gated ++ todo).map Prod.fst).Nodup ∧
      (∀ entry ∈ gated ++ todo, Named entry) ∧ ∀ entry ∈ gated, Vetted h rows request roles entry
  | .attaching request roles attached todo => PassedGate h rows request roles (attached ++ todo)
  | .locking (.save request roles records) => PassedGate h rows request roles records
  | .receipt (.save request roles records) _ => PassedGate h rows request roles records
  | .checking request roles records _ => PassedGate h rows request roles records
  | .writing (.save request roles _) _ written todo => PassedGate h rows request roles todo ∧
      ∀ w ∈ written, ∀ entry ∈ todo, w.id ≠ entry.1
  | _ => True

/-- What holds after every step that meets the condition. -/
def Inv (s : State ι) : Prop := ∀ c, StageHolds h s.tables.tournaments (s.calls c)

variable {h}

theorem Vetted.congr {rows rows' : String → Option TournamentRow} {request : SaveRequest}
    {roles : List (String × String)} {entry : String × TournamentRecord}
    (hv : Vetted h rows request roles entry) (heq : rows' entry.1 = rows entry.1) :
    Vetted h rows' request roles entry := by
  intro hne row hrow
  rw [heq] at hrow
  exact hv hne row hrow

theorem PassedGate.congr {rows rows' : String → Option TournamentRow} {request : SaveRequest}
    {roles : List (String × String)} {records : RecordMap}
    (hp : PassedGate h rows request roles records)
    (heq : ∀ entry ∈ records, rows' entry.1 = rows entry.1) :
    PassedGate h rows' request roles records :=
  ⟨hp.keys, hp.named, fun entry he => (hp.vetted entry he).congr (heq entry he)⟩

/-- The stage of a call depends on the rows of the records that have passed its gate. -/
theorem StageHolds.congr {rows rows' : String → Option TournamentRow} {stage : Stage ι}
    (hs : StageHolds h rows stage)
    (heq : ∀ request records, passed? stage = some (request, records) →
      ∀ entry ∈ records, rows' entry.1 = rows entry.1) : StageHolds h rows' stage := by
  cases stage with
  | gating request ctx roles gated todo =>
    obtain ⟨hctx, hkeys, hnamed, hvetted⟩ := hs
    exact ⟨hctx, hkeys, hnamed, fun entry he => (hvetted entry he).congr (heq _ _ rfl entry he)⟩
  | attaching request roles attached todo => exact PassedGate.congr hs (heq _ _ rfl)
  | locking work =>
    cases work with
    | save request roles records => exact PassedGate.congr hs (heq _ _ rfl)
    | queue request => trivial
  | receipt work identity =>
    cases work with
    | save request roles records => exact PassedGate.congr hs (heq _ _ rfl)
    | queue request => trivial
  | checking request roles records todo => exact PassedGate.congr hs (heq _ _ rfl)
  | writing work reply written todo =>
    cases work with
    | save request roles records => exact ⟨hs.1.congr (heq _ _ rfl), hs.2⟩
    | queue request => trivial
  | _ => trivial

/-! ## The gate -/

/-- The gate's record of a stored row decides like the row. -/
theorem mayReplace_iff {request : SaveRequest} {ctx : UserContext} {roles : List (String × String)}
    {tid : String} {row : TournamentRow} (hctx : request.userContext = some ctx) :
    MayReplace h request roles tid row ↔
      canMutateTournament h.scoping { viewRecord (row.updatedAtView tid) with
        tournamentId := some (.str tid) } (some ctx) roles [] = true := by
  have hprovider : getTournamentProviderId (viewRecord (row.updatedAtView tid)) =
      getTournamentProviderId row.record := by
    change nonEmpty (nonEmpty row.record.organisationId) = nonEmpty row.record.organisationId
    cases row.record.organisationId with
    | none => rfl
    | some providerId => by_cases hp : providerId = "" <;> simp [nonEmpty, Option.filter, hp]
  unfold MayReplace
  rw [hctx]
  exact Eq.congr_left (canMutateTournament_congr hprovider.symm rfl rfl)

/-- What passes the gate is vetted. -/
theorem vetted_gateRecord {rows : Tables} {request : SaveRequest} {ctx : UserContext}
    {roles : List (String × String)} {tid : String} {record record' : TournamentRecord}
    (hctx : request.userContext = some ctx)
    (hkeeps : ∀ row, rows.tournaments tid = some row → KeepsCreator request row)
    (hgate : gateRecord h ctx roles tid record (viewOf rows tid) = some record') :
    record'.tournamentId = record.tournamentId ∧
      Vetted h rows.tournaments request roles (tid, record') := by
  unfold viewOf at hgate
  by_cases hempty : tid = ""
  · rw [if_pos hempty] at hgate
    cases hgate
    exact ⟨rfl, fun hne => absurd hempty hne⟩
  rw [if_neg hempty] at hgate
  simp only [exec] at hgate
  cases hrow : rows.tournaments tid with
  | none =>
    rw [hrow] at hgate
    cases hgate
    exact ⟨rfl, fun _ row hr => by rw [hrow] at hr; cases hr⟩
  | some row =>
    rw [hrow] at hgate
    simp only [gateRecord, Option.map_some] at hgate
    split_ifs at hgate with hcan
    cases hgate
    refine ⟨rfl, fun _ row' hr => ?_⟩
    rw [hrow] at hr
    cases hr
    refine ⟨(mayReplace_iff hctx).mpr hcan, ?_⟩
    have hstored : getCreatedByUserId { viewRecord (row.updatedAtView tid) with
        tournamentId := some (.str tid) } = getCreatedByUserId row.record := rfl
    rw [creator_stampCreatedBy, hstored, creator_setCreatedByUserId]
    rcases hkeeps row hrow with htruthy | ⟨hnone, huser⟩
    · rw [if_pos htruthy]
      cases hc : getCreatedByUserId row.record with
      | none => rw [hc] at htruthy; cases htruthy
      | some creator => rfl
    · rw [hnone, huser]
      rfl

/-- A record that keeps its id and its creator stays as vetted as it was. -/
theorem PassedGate.replace {rows : String → Option TournamentRow} {request : SaveRequest}
    {roles : List (String × String)} {attached todo : RecordMap} {tid : String}
    {record record' : TournamentRecord}
    (hp : PassedGate h rows request roles (attached ++ (tid, record) :: todo))
    (hid : record'.tournamentId = record.tournamentId)
    (hcreator : getCreatedByUserId record' = getCreatedByUserId record) :
    PassedGate h rows request roles ((attached ++ [(tid, record')]) ++ todo) := by
  have hkeys : (((attached ++ [(tid, record')]) ++ todo).map Prod.fst) =
      (attached ++ (tid, record) :: todo).map Prod.fst := by simp
  have hold : ∀ entry ∈ attached ++ [(tid, record')] ++ todo,
      entry ∈ attached ++ (tid, record) :: todo ∨ entry = (tid, record') := by
    intro entry he
    simp only [List.mem_append, List.mem_cons, List.not_mem_nil, or_false] at he ⊢
    tauto
  have hmem : (tid, record) ∈ attached ++ (tid, record) :: todo := by simp
  refine ⟨hkeys ▸ hp.keys, fun entry he => ?_, fun entry he => ?_⟩
  · rcases hold entry he with hin | rfl
    · exact hp.named entry hin
    · exact hid.trans (hp.named _ hmem)
  · rcases hold entry he with hin | rfl
    · exact hp.vetted entry hin
    · intro hne row hrow
      obtain ⟨hmay, hkeep⟩ := hp.vetted _ hmem hne row hrow
      refine ⟨hmay, ?_⟩
      rw [creator_stampCreatedBy] at hkeep ⊢
      rw [← hkeep, hcreator]

/-! ## The steps of a call -/

/-- The work that opens is as vetted as the records it was asked for. -/
theorem holds_opened {rows : String → Option TournamentRow} {work : Work}
    (hs : StageHolds h rows (.locking work : Stage ι)) : StageHolds h rows (opened work : Stage ι) := by
  cases work with
  | queue request => trivial
  | save request roles records =>
    cases hf : expectedFields (request.params.field? "expectedServerUpdatedAt") with
    | none =>
      simp only [opened, hf]
      exact hs
    | some fields =>
      simp only [opened, hf]
      exact hs

/-- A save that arrives is identified, and nothing of it has passed the gate. -/
theorem holds_arriveSave {s : State ι} {request : SaveRequest}
    (hctx : request.userContext.isSome = true) (hnamed : ∀ entry ∈ request.records, Named entry) :
    StageHolds h s.tables.tournaments (arriveSave s request) := by
  unfold arriveSave
  split_ifs
  · trivial
  · trivial
  · cases hc : request.userContext with
    | none => rw [hc] at hctx; cases hctx
    | some ctx =>
      exact ⟨hc, request.keys_nodup, hnamed, fun entry he => absurd he List.not_mem_nil⟩

/-- A mutation has no gate of its own. -/
theorem holds_arriveQueue (rows : String → Option TournamentRow) (payload : Json) :
    StageHolds h rows (arriveQueue h payload : Stage ι) := by
  unfold arriveQueue
  split <;> trivial

/-- A record that is written leaves the rows of the records to come. -/
theorem holds_put {s : State ι} {c : ι} {work : Work} {reply : Reply} {written : List (Write ι)}
    {key : String} {record : TournamentRecord} {rest : RecordMap} {w : Write ι}
    (hs : StageHolds h s.tables.tournaments (.writing work reply written ((key, record) :: rest)))
    (hw : nextWrite h s c work written key record = .ok (.ok w)) :
    StageHolds h (s.put work w).tables.tournaments (.writing work reply (written ++ [w]) rest) := by
  cases work with
  | queue request => trivial
  | save request roles records =>
    obtain ⟨hp, hdistinct⟩ := hs
    obtain ⟨-, hwrite⟩ := nextWrite_named (hp.named _ List.mem_cons_self) hw
    have hid : w.id = key := by rw [hwrite]
    have hkeys := List.nodup_cons.mp hp.keys
    have hne : ∀ entry ∈ rest, w.id ≠ entry.1 := by
      intro entry he heq
      have hmem : entry.1 ∈ rest.map Prod.fst := List.mem_map_of_mem he
      rw [← heq, hid] at hmem
      exact hkeys.1 hmem
    refine ⟨⟨hkeys.2, fun entry he => hp.named entry (List.mem_cons_of_mem _ he),
      fun entry he => ?_⟩, fun v hv entry he => ?_⟩
    · have hrow : (s.put (.save request roles records) w).tables.tournaments entry.1 =
          s.tables.tournaments entry.1 := put_tournaments_of_ne (hne entry he)
      exact (hp.vetted entry (List.mem_cons_of_mem _ he)).congr hrow
    · rcases List.mem_append.mp hv with hold | hnew
      · exact hdistinct v hold entry (List.mem_cons_of_mem _ he)
      · rw [List.mem_singleton.mp hnew]
        exact hne entry he

variable [DecidableEq ι]

/-- A call that is over needs nothing. -/
theorem holds_concluded (rows : String → Option TournamentRow) (s : State ι) (c : ι) (work : Work)
    (written : List (Write ι)) (result : Option Json) :
    StageHolds h rows ((s.conclude h c work written result).calls c) := by
  obtain ⟨outcome, houtcome⟩ := conclude_calls (h := h) s c work written result
  rw [houtcome, Function.update_self]
  trivial

/-- A call that is answered stays vetted. -/
theorem holds_advance {s : State ι} {c : ι} (hv : Vouched h s (.advance c))
    (hs : StageHolds h s.tables.tournaments (s.calls c)) :
    StageHolds h (advance h s c).tables.tournaments ((advance h s c).calls c) := by
  have hset : ∀ (s' : State ι) (stage : Stage ι), StageHolds h s'.tables.tournaments stage →
      StageHolds h (s'.setCall c stage).tables.tournaments ((s'.setCall c stage).calls c) := by
    intro s' stage hstage
    rw [setCall_calls, Function.update_self]
    exact hstage
  have hover : ∀ (s' : State ι) (error : Thrown),
      StageHolds h (s'.abort c error).tables.tournaments ((s'.abort c error).calls c) :=
    fun s' error => hset (s'.release c) _ trivial
  have hconcluded : ∀ work written result,
      StageHolds h (s.conclude h c work written result).tables.tournaments
        ((s.conclude h c work written result).calls c) := fun work written result =>
    holds_concluded _ s c work written result
  cases hstage : s.calls c with
  | idle => simp only [advance, hstage, StageHolds]
  | ended outcome => simp only [advance, hstage, StageHolds]
  | gating request ctx roles gated todo =>
    rw [hstage] at hs
    obtain ⟨hctx, hkeys, hnamed, hvetted⟩ := hs
    cases todo with
    | nil =>
      simp only [advance, hstage]
      rw [List.append_nil] at hkeys hnamed
      exact hset s _ ⟨hkeys, hnamed, hvetted⟩
    | cons entry todo =>
      simp only [advance, hstage]
      cases hgate : gateRecord h ctx roles entry.1 entry.2 (viewOf s.tables entry.1) with
      | none => exact hset s _ trivial
      | some record =>
        obtain ⟨hid, hnew⟩ := vetted_gateRecord hctx (fun row hrow =>
          hv.created c request ctx roles gated entry.1 entry.2 todo row rfl hstage hrow) hgate
        have hmap : (((gated ++ [(entry.1, record)]) ++ todo).map Prod.fst) =
            (gated ++ entry :: todo).map Prod.fst := by simp
        refine hset s _ ⟨hctx, hmap ▸ hkeys, fun e he => ?_, fun e he => ?_⟩
        · simp only [List.mem_append, List.mem_singleton] at he
          rcases he with (hin | rfl) | hin
          · exact hnamed e (List.mem_append_left _ hin)
          · exact hid.trans (hnamed entry (List.mem_append_right _ List.mem_cons_self))
          · exact hnamed e (List.mem_append_right _ (List.mem_cons_of_mem _ hin))
        · rcases List.mem_append.mp he with hin | hin
          · exact hvetted e hin
          · rw [List.mem_singleton.mp hin]
            exact hnew
  | attaching request roles attached todo =>
    rw [hstage] at hs
    cases todo with
    | nil =>
      simp only [advance, hstage]
      have hp : PassedGate h s.tables.tournaments request roles attached := by
        simpa [StageHolds] using hs
      split_ifs
      · exact hset s _ hp
      · exact hset s _ trivial
    | cons entry todo =>
      simp only [advance, hstage]
      have hkeeps := attach_keeps (h := h) s.tables entry.2
      exact hset s _ (PassedGate.replace hs hkeeps.1 hkeeps.2)
  | locking work =>
    rw [hstage] at hs
    simp only [advance, hstage]
    rcases acquire_cases (h := h) s c work with
      heq | ⟨-, ⟨_, heq⟩ | ⟨-, heq⟩ | ⟨_, -, heq⟩⟩ <;> rw [heq]
    · rw [hstage]
      exact hs
    · exact hover _ _
    · exact hset _ _ (holds_opened hs)
    · refine hset _ _ ?_
      cases work <;> exact hs
  | receipt work identity =>
    rw [hstage] at hs
    have hlocking : StageHolds h s.tables.tournaments (.locking work : Stage ι) := by
      cases work <;> exact hs
    simp only [advance, hstage]
    rcases readReceipt_cases s c work identity with
      heq | ⟨-, -, heq⟩ | ⟨_, heq⟩ | ⟨_, -, heq⟩ <;> rw [heq]
    · rw [hstage]
      exact hs
    · exact hset _ _ (holds_opened hlocking)
    · exact hover _ _
    · exact hset _ _ trivial
  | checking request roles records todo =>
    rw [hstage] at hs
    simp only [advance, hstage]
    rcases checkKey_cases (h := h) s c request roles records todo with
      ⟨-, heq⟩ | ⟨_, _, -, ⟨heq, -⟩ | ⟨_, _, heq⟩⟩ <;> rw [heq]
    · exact hset _ _ ⟨hs, fun w hw => absurd hw List.not_mem_nil⟩
    · exact hset _ _ hs
    · exact hconcluded _ _ _
  | resolving request =>
    simp only [advance, hstage]
    cases indexedMethods h.external s.tables request.tournamentIds request.methods with
    | none => exact hover _ _
    | some methods => exact hset _ _ trivial
  | fetching request methods =>
    simp only [advance, hstage]
    rcases fetchAndRun_cases (h := h) s c request methods with
      ⟨_, heq⟩ | ⟨_, heq⟩ | ⟨_, _, _, -, -, -, heq⟩ <;> rw [heq]
    · exact hover _ _
    · exact hconcluded _ _ _
    · exact hset _ _ trivial
  | writing work reply written todo =>
    rw [hstage] at hs
    simp only [advance, hstage]
    rcases saveNext_cases (h := h) s c work reply written todo with
      ⟨-, heq⟩ | ⟨_, _, _, htodo, ⟨_, heq⟩ | ⟨_, heq⟩ | ⟨w, hw, heq⟩⟩ <;> rw [heq]
    · exact hconcluded _ _ _
    · exact hover _ _
    · exact hconcluded _ _ _
    · rw [htodo] at hs
      exact hset _ _ (holds_put hs hw)

/-- A call whose await is rejected is over, or goes on with the record as it is. -/
theorem holds_reject {s : State ι} {c : ι} (hs : StageHolds h s.tables.tournaments (s.calls c)) :
    StageHolds h (reject s c).tables.tournaments ((reject s c).calls c) := by
  have hset : ∀ stage : Stage ι, StageHolds h s.tables.tournaments stage →
      StageHolds h (s.setCall c stage).tables.tournaments ((s.setCall c stage).calls c) := by
    intro stage hstage
    rw [setCall_calls, Function.update_self]
    exact hstage
  have hover : ∀ error : Thrown,
      StageHolds h (s.abort c error).tables.tournaments ((s.abort c error).calls c) := by
    intro error
    rw [abort_calls, Function.update_self]
    trivial
  cases hstage : s.calls c with
  | idle =>
    simp only [reject, hstage, StageHolds]
  | ended outcome =>
    simp only [reject, hstage, StageHolds]
  | attaching request roles attached todo =>
    rw [hstage] at hs
    simp only [reject, hstage]
    cases todo with
    | nil => exact hover _
    | cons entry todo =>
      refine hset _ ?_
      have happend : attached ++ [entry] ++ todo = attached ++ entry :: todo := by simp
      simpa only [StageHolds, happend] using hs
  | _ =>
    simp only [reject, hstage]
    exact hover _

/-- One step that meets the condition keeps every call vetted. -/
theorem inv_step (s : State ι) (a : WriteAction ι) (hv : Vouched h s a) (hi : Inv h s) :
    Inv h (step h s a) := by
  intro d
  by_cases hd : a.call? = some d
  · have hs := hi d
    cases a with
    | save c request =>
      have hcd : c = d := Option.some.inj hd
      subst hcd
      cases hstage : s.calls c with
      | idle =>
        obtain ⟨hctx, hnamed⟩ := hv.identified c request rfl
        simp only [step, hstage, setCall_tables, setCall_calls, Function.update_self]
        exact holds_arriveSave hctx hnamed
      | _ => simpa only [step, hstage] using hs
    | queue c payload =>
      have hcd : c = d := Option.some.inj hd
      subst hcd
      cases hstage : s.calls c with
      | idle =>
        simp only [step, hstage, setCall_tables, setCall_calls, Function.update_self]
        exact holds_arriveQueue _ payload
      | _ => simpa only [step, hstage] using hs
    | advance c =>
      have hcd : c = d := Option.some.inj hd
      subst hcd
      exact holds_advance hv hs
    | reject c =>
      have hcd : c = d := Option.some.inj hd
      subst hcd
      exact holds_reject hs
    | lose c =>
      have hcd : c = d := Option.some.inj hd
      subst hcd
      have hover : StageHolds h ((advance h s c).abort c (.error "database error")).tables.tournaments
          (((advance h s c).abort c (.error "database error")).calls c) := by
        rw [abort_calls, Function.update_self]
        trivial
      cases hstage : s.calls c with
      | idle => simpa only [step, hstage] using hs
      | ended outcome => simpa only [step, hstage] using hs
      | attaching request roles attached todo =>
        cases todo with
        | nil => simpa only [step, hstage] using hover
        | cons entry todo => simpa only [step, hstage] using holds_reject hs
      | _ => simpa only [step, hstage] using hover
    | outside tables roles => cases hd
  · rw [step_calls_other hd]
    exact (hi d).congr fun request records hpassed entry he =>
      hv.undisturbed d request records hpassed hd entry he

/-! ## Whole runs -/

omit [DecidableEq ι] in
/-- What a save replaces is what its gate has decided on. -/
theorem authorized_of_inv (s : State ι) (a : WriteAction ι) (hi : Inv h s) : Authorized h s a := by
  rintro request roles w row ⟨c, records, reply, written, key, record, todo, -, hcall, hw, hseen⟩
  have hs := hi c
  rw [hcall] at hs
  obtain ⟨hp, hdistinct⟩ := hs
  obtain ⟨hne, hwrite⟩ := nextWrite_named (hp.named _ List.mem_cons_self) hw
  have hrow : s.tables.tournaments key = some row := by
    rw [hwrite, rowSeen_of_ne fun v hv => hdistinct v hv _ List.mem_cons_self] at hseen
    exact hseen
  obtain ⟨hmay, hcreator⟩ := hp.vetted _ List.mem_cons_self hne row hrow
  rw [hwrite]
  exact ⟨hmay, hcreator⟩

/-- However saves and other writes interleave: in a run whose steps all meet the
condition, every save that replaces a row may modify that row, and keeps its creator. -/
theorem saves_authorized (h : Host) (tables : Tables) (roles : String → List (String × String))
    (actions : List (WriteAction ι))
    (hmeets : RunMeets (step h) (Vouched h) (State.start tables roles) actions) :
    RunMeets (step h) (Authorized h) (State.start tables roles) actions :=
  run_meets inv_step (fun s a _ hi => authorized_of_inv s a hi) hmeets fun _ => trivial

/-! ## Two creations at once -/

/-- A director saves the tournament `t`. -/
def saveBy (userId : String) : SaveRequest := saveOf userId "t" (.obj [])

/-- The steps of a save from its gate up to its write. -/
def upToWrite {ι : Type} (c : ι) : List (WriteAction ι) := List.replicate 6 (.advance c)

/-- Alone on these tables, a save of `a` meets the condition. -/
theorem vouched_alone {s : State Unit} {a : WriteAction Unit} (htables : s.tables = createdBy "a" "t")
    (ha : a = .save () (saveBy "a") ∨ a = .advance ()) : Vouched plainHost s a where
  identified c request hsave := by
    rcases ha with rfl | rfl
    · cases hsave
      refine ⟨rfl, fun entry he => ?_⟩
      rw [List.mem_singleton.mp he]
      rfl
    · cases hsave
  created c request ctx roles gated tid record todo row _ _ hrow := by
    left
    rw [htables] at hrow
    by_cases ht : tid = "t"
    · rw [ht] at hrow
      cases hrow
      rfl
    · have hnone : (createdBy "a" "t").tournaments tid = none := by simp [createdBy, ht]
      rw [hnone] at hrow
      cases hrow
  undisturbed c request records _ hother := by
    rcases ha with rfl | rfl <;> exact absurd rfl hother

/-- The creator saves the tournament again, and nobody else is there. -/
theorem saves_authorized_alone :
    RunMeets (step plainHost) (Authorized plainHost)
      (State.start (createdBy "a" "t") fun _ => [])
      (.save () (saveBy "a") :: (upToWrite () ++ [.advance ()])) := by
  apply saves_authorized
  have hadvance : ∀ s : State Unit, s.tables = createdBy "a" "t" → Vouched plainHost s (.advance ()) :=
    fun s hs => vouched_alone hs (Or.inr rfl)
  exact ⟨vouched_alone rfl (Or.inl rfl), hadvance _ rfl, hadvance _ rfl, hadvance _ rfl,
    hadvance _ rfl, hadvance _ rfl, hadvance _ rfl, hadvance _ rfl, trivial⟩

/-- Two directors create the tournament, and both gates find nothing stored. -/
def twoCreations : List (WriteAction Bool) :=
  [.save false (saveBy "a"), .save true (saveBy "b"), .advance false, .advance true] ++
    (upToWrite false).tail ++ [.advance false, .advance false] ++ (upToWrite true).tail

/-- The second replaces the record of the first, which it may not modify. -/
theorem concurrent_creations_unauthorized :
    ¬ ∀ (tables : Tables) (actions : List (WriteAction Bool)),
      RunMeets (step plainHost) (Authorized plainHost) (State.start tables fun _ => []) actions := by
  intro hall
  have hlast := runMeets_last (hall emptyTables (twoCreations ++ [.advance true]))
  have hmay := (hlast _ _ _ _ ⟨true, _, _, _, _, _, _, Or.inl rfl, rfl, rfl, rfl⟩).1
  revert hmay
  unfold MayReplace
  decide

end FactoryServer.SaveAuthority
