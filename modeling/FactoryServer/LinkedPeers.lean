import FactoryServer.ProviderIsolation
import FactoryServer.StampChains

/-!
# Where the links of a tournament come from

The peers of a coordination view are the links stored in its context. Every write of a row
writes its links: a mutation those that the engine leaves, a wholesale save those of the
payload. This module follows each stored link to the write that has added it last. Under
their locks, writers keep the links of the rows they have read, so that only a run of
`linkTournaments` and a save that brings links of its own add any. A run of `linkTournaments`
has passed the gate, with the right of its sender on every stored row that it names.
-/

namespace FactoryServer.LinkedPeers

open JsonValue TournamentAccess CommandTransaction StorageTables TournamentStorage ExecutionQueue
  MutationGate CallbackOutcomes DurableSave GuardedRuns ConcurrentWrites LockDiscipline StampChains

open QueueGating (NamesIds ids_named)

open ProviderIsolation (passed_of_checkTournament)

/-- `method.method === 'linkTournaments'`. -/
def isLinkTournaments (method : Json) : Bool :=
  (method.field? "method").bind Json.str? == some "linkTournaments"

/-- What saves and mutations use, with a reading of `linkedTournamentIds`. -/
structure LinkServer where
  /-- The services. -/
  host : Host
  /-- What the gate uses besides the tables, the roles and the flag of the host. -/
  gate : GateState
  /-- `linkedTournamentIds`. -/
  linkedTournamentIds : TournamentRecord → List String
  /-- The links are no extension. -/
  links_stamped : ∀ userId record,
    linkedTournamentIds (stampCreatedBy userId record) = linkedTournamentIds record
  /-- The engine keeps each record under its own id. -/
  keysById : KeysById host.engine
  /-- Only `linkTournaments` adds links. -/
  links_kept : ∀ loaded methods rollbackOnError outcome,
    (host.engine.executionQueue loaded methods rollbackOnError).outcome = .ok outcome →
    methods.any isLinkTournaments = false → ∀ entry ∈ outcome.records,
    ∀ peer ∈ linkedTournamentIds entry.2, ∃ record, (entry.1, record) ∈ loaded ∧
      peer ∈ linkedTournamentIds record

variable {ι : Type} (server : LinkServer)

/-- The row has the link. -/
def HasLink (rows : String → Option TournamentRow) (id peer : String) : Prop :=
  ∃ row, rows id = some row ∧ peer ∈ server.linkedTournamentIds row.record

/-! ## The history of links -/

/-- The database with the calls on it, and what is known of the mutations. -/
structure LinkState (ι : Type) where
  /-- The saves and mutations. -/
  writes : ConcurrentWrites.State ι
  /-- History: the rows that the sender of a mutation could modify when it came. -/
  granted : ι → String → Bool
  /-- History: the engine has run `linkTournaments` for the call. -/
  linked : ι → Bool

/-- What happens next. -/
inductive LinkAction (ι : Type) where
  /-- A mutation gets to the queue, from this sender. -/
  | queue (c : ι) (userContext : Option UserContext) (payload : Json)
  /-- Anything else. -/
  | other (a : WriteAction ι)

/-- The action on the database. -/
def LinkAction.write : LinkAction ι → WriteAction ι
  | .queue c _ payload => .queue c payload
  | .other a => a

/-- The sender may run the methods on what is stored of the tournament, if anything is. -/
def mayMutate (s : ConcurrentWrites.State ι) (userContext : Option UserContext)
    (methods : List Json) (id : String) : Bool :=
  (viewOf s.tables id).all fun view =>
    canMutateTournament server.host.scoping (viewRecord view) userContext
      ((userContext.map fun ctx => s.assignedRoles ctx.userId).getD [])
      (methodNames (requestedMethods methods))

/-- The methods of a payload. -/
def sentMethods (payload : Json) : List Json := (methodList (payload.field? "methods")).getD []

/-- What the gate reads in a state. -/
def gateIn (s : ConcurrentWrites.State ι) : GateState :=
  { server.gate with
    scoping := server.host.scoping
    external := server.host.external
    tables := s.tables
    assignedRoles := s.assignedRoles }

section Steps

variable [DecidableEq ι]

/-- The engine runs `linkTournaments` in the next step of the call. -/
def runsLink (s : ConcurrentWrites.State ι) (c : ι) : Bool :=
  match s.calls c, (advance server.host s c).calls c with
  | .fetching _ _, .writing _ (.mutated _ methods _) _ _ => methods.any isLinkTournaments
  | _, _ => false

/-- The rights that an action brings to the notice of the history. -/
def grantedBy (s : LinkState ι) : LinkAction ι → ι → String → Bool
  | .queue c userContext payload =>
    match s.writes.calls c with
    | .idle => Function.update s.granted c
        (mayMutate server s.writes userContext (sentMethods payload))
    | _ => s.granted
  | .other _ => s.granted

/-- The runs of `linkTournaments` that an action brings to its notice. -/
def linkedBy (s : LinkState ι) : LinkAction ι → ι → Bool
  | .other (.advance c) => Function.update s.linked c (s.linked c || runsLink server s.writes c)
  | .other (.lose c) => Function.update s.linked c (s.linked c || runsLink server s.writes c)
  | _ => s.linked

/-- One step. -/
def step (s : LinkState ι) (a : LinkAction ι) : LinkState ι where
  writes := ConcurrentWrites.step server.host s.writes a.write
  granted := grantedBy server s a
  linked := linkedBy server s a

/-- No call, and these tables. -/
def LinkState.start (tables : Tables) (assignedRoles : String → List (String × String)) :
    LinkState ι where
  writes := .start tables assignedRoles
  granted _ _ := false
  linked _ := false

/-- Writers take the locks of the rows they write, and a wholesale save brings no link. -/
structure LinksKept (s : LinkState ι) (a : LinkAction ι) : Prop where
  /-- Rows are written under their locks. -/
  disciplined : Disciplined server.host s.writes a.write
  /-- Mutations come with their sender. -/
  sent : ∀ c payload, a ≠ .other (.queue c payload)
  /-- A save stores the links that its row has. -/
  kept : ∀ c request roles records reply written key record todo w,
    (a = .other (.advance c) ∨ a = .other (.lose c)) →
    s.writes.calls c =
      .writing (.save request roles records) reply written ((key, record) :: todo) →
    nextWrite server.host s.writes c (.save request roles records) written key record =
      .ok (.ok w) →
    ∀ peer ∈ server.linkedTournamentIds record,
      HasLink server (rowSeen s.writes.tables (.save request roles records) written) w.id peer

/-- A mutation gets to the queue past the gate, with the context of its sender, and names its
tournaments as declared. -/
structure LinksGuarded (s : LinkState ι) (a : LinkAction ι) : Prop extends
    LinksKept server s a where
  /-- The gate is clear. -/
  cleared : ∀ c userContext payload, a = .queue c userContext payload →
    gate (gateIn server s.writes) userContext (gateTournamentIds payload)
      (requestedMethods (sentMethods payload)) (sentMethods payload) = .ok none
  /-- The sender has a context. -/
  context : ∀ c userContext payload, a = .queue c userContext payload →
    userContext.isSome = true
  /-- The ids are strings. -/
  named : ∀ c userContext payload, a = .queue c userContext payload →
    ∃ ids, NamesIds payload ids

/-- A mutation runs `linkTournaments` on tournaments that its sender could modify. -/
structure LinksGranted (s : LinkState ι) (a : LinkAction ι) : Prop extends
    LinksKept server s a where
  /-- Links are made where the sender may modify. -/
  granted : ∀ c request methods, (a = .other (.advance c) ∨ a = .other (.lose c)) →
    s.writes.calls c = .fetching request methods → runsLink server s.writes c = true →
    ∀ id, .tournament id ∈ (Work.queue request).lockKeys c → s.granted c id = true

end Steps

/-! ## The invariant -/

section Invariant

variable (linked : ι → Bool) (granted : ι → String → Bool)

/-- The last upsert that has added the link to the row was that of a mutation that ran
`linkTournaments` with the right of its sender, unless the row has had it since the start. -/
def MadeIn (base : String → Option TournamentRow) (log : List (Write ι)) (id peer : String) :
    Prop :=
  (HasLink server base id peer ∧
      ∀ v ∈ log, v.id = id → peer ∈ server.linkedTournamentIds v.row.record) ∨
    ∃ before w after, log = before ++ w :: after ∧ w.id = id ∧
      peer ∈ server.linkedTournamentIds w.row.record ∧
      ¬ HasLink server (putRows base before) id peer ∧
      (linked w.call && granted w.call id) = true ∧
      ∀ v ∈ after, v.id = id → peer ∈ server.linkedTournamentIds v.row.record

/-- Each upsert adds links with right only. -/
def Backed : (String → Option TournamentRow) → List (Write ι) → Prop
  | _, [] => True
  | rows, w :: rest =>
    (∀ peer ∈ server.linkedTournamentIds w.row.record,
      (linked w.call && granted w.call w.id) = true ∨ HasLink server rows w.id peer) ∧
    Backed (Function.update rows w.id (some w.row)) rest

/-- What is known of the records that a mutation has still to write. -/
structure Coming (rows : String → Option TournamentRow) (c : ι) (request : QueueRequest)
    (methods : List Json) (todo : RecordMap) : Prop where
  /-- The keys of an object are distinct. -/
  keys : (todo.map Prod.fst).Nodup
  /-- Records are under their own ids. -/
  named : ∀ entry ∈ todo, Named entry
  /-- `linkTournaments` has run with right on every locked row. -/
  made : methods.any isLinkTournaments = true → linked c = true ∧
    ∀ id, .tournament id ∈ (Work.queue request).lockKeys c → granted c id = true
  /-- Without it, a locked row has the links of the record that comes. -/
  held : methods.any isLinkTournaments = false → ∀ entry ∈ todo,
    .tournament entry.1 ∈ (Work.queue request).lockKeys c →
    ∀ peer ∈ server.linkedTournamentIds entry.2, HasLink server rows entry.1 peer

/-- What holds of a call in a stage, after these upserts. -/
structure Carried (base : String → Option TournamentRow) (log : List (Write ι)) (c : ι)
    (stage : Stage ι) : Prop where
  /-- Its transaction adds links with right only. -/
  backed : Backed server linked granted base (log ++ pending stage)
  /-- A mutation has run the engine. -/
  mutated : ∀ request reply written todo, stage = .writing (.queue request) reply written todo →
    ∃ result methods previous, reply = .mutated result methods previous ∧
      Coming server linked granted (putRows base (log ++ pending stage)) c request methods todo

variable {server linked granted}

theorem backed_append {rows : String → Option TournamentRow} {log more : List (Write ι)} :
    Backed server linked granted rows (log ++ more) ↔
      Backed server linked granted rows log ∧
        Backed server linked granted (putRows rows log) more := by
  induction log generalizing rows with
  | nil => simp [Backed, putRows]
  | cons w rest ih =>
    rw [List.cons_append, Backed, Backed, ih, and_assoc]
    rfl

/-- What is backed stays so over rows with the same links and with more rights. -/
theorem Backed.congr {linked' : ι → Bool} {granted' : ι → String → Bool}
    {rows rows' : String → Option TournamentRow} {log : List (Write ι)}
    (h : Backed server linked granted rows log) (hrows : ∀ w ∈ log, rows w.id = rows' w.id)
    (hrights : ∀ w ∈ log, (linked w.call && granted w.call w.id) = true →
      (linked' w.call && granted' w.call w.id) = true) :
    Backed server linked' granted' rows' log := by
  induction log generalizing rows rows' with
  | nil => trivial
  | cons w rest ih =>
    refine ⟨fun peer hpeer => ?_, ih h.2 (fun v hv => ?_) fun v hv =>
      hrights v (List.mem_cons_of_mem _ hv)⟩
    · obtain hright | ⟨row, hrow, hlink⟩ := h.1 peer hpeer
      · exact .inl (hrights w List.mem_cons_self hright)
      · exact .inr ⟨row, (hrows w List.mem_cons_self).symm.trans hrow, hlink⟩
    · by_cases hid : v.id = w.id
      · rw [hid, Function.update_self, Function.update_self]
      · rw [Function.update_of_ne hid, Function.update_of_ne hid]
        exact hrows v (List.mem_cons_of_mem _ hv)

/-- A link that was made stays so after an upsert that keeps it. -/
theorem MadeIn.append {base : String → Option TournamentRow} {log : List (Write ι)}
    {id peer : String} (h : MadeIn server linked granted base log id peer) {w : Write ι}
    (hkept : w.id = id → peer ∈ server.linkedTournamentIds w.row.record) :
    MadeIn server linked granted base (log ++ [w]) id peer := by
  have hlater : ∀ {earlier : List (Write ι)},
      (∀ v ∈ earlier, v.id = id → peer ∈ server.linkedTournamentIds v.row.record) →
      ∀ v ∈ earlier ++ [w], v.id = id → peer ∈ server.linkedTournamentIds v.row.record := by
    intro earlier hearlier v hv hid
    obtain hold | hnew := List.mem_append.mp hv
    · exact hearlier v hold hid
    · rw [List.mem_singleton.mp hnew] at hid ⊢
      exact hkept hid
  obtain ⟨hstart, hall⟩ | ⟨before, v, after, rfl, hid, hpeer, hnew, hright, hall⟩ := h
  · exact .inl ⟨hstart, hlater hall⟩
  · exact .inr ⟨before, v, after ++ [w], by simp, hid, hpeer, hnew, hright, hlater hall⟩

/-- A stored link was made. -/
theorem made_of_backed {base : String → Option TournamentRow} {log : List (Write ι)}
    (h : Backed server linked granted base log) {id peer : String}
    (hlink : HasLink server (putRows base log) id peer) :
    MadeIn server linked granted base log id peer := by
  induction log using List.reverseRecOn with
  | nil => exact .inl ⟨hlink, fun v hv => absurd hv List.not_mem_nil⟩
  | append_singleton log w ih =>
    obtain ⟨hlog, hlast, -⟩ := backed_append.mp h
    have hrows : putRows base (log ++ [w]) =
        Function.update (putRows base log) w.id (some w.row) := by
      rw [putRows_append]
      rfl
    rw [hrows] at hlink
    obtain ⟨row, hrow, hpeer⟩ := hlink
    by_cases hid : w.id = id
    · rw [← hid, Function.update_self] at hrow
      obtain rfl := Option.some.inj hrow
      by_cases hbefore : HasLink server (putRows base log) id peer
      · exact (ih hlog hbefore).append fun _ => hpeer
      · refine .inr ⟨log, w, [], rfl, hid, hpeer, hbefore, ?_, fun v hv =>
          absurd hv List.not_mem_nil⟩
        obtain hright | hhad := hlast peer hpeer
        · rw [← hid]
          exact hright
        · exact absurd (hid ▸ hhad) hbefore
    · rw [Function.update_of_ne (Ne.symm hid)] at hrow
      exact (ih hlog ⟨row, hrow, hpeer⟩).append fun heq => absurd heq hid

end Invariant

/-! ## Steps -/

section Calls

variable {server} {linked linked' : ι → Bool} {granted granted' : ι → String → Bool}
  {base : String → Option TournamentRow} {log : List (Write ι)} {c : ι} {stage : Stage ι}

/-- The upserts of an open transaction are the call's, on rows it has locked. -/
theorem pending_locked {since : ℕ} {s : ConcurrentWrites.State ι}
    (hs : CallHolds since s c stage) :
    ∀ w ∈ pending stage, w.call = c ∧ s.holder (.tournament w.id) = some c := by
  intro w hw
  cases stage with
  | writing work reply ws todo =>
    have hwritten : w ∈ ws := by
      simp only [pending] at hw
      split_ifs at hw
      · exact hw
      · exact absurd hw List.not_mem_nil
    obtain ⟨hcall, hlock⟩ := hs.mine work rfl w hwritten
    exact ⟨hcall, hs.locks work rfl _ hlock⟩
  | _ => exact absurd hw List.not_mem_nil

/-- Upserts of rows that the call has not locked leave what it carries. -/
theorem Carried.transfer {since : ℕ} {s s' : ConcurrentWrites.State ι}
    (hc : Carried server linked granted base s.log c stage) (hs : CallHolds since s c stage)
    (hl : Leaves since s s' c) (hback : Backed server linked' granted' base s'.log)
    (hlinked : linked' c = linked c) (hgranted : granted' c = granted c) :
    Carried server linked' granted' base s'.log c stage := by
  obtain ⟨vs, hlog, hforeign⟩ := hl.log
  have hunlocked : ∀ id, s.holder (.tournament id) = some c → ∀ v ∈ vs, v.id ≠ id := by
    intro id hlock v hv heq
    exact (hforeign v hv).2 (heq ▸ hlock)
  refine ⟨backed_append.mpr ⟨hback, ?_⟩, fun request reply written todo hstage => ?_⟩
  · refine (backed_append.mp hc.backed).2.congr (fun w hw => ?_) fun w hw hright => ?_
    · have hrow : putRows base (s.log ++ vs ++ []) w.id = putRows base (s.log ++ []) w.id :=
        putRows_insert (hunlocked w.id (pending_locked hs w hw).2)
      rw [hlog]
      simpa using hrow.symm
    · rw [(pending_locked hs w hw).1] at hright ⊢
      rwa [hlinked, hgranted]
  · obtain ⟨result, methods, previous, hreply, hcoming⟩ := hc.mutated _ _ _ _ hstage
    refine ⟨result, methods, previous, hreply, hcoming.keys, hcoming.named, fun hmade => ?_,
      fun hplain entry hentry hlock peer hpeer => ?_⟩
    · rw [hlinked, hgranted]
      exact hcoming.made hmade
    · obtain ⟨row, hrow, hlink⟩ := hcoming.held hplain entry hentry hlock peer hpeer
      have hheld : s.holder (.tournament entry.1) = some c := by
        subst hstage
        exact hs.locks _ rfl _ hlock
      refine ⟨row, ?_, hlink⟩
      rw [hlog, putRows_insert (hunlocked entry.1 hheld)]
      exact hrow

/-- A stage without a transaction and outside the loop of a mutation carries nothing. -/
theorem carried_idle (hback : Backed server linked granted base log) (hpending : pending stage = [])
    (hother : ∀ request reply written todo,
      stage ≠ .writing (.queue request) reply written todo) :
    Carried server linked granted base log c stage := by
  refine ⟨?_, fun request reply written todo hstage => absurd hstage (hother _ _ _ _)⟩
  rw [hpending, List.append_nil]
  exact hback

variable {s : ConcurrentWrites.State ι} {d : ι}

/-- An upsert stores the record with the creator stamped. -/
theorem nextWrite_record {h : Host} {work : Work} {ws : List (Write ι)} {key : String}
    {record : TournamentRecord} {w : Write ι}
    (hw : nextWrite h s d work ws key record = .ok (.ok w)) :
    w.row.record = stampCreatedBy work.userId record := by
  unfold nextWrite at hw
  cases hadmitted : admitRecord record with
  | error error =>
    rw [hadmitted] at hw
    cases hw
  | ok admitted =>
    rw [hadmitted] at hw
    cases admitted with
    | error failure => cases hw
    | ok value =>
      simp only [Except.map] at hw
      split_ifs at hw
      · cases hw
        rfl
      · cases hw

/-- The records that a mutation has still to write, once the engine has run. -/
theorem coming_fetched {request : QueueRequest} {texts : List String} {methods : List Json}
    {outcome : EngineOutcome}
    (hvalid : recordsAreValid (exec (.selectTournaments texts) s.tables).2 = true)
    (hrun : (server.host.engine.executionQueue
      (loadedRecords (exec (.selectTournaments texts) s.tables).2) methods
      (request.payload.field? "rollbackOnError")).outcome = .ok outcome)
    (hmade : methods.any isLinkTournaments = true → linked d = true ∧
      ∀ id, .tournament id ∈ (Work.queue request).lockKeys d → granted d id = true) :
    Coming server linked granted s.tables.tournaments d request methods outcome.records := by
  obtain ⟨hdistinct, hnamed⟩ := server.keysById _ _ _ _ (nodup_selected s.tables texts)
    (named_of_valid hvalid) hrun
  refine ⟨hdistinct, hnamed, hmade, fun hplain entry hentry _ peer hpeer => ?_⟩
  obtain ⟨record, hloaded, hlink⟩ :=
    server.links_kept _ _ _ _ hrun hplain entry hentry peer hpeer
  obtain ⟨read, hread, heq⟩ := List.mem_map.mp hloaded
  obtain ⟨id, -, hrow⟩ := List.mem_filterMap.mp hread
  obtain ⟨row, hstored, rfl⟩ := Option.map_eq_some_iff.mp hrow
  obtain ⟨rfl, rfl⟩ := Prod.mk.inj heq
  exact ⟨row, hstored, hlink⟩

/-- An upsert of the loop is carried, and leaves the rest of the loop. -/
theorem Coming.put {request : QueueRequest} {methods : List Json} {ws : List (Write ι)}
    {key : String} {record : TournamentRecord} {rest : RecordMap} {w : Write ι}
    (hc : Coming server linked granted (putRows base log) d request methods ((key, record) :: rest))
    (hback : Backed server linked granted base log)
    (hw : nextWrite server.host s d (.queue request) ws key record = .ok (.ok w))
    (hlock : .tournament w.id ∈ (Work.queue request).lockKeys d) :
    Backed server linked granted base (log ++ [w]) ∧
      Coming server linked granted (putRows base (log ++ [w])) d request methods rest := by
  obtain ⟨hfresh, hkeys⟩ := List.nodup_cons.mp hc.keys
  obtain ⟨-, rfl⟩ := nextWrite_named (hc.named (key, record) List.mem_cons_self) hw
  refine ⟨backed_append.mpr ⟨hback, fun peer hpeer => ?_, trivial⟩, hkeys,
    fun entry hentry => hc.named entry (List.mem_cons_of_mem _ hentry), hc.made,
    fun hplain entry hentry hlocked peer hpeer => ?_⟩
  · cases hmade : methods.any isLinkTournaments with
    | true =>
      obtain ⟨hlinked, hgranted⟩ := hc.made hmade
      exact .inl (by rw [hlinked, hgranted _ hlock]; rfl)
    | false =>
      rw [server.links_stamped] at hpeer
      exact .inr (hc.held hmade (key, record) List.mem_cons_self hlock peer hpeer)
  · obtain ⟨row, hrow, hlink⟩ :=
      hc.held hplain entry (List.mem_cons_of_mem _ hentry) hlocked peer hpeer
    have hne : key ≠ entry.1 := by
      intro heq
      exact hfresh (List.mem_map.mpr ⟨entry, hentry, heq.symm⟩)
    refine ⟨row, ?_, hlink⟩
    rw [putRows_append, putRows_of_ne fun v hv => by rw [List.mem_singleton.mp hv]; exact hne]
    exact hrow

variable [DecidableEq ι]

omit [DecidableEq ι] in
/-- Work that opens has no transaction with upserts yet. -/
theorem pending_opened (work : Work) : pending (opened work : Stage ι) = [] := by
  cases work with
  | queue request => rfl
  | save request roles records =>
    cases hf : expectedFields (request.params.field? "expectedServerUpdatedAt") <;>
      simp only [opened, hf, pending]

/-- A call that goes on to such a stage. -/
theorem carried_setCall {s₁ : ConcurrentWrites.State ι}
    (hback : Backed server linked granted base s₁.log) (hpending : pending stage = [])
    (hother : ∀ request reply written todo,
      stage ≠ .writing (.queue request) reply written todo) :
    Carried server linked granted base (s₁.setCall d stage).log d
      ((s₁.setCall d stage).calls d) := by
  rw [setCall_calls, Function.update_self]
  exact carried_idle hback hpending hother

/-- A call that is over carries nothing. -/
theorem carried_ended {s' : ConcurrentWrites.State ι} {outcome : Except Thrown (Option Json)}
    (hcalls : s'.calls = Function.update s.calls d (.ended outcome))
    (hback : Backed server linked granted base s'.log) :
    Carried server linked granted base s'.log d (s'.calls d) := by
  rw [hcalls, Function.update_self]
  exact carried_idle hback rfl fun _ _ _ _ heq => by cases heq

/-- Work that returns has committed what its transaction has carried, or nothing. -/
theorem carried_conclude {h : Host} (work : Work) (ws : List (Write ι)) (result : Option Json)
    (hback : Backed server linked granted base s.log)
    (hopen : work.isDurable = true → Backed server linked granted base (s.log ++ ws)) :
    Carried server linked granted base (s.conclude h d work ws result).log d
      ((s.conclude h d work ws result).calls d) := by
  rcases conclude_cases (h := h) s d work ws result with
    ⟨outcome, heq, -⟩ | ⟨identity, hdurable, -, -, heq⟩
  · rw [heq]
    exact carried_ended rfl hback
  · rw [heq]
    exact carried_ended (commitCommand_calls s d identity ws result) (hopen hdurable)

omit [DecidableEq ι] in
/-- What a call sees is what is committed and its own transaction. -/
theorem rowSeen_pending {work : Work} {reply : Reply} {ws : List (Write ι)} {todo : RecordMap}
    (hrows : s.tables.tournaments = putRows base s.log) :
    rowSeen s.tables work ws = putRows base (s.log ++ pending (.writing work reply ws todo)) := by
  funext id
  rw [putRows_append, ← hrows]
  simp only [rowSeen, pending]
  cases work.isDurable <;> rfl

/-- The answered await of a call leaves what the call carries. -/
theorem carried_advance {since : ℕ} {s : ConcurrentWrites.State ι} {a : WriteAction ι}
    (hd : Disciplined server.host s a) (ha : a = .advance d ∨ a = .lose d)
    (hrows : s.tables.tournaments = putRows base s.log)
    (hs : CallHolds since s d (s.calls d))
    (hback : Backed server linked granted base s.log)
    (hc : Carried server linked granted base s.log d (s.calls d))
    (hlinked : runsLink server s d = true → linked d = true)
    (hgranted : ∀ request methods, s.calls d = .fetching request methods →
      runsLink server s d = true →
      ∀ id, .tournament id ∈ (Work.queue request).lockKeys d → granted d id = true)
    (hkept : ∀ request roles records reply ws key record todo w,
      s.calls d = .writing (.save request roles records) reply ws ((key, record) :: todo) →
      nextWrite server.host s d (.save request roles records) ws key record = .ok (.ok w) →
      ∀ peer ∈ server.linkedTournamentIds record,
        HasLink server (rowSeen s.tables (.save request roles records) ws) w.id peer) :
    Carried server linked granted base (advance server.host s d).log d
      ((advance server.host s d).calls d) := by
  cases hstage : s.calls d with
  | idle =>
    simp only [advance, hstage]
    exact hstage ▸ hc
  | ended outcome =>
    simp only [advance, hstage]
    exact hstage ▸ hc
  | gating request ctx roles gated todo =>
    cases todo with
    | nil =>
      simp only [advance, hstage]
      exact carried_setCall hback rfl fun _ _ _ _ heq => by cases heq
    | cons entry todo =>
      simp only [advance, hstage]
      cases gateRecord server.host ctx roles entry.1 entry.2 (viewOf s.tables entry.1) <;>
        exact carried_setCall hback rfl fun _ _ _ _ heq => by cases heq
  | attaching request roles attached todo =>
    cases todo with
    | nil =>
      simp only [advance, hstage]
      split_ifs <;> exact carried_setCall hback rfl fun _ _ _ _ heq => by cases heq
    | cons entry todo =>
      simp only [advance, hstage]
      exact carried_setCall hback rfl fun _ _ _ _ heq => by cases heq
  | locking work =>
    simp only [advance, hstage]
    rcases acquire_cases (h := server.host) s d work with
      heq | ⟨-, ⟨_, heq⟩ | ⟨-, heq⟩ | ⟨_, -, heq⟩⟩ <;> rw [heq]
    · exact hc
    · exact carried_ended rfl hback
    · exact carried_setCall hback (pending_opened work) (opened_not_writing work)
    · exact carried_setCall hback rfl fun _ _ _ _ heq => by cases heq
  | receipt work identity =>
    simp only [advance, hstage]
    rcases readReceipt_cases s d work identity with
      heq | ⟨-, -, heq⟩ | ⟨_, heq⟩ | ⟨_, -, heq⟩ <;> rw [heq]
    · exact hc
    · exact carried_setCall hback (pending_opened work) (opened_not_writing work)
    · exact carried_ended rfl hback
    · exact carried_ended rfl hback
  | checking request roles records todo =>
    simp only [advance, hstage]
    rcases checkKey_cases (h := server.host) s d request roles records todo with
      ⟨-, heq⟩ | ⟨_, _, -, ⟨heq, -⟩ | ⟨_, _, heq⟩⟩ <;> rw [heq]
    · refine carried_setCall hback ?_ fun _ _ _ _ heq => by cases heq
      simp [pending]
    · exact carried_setCall hback rfl fun _ _ _ _ heq => by cases heq
    · exact carried_conclude _ _ _ hback fun _ => by simpa using hback
  | resolving request =>
    simp only [advance, hstage]
    cases indexedMethods server.host.external s.tables request.tournamentIds request.methods with
    | none => exact carried_ended rfl hback
    | some methods => exact carried_setCall hback rfl fun _ _ _ _ heq => by cases heq
  | fetching request methods =>
    simp only [advance, hstage]
    rcases fetchAndRun_cases (h := server.host) s d request methods with
      ⟨_, heq⟩ | ⟨_, heq⟩ | ⟨texts, resolved, outcome, htexts, hvalid, hrun, heq⟩
    · rw [heq]
      exact carried_ended rfl hback
    · rw [heq]
      exact carried_conclude _ _ _ hback fun _ => by simpa using hback
    · have hruns : runsLink server s d = resolved.any isLinkTournaments := by
        simp only [runsLink, advance, hstage, heq, setCall_calls, Function.update_self]
      have hcoming : Coming server linked granted s.tables.tournaments d request resolved
          outcome.records := coming_fetched hvalid hrun fun hmade => ⟨hlinked (hruns.trans hmade),
            hgranted request methods hstage (hruns.trans hmade)⟩
      rw [heq, setCall_calls, Function.update_self]
      refine ⟨by simpa [pending] using hback, fun request' reply written todo hwriting => ?_⟩
      cases hwriting
      refine ⟨_, _, _, rfl, ?_⟩
      simpa [pending, ← hrows] using hcoming
  | writing work reply ws todo =>
    rw [hstage] at hs hc
    simp only [advance, hstage]
    rcases saveNext_cases (h := server.host) s d work reply ws todo with
      ⟨-, heq⟩ | ⟨key, record, rest, rfl, ⟨_, heq⟩ | ⟨_, heq⟩ | ⟨w, hw, heq⟩⟩ <;> rw [heq]
    · exact carried_conclude _ _ _ hback fun hdurable => by
        simpa [pending, hdurable] using hc.backed
    · exact carried_ended rfl hback
    · exact carried_conclude _ _ _ hback fun _ => by simpa using hback
    · have hlock := locked_nextWrite hd ha hstage hs hw
      rw [setCall_calls, put_calls, Function.update_self, setCall_log]
      cases work with
      | save request roles records =>
        refine ⟨?_, fun request' reply' written' todo' heq => by cases heq⟩
        rw [put_log _ _ _ _ ((key, record) :: rest)]
        refine backed_append.mpr ⟨hc.backed, fun peer hpeer => .inr ?_, trivial⟩
        rw [nextWrite_record hw, server.links_stamped] at hpeer
        rw [← rowSeen_pending hrows]
        exact hkept request roles records reply ws key record rest w hstage hw peer hpeer
      | queue request =>
        obtain ⟨result, methods, previous, rfl, hcoming⟩ := hc.mutated _ _ _ _ rfl
        obtain ⟨hput, hrest⟩ := hcoming.put hc.backed hw hlock
        rw [← put_log _ _ _ _ _ rest] at hput hrest
        refine ⟨hput, fun request' reply' written' todo' hwriting => ?_⟩
        cases hwriting
        exact ⟨_, _, _, rfl, hrest⟩

end Calls

/-! ## Runs -/

section Runs

variable [DecidableEq ι]

/-- What holds after every guarded step of a run that starts with these tables. -/
structure LinkInv (start : Tables) (s : LinkState ι) : Prop where
  /-- The locks are kept. -/
  inv : Inv server.host start s.writes
  /-- Upserts have added links with right only. -/
  backed : Backed server s.linked s.granted start.tournaments s.writes.log
  /-- Calls carry no others. -/
  calls : ∀ c, Carried server s.linked s.granted start.tournaments s.writes.log c
    (s.writes.calls c)

variable {server} {start : Tables} {s : LinkState ι} {a : LinkAction ι} {d : ι}

/-- An action brings to notice what concerns its own call. -/
theorem rights_other {c : ι} (hc : a.write.call? ≠ some c) :
    linkedBy server s a c = s.linked c ∧ grantedBy server s a c = s.granted c := by
  have hne : ∀ d, a.write.call? = some d → c ≠ d := fun d hd heq => hc (heq ▸ hd)
  cases a with
  | queue d ctx payload =>
    refine ⟨rfl, ?_⟩
    simp only [grantedBy]
    cases s.writes.calls d with
    | idle => exact Function.update_of_ne (hne d rfl) _ _
    | _ => rfl
  | other a =>
    refine ⟨?_, rfl⟩
    cases a with
    | advance d => exact Function.update_of_ne (hne d rfl) _ _
    | lose d => exact Function.update_of_ne (hne d rfl) _ _
    | _ => rfl

/-- Runs of `linkTournaments` are not forgotten. -/
theorem linked_mono (c : ι) (h : s.linked c = true) : linkedBy server s a c = true := by
  have hupdate : ∀ d, Function.update s.linked d (s.linked d || runsLink server s.writes d) c =
      true := by
    intro d
    by_cases hcd : c = d
    · rw [hcd, Function.update_self, ← hcd, h]
      rfl
    · rw [Function.update_of_ne hcd]
      exact h
  cases a with
  | queue d ctx payload => exact h
  | other a =>
    cases a with
    | advance d => exact hupdate d
    | lose d => exact hupdate d
    | _ => exact h

/-- The rights of a call that has written are those it came with. -/
theorem backed_noted (hi : LinkInv server start s) :
    Backed server (linkedBy server s a) (grantedBy server s a) start.tournaments s.writes.log := by
  refine hi.backed.congr (fun _ _ => rfl) fun w hw hright => ?_
  obtain ⟨hlinked, hgranted⟩ := Bool.and_eq_true_iff.mp hright
  rw [linked_mono (a := a) w.call hlinked, Bool.true_and]
  cases a with
  | other a => exact hgranted
  | queue d ctx payload =>
    cases hstage : s.writes.calls d with
    | idle =>
      have hne : w.call ≠ d := (hi.inv.calls d).quiet (by rw [hstage]; rfl) w hw
      simp only [grantedBy, hstage, Function.update_of_ne hne]
      exact hgranted
    | _ => simpa only [grantedBy, hstage] using hgranted

omit [DecidableEq ι] in
/-- What a call carries it carries with more runs noted. -/
theorem Carried.noted {linked linked' : ι → Bool} {granted : ι → String → Bool}
    {base : String → Option TournamentRow} {log : List (Write ι)} {c : ι} {stage : Stage ι}
    (hc : Carried server linked granted base log c stage)
    (hlinked : ∀ c, linked c = true → linked' c = true) :
    Carried server linked' granted base log c stage := by
  refine ⟨hc.backed.congr (fun _ _ => rfl) fun w _ hright => ?_,
    fun request reply written todo hstage => ?_⟩
  · obtain ⟨hcall, hgranted⟩ := Bool.and_eq_true_iff.mp hright
    rw [hlinked _ hcall, hgranted]
    rfl
  · obtain ⟨result, methods, previous, hreply, hcoming⟩ := hc.mutated _ _ _ _ hstage
    exact ⟨result, methods, previous, hreply, hcoming.keys, hcoming.named,
      fun hmade => ⟨hlinked _ (hcoming.made hmade).1, (hcoming.made hmade).2⟩, hcoming.held⟩

/-- A rejected await leaves nothing to carry. -/
theorem carried_reject {linked : ι → Bool} {granted : ι → String → Bool}
    {base : String → Option TournamentRow} {s : ConcurrentWrites.State ι}
    (hback : Backed server linked granted base s.log) :
    Carried server linked granted base (reject s d).log d ((reject s d).calls d) := by
  cases hstage : s.calls d with
  | idle =>
    simp only [reject, hstage]
    exact carried_idle hback rfl fun _ _ _ _ heq => by cases heq
  | ended outcome =>
    simp only [reject, hstage]
    exact carried_idle hback rfl fun _ _ _ _ heq => by cases heq
  | attaching request roles attached todo =>
    simp only [reject, hstage]
    cases todo with
    | nil => exact carried_ended rfl hback
    | cons entry todo => exact carried_setCall hback rfl fun _ _ _ _ heq => by cases heq
  | _ =>
    simp only [reject, hstage]
    exact carried_ended rfl hback

/-- The step of a call leaves what it carries. -/
theorem carried_own (hg : LinksGranted server s a) (hi : LinkInv server start s)
    (hcall : a.write.call? = some d) :
    Carried server (linkedBy server s a) (grantedBy server s a) start.tournaments
      (step server s a).writes.log d ((step server s a).writes.calls d) := by
  have hback := backed_noted (a := a) hi
  have hadvance : ∀ b : WriteAction ι, b = .advance d ∨ b = .lose d → a = .other b →
      Carried server (linkedBy server s a) (grantedBy server s a) start.tournaments
        (advance server.host s.writes d).log d ((advance server.host s.writes d).calls d) := by
    rintro b hb rfl
    have hor : LinkAction.other b = .other (.advance d) ∨ LinkAction.other b = .other (.lose d) :=
      hb.imp (congrArg _) (congrArg _)
    refine carried_advance hg.disciplined hb hi.inv.rows (hi.inv.calls d) hback
      ((hi.calls d).noted fun c => linked_mono c) (fun hruns => ?_)
      (fun request methods hstage hruns => hg.granted d request methods hor hstage hruns)
      fun request roles records reply ws key record todo w hstage hw =>
        hg.kept d request roles records reply ws key record todo w hor hstage hw
    obtain rfl | rfl := hb <;> simp only [linkedBy, Function.update_self, hruns, Bool.or_true]
  cases a with
  | queue c ctx payload =>
    obtain rfl : c = d := Option.some.inj hcall
    have hcarried := hi.calls c
    cases hstage : s.writes.calls c with
    | idle =>
      simp only [step, LinkAction.write, ConcurrentWrites.step, hstage]
      have harrived : pending (arriveQueue server.host payload : Stage ι) = [] ∧
          ∀ request reply written todo, (arriveQueue server.host payload : Stage ι) ≠
            .writing (.queue request) reply written todo := by
        unfold arriveQueue
        split <;> exact ⟨rfl, fun _ _ _ _ heq => by cases heq⟩
      exact carried_setCall hback harrived.1 harrived.2
    | _ =>
      rw [hstage] at hcarried
      simpa only [step, LinkAction.write, ConcurrentWrites.step, hstage, linkedBy, grantedBy]
        using hcarried
  | other a =>
    cases a with
    | save c request =>
      obtain rfl : c = d := Option.some.inj hcall
      have hcarried := hi.calls c
      cases hstage : s.writes.calls c with
      | idle =>
        simp only [step, LinkAction.write, ConcurrentWrites.step, hstage]
        have harrived : pending (arriveSave s.writes request) = [] ∧
            ∀ request' reply written todo, arriveSave s.writes request ≠
              .writing (.queue request') reply written todo := by
          unfold arriveSave
          split_ifs
          · exact ⟨rfl, fun _ _ _ _ heq => by cases heq⟩
          · exact ⟨rfl, fun _ _ _ _ heq => by cases heq⟩
          · cases request.userContext <;> exact ⟨rfl, fun _ _ _ _ heq => by cases heq⟩
        exact carried_setCall hback harrived.1 harrived.2
      | _ =>
        rw [hstage] at hcarried
        simpa only [step, LinkAction.write, ConcurrentWrites.step, hstage, linkedBy, grantedBy]
          using hcarried
    | queue c payload => exact absurd rfl (hg.sent c payload)
    | advance c =>
      obtain rfl : c = d := Option.some.inj hcall
      exact hadvance _ (.inl rfl) rfl
    | reject c =>
      obtain rfl : c = d := Option.some.inj hcall
      exact carried_reject hback
    | lose c =>
      obtain rfl : c = d := Option.some.inj hcall
      have hadvanced := backed_append.mp (hadvance _ (.inr rfl) rfl).backed
      cases hstage : s.writes.calls c with
      | idle =>
        simp only [step, LinkAction.write, ConcurrentWrites.step, hstage]
        exact carried_idle hback rfl fun _ _ _ _ heq => by cases heq
      | ended outcome =>
        simp only [step, LinkAction.write, ConcurrentWrites.step, hstage]
        exact carried_idle hback rfl fun _ _ _ _ heq => by cases heq
      | attaching request roles attached todo =>
        simp only [step, LinkAction.write, ConcurrentWrites.step, hstage]
        cases todo with
        | nil => exact carried_ended (abort_calls _ _ _) hadvanced.1
        | cons entry todo => exact carried_reject hback
      | _ =>
        simp only [step, LinkAction.write, ConcurrentWrites.step, hstage]
        exact carried_ended (abort_calls _ _ _) hadvanced.1
    | outside tables roles => cases hcall

/-- A guarded step adds links with right only. -/
theorem linkInv_step (s : LinkState ι) (a : LinkAction ι) (hg : LinksGranted server s a)
    (hi : LinkInv server start s) : LinkInv server start (step server s a) := by
  have hinv : Inv server.host start (step server s a).writes :=
    inv_step s.writes a.write hg.disciplined hi.inv
  cases hcall : a.write.call? with
  | none =>
    cases a with
    | queue c ctx payload => cases hcall
    | other a =>
      cases a with
      | outside tables roles => exact ⟨hinv, hi.backed, hi.calls⟩
      | _ => cases hcall
  | some d =>
    have hown := carried_own hg hi hcall
    have hback := (backed_append.mp hown.backed).1
    refine ⟨hinv, hback, fun c => ?_⟩
    by_cases hcd : a.write.call? = some c
    · exact carried_own hg hi hcd
    · have hm := moves_step hg.disciplined hcall hi.inv.now (hi.inv.calls d) hi.inv.receipts
      have hleaves := hm.leaves fun heq : c = d => hcd (by rw [hcall, heq])
      have hrights : linkedBy server s a c = s.linked c ∧ grantedBy server s a c = s.granted c :=
        rights_other hcd
      obtain ⟨hlinked, hgranted⟩ := hrights
      have hsame : (step server s a).writes.calls c = s.writes.calls c := step_calls_other hcd
      rw [hsame]
      exact (hi.calls c).transfer (hi.inv.calls c) hleaves hback hlinked hgranted

omit [DecidableEq ι] in
/-- Past the gate the sender may mutate what is stored of every tournament that it names. -/
theorem mayMutate_of_cleared {w : ConcurrentWrites.State ι} {userContext : Option UserContext}
    {payload : Json} {ids : List String} {id : String}
    (hclear : gate (gateIn server w) userContext (gateTournamentIds payload)
      (requestedMethods (sentMethods payload)) (sentMethods payload) = .ok none)
    (hcontext : userContext.isSome = true) (hnamed : NamesIds payload ids) (hid : id ∈ ids) :
    mayMutate server w userContext (sentMethods payload) id = true := by
  obtain ⟨ctx, rfl⟩ := Option.isSome_iff_exists.mp hcontext
  have hvisited : (.str id : Json) ∈ gatedIds payload := by
    rw [(ids_named hnamed).2]
    exact List.mem_map_of_mem hid
  have hpassed := (gate_clear_iff.mp hclear ctx rfl).2 _ hvisited
  have hview : storedView (gateIn server w) (.str id) = viewOf w.tables id := by
    have hne : id ≠ "" := fun heq => hnamed.2.1 (heq ▸ hid)
    have htruthy : truthy (some (.str id)) = true := bne_iff_ne.mpr hne
    simp only [storedView, htruthy, if_true, viewOf, hne, if_false]
    exact congrArg (fun text => (exec (.selectUpdatedAt text) w.tables).2)
      (server.host.external.pg.text_str id)
  rw [gateTournament, hview] at hpassed
  unfold mayMutate
  cases hstored : viewOf w.tables id with
  | none => rfl
  | some view =>
    rw [hstored, Option.bind_some] at hpassed
    exact (passed_of_checkTournament hpassed).2

/-- Calls of mutations have the right of their sender on the tournaments they name. -/
def Admitted (s : LinkState ι) : Prop :=
  ∀ c request, queue? (s.writes.calls c) = some request →
    ∀ id, .tournament id ∈ (Work.queue request).lockKeys c → s.granted c id = true

/-- A guarded step admits mutations with the right of their sender. -/
theorem admitted_step (s : LinkState ι) (a : LinkAction ι) (hg : LinksGuarded server s a)
    (hi : Admitted s) : Admitted (step server s a) := by
  intro c request hq id hlock
  have hkeeps : queue? (s.writes.calls c) = some request → grantedBy server s a c id = true := by
    intro hold
    have hright := hi c request hold id hlock
    cases a with
    | other a => exact hright
    | queue d userContext payload =>
      cases hstage : s.writes.calls d with
      | idle =>
        have hne : c ≠ d := by
          rintro rfl
          rw [hstage] at hold
          cases hold
        simp only [grantedBy, hstage, Function.update_of_ne hne]
        exact hright
      | _ => simpa only [grantedBy, hstage] using hright
  obtain hold | ⟨payload, hcame, hids⟩ := queue_step hq
  · exact hkeeps hold
  · cases a with
    | other a => 
      cases a with
      | queue d payload' => exact absurd rfl (hg.sent d payload')
      | _ => cases hcame
    | queue d userContext payload' =>
      cases hcame
      cases hstage : s.writes.calls c with
      | idle =>
        obtain ⟨ids, hnamed⟩ := hg.named _ _ _ rfl
        have hmay := mayMutate_of_cleared (hg.cleared _ _ _ rfl) (hg.context _ _ _ rfl) hnamed
          (mem_of_lockKeys (hids.trans (ids_named hnamed).1) hlock)
        simp only [step, grantedBy, hstage, Function.update_self]
        exact hmay
      | _ =>
        refine hkeeps ?_
        simpa only [step, LinkAction.write, ConcurrentWrites.step, hstage] using hq

/-- A guarded step runs `linkTournaments` with the right of the sender. -/
theorem granted_of_guarded (s : LinkState ι) (a : LinkAction ι) (hg : LinksGuarded server s a)
    (hi : Admitted s) : LinksGranted server s a :=
  ⟨hg.toLinksKept, fun c request methods _ hstage _ id hlock =>
    hi c request (by rw [hstage]; rfl) id hlock⟩

/-- In a run of guarded steps every stored link was made. -/
theorem links_made (tables : Tables) (assignedRoles : String → List (String × String))
    {actions : List (LinkAction ι)}
    (hmeets : RunMeets (step server) (LinksGuarded server) (.start tables assignedRoles) actions)
    {id peer : String}
    (hlink : HasLink server (run (step server) (.start tables assignedRoles)
      actions).writes.tables.tournaments id peer) :
    let s := run (step server) (.start tables assignedRoles) actions
    MadeIn server s.linked s.granted tables.tournaments s.writes.log id peer := by
  intro s
  have hstart : LinkInv server tables (LinkState.start tables assignedRoles : LinkState ι) :=
    ⟨inv_start tables assignedRoles, trivial, fun c =>
      carried_idle trivial rfl fun _ _ _ _ heq => by cases heq⟩
  have hgranted : RunMeets (step server) (LinksGranted server) (.start tables assignedRoles)
      actions := run_meets admitted_step granted_of_guarded hmeets fun c request hq => by cases hq
  have hi : LinkInv server tables s := run_keeps linkInv_step hgranted hstart
  exact made_of_backed hi.backed (hi.inv.rows ▸ hlink)

end Runs

end FactoryServer.LinkedPeers
