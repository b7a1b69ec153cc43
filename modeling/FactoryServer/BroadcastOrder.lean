import FactoryServer.GuardedRuns
import FactoryServer.InsertionMaps
import FactoryServer.JsonValue
import FactoryServer.LaneOrder
import FactoryServer.PrimaryKeys

/-!
# The order of broadcasts

A mutation is saved under the tournament lock. Its request goes on after the lock is
released and starts a broadcast that nobody awaits: for each tournament in turn, the
broadcast looks up who is present, to log it, and then publishes to the tournament's
room. Requests and lookups of different mutations take their own time.
-/

namespace FactoryServer.BroadcastOrder

open JsonValue InsertionMaps LaneOrder GuardedRuns

/-! ## Mutations and publications -/

/-- What a broadcast reads of the mutation's payload. -/
structure BroadcastPayload where
  /-- `tournamentIds`. -/
  tournamentIds : List String
  /-- `tournamentId`, for a payload without `tournamentIds`. -/
  tournamentId : Option String
  /-- `methods`. -/
  methods : List Json
  /-- `userId`. -/
  userId : Option String
  /-- `timestamp`. -/
  timestamp : Option Json
  /-- `originClientId`. -/
  originClientId : Option String

/-- `payload.tournamentIds || (payload.tournamentId ? [payload.tournamentId] : [])`, where an
empty list stands for a list that was not sent. -/
def BroadcastPayload.ids (payload : BroadcastPayload) : List String :=
  if payload.tournamentIds = [] then (payload.tournamentId.filter (· ≠ "")).toList
  else payload.tournamentIds

/-- A mutation that was saved, with what its result carries. -/
structure Commit where
  /-- The payload. -/
  payload : BroadcastPayload
  /-- When its rows were written. -/
  serverUpdatedAt : List (String × ℕ)
  /-- When they had been written before. -/
  previousServerUpdatedAt : List (String × ℕ)

/-- One message to a room. -/
structure Publication where
  /-- The tournament of the room. -/
  room : String
  /-- The mutation it carries. -/
  mutation : Commit

/-- When the room's tournament was written by the mutation. -/
def Publication.stamp (publication : Publication) : Option ℕ :=
  publication.mutation.serverUpdatedAt.lookup publication.room

/-- When the room's tournament had been written before. -/
def Publication.previous (publication : Publication) : Option ℕ :=
  publication.mutation.previousServerUpdatedAt.lookup publication.room

/-- The messages of a broadcast: none for a payload without methods. -/
def Commit.publications (mutation : Commit) : List Publication :=
  if mutation.payload.methods = [] then []
  else mutation.payload.ids.map fun room => ⟨room, mutation⟩

/-! ## Steps -/

/-- A request whose mutation was saved. -/
structure Outgoing where
  /-- `broadcastMutation` has been called. -/
  started : Bool
  /-- The messages that are still to be published. -/
  remaining : List Publication

/-- The server's rows, its requests and the rooms. -/
structure BroadcastState where
  /-- `updated_at` of each tournament. -/
  updatedAt : String → Option ℕ := fun _ => none
  /-- The clock. -/
  now : ℕ := 0
  /-- The requests whose broadcast is not over, in the order of their commits. -/
  requests : List Outgoing := []
  /-- The messages, as they were published. -/
  published : List Publication := []
  /-- The messages of all mutations saved so far, in the order of their commits. -/
  due : List Publication := []

/-- What may happen next. -/
inductive BroadcastAction where
  /-- A mutation is saved. -/
  | commit (payload : BroadcastPayload)
  /-- A request returns from the service and starts its broadcast. -/
  | respond (request : ℕ)
  /-- The presence lookup of a broadcast is answered. -/
  | lookedUp (request : ℕ)

/-- The rows of the ids are written, one after the other. -/
def savedStamps (now : ℕ) (ids : List String) : List (String × ℕ) :=
  ids.mapIdx fun i id => (id, now + 1 + i)

/-- The mutation as it is saved. -/
def commitOf (s : BroadcastState) (payload : BroadcastPayload) : Commit where
  payload := payload
  serverUpdatedAt := savedStamps s.now (setOf payload.ids)
  previousServerUpdatedAt := (setOf payload.ids).filterMap fun id =>
    (s.updatedAt id).map fun written => (id, written)

/-- A started broadcast publishes to its next room. -/
def publishNext (s : BroadcastState) (request : ℕ) : BroadcastState :=
  match s.requests[request]? with
  | some ⟨true, publication :: rest⟩ =>
    { s with
      requests := s.requests.set request ⟨true, rest⟩
      published := s.published ++ [publication] }
  | _ => s

/-- One step. -/
def step (s : BroadcastState) : BroadcastAction → BroadcastState
  | .commit payload =>
    let mutation := commitOf s payload
    { s with
      updatedAt := fun id => (mutation.serverUpdatedAt.lookup id).orElse fun _ => s.updatedAt id
      now := s.now + (setOf payload.ids).length
      requests := s.requests ++ [⟨false, mutation.publications⟩]
      due := s.due ++ mutation.publications }
  | .respond request =>
    match s.requests[request]? with
    | some outgoing =>
      { s with requests := s.requests.set request { outgoing with started := true } }
    | none => s
  | .lookedUp request => publishNext s request

/-! ## What is to be shown -/

/-- The first message is older than the second one, and is not built on it. -/
def Before (a b : Publication) : Prop :=
  ∃ written later, a.stamp = some written ∧ b.stamp = some later ∧ written ≤ later ∧
    a.previous ≠ some later

/-- A room is published to in the order in which its tournament was written. -/
def InCommitOrder (s : BroadcastState) : Prop :=
  ∀ room, (s.published.filter fun publication => publication.room = room).Pairwise Before

/-- A lookup is answered only when no mutation saved before has still to publish to the room. -/
def Unhurried (s : BroadcastState) : BroadcastAction → Prop
  | .commit _ => True
  | .respond _ => True
  | .lookedUp request =>
    ∀ publication rest, s.requests[request]? = some ⟨true, publication :: rest⟩ →
      ∀ earlier ∈ s.requests.take request, ∀ other ∈ earlier.remaining,
        other.room ≠ publication.room

/-! ## The stamps of the commits -/

/-- The message is for the room. -/
def forRoom (room : String) (publication : Publication) : Bool := publication.room = room

/-- The messages that the requests have still to publish. -/
def waiting (requests : List Outgoing) : List Publication :=
  requests.flatMap Outgoing.remaining

/-- The clock is past every row and every message. -/
structure Clocked (s : BroadcastState) : Prop where
  /-- Rows were written by now. -/
  rows : ∀ id written, s.updatedAt id = some written → written ≤ s.now
  /-- Messages carry when they were written, which is after what they were built on. -/
  messages : ∀ publication ∈ s.due, ∃ written, publication.stamp = some written ∧
    written ≤ s.now ∧ ∀ before, publication.previous = some before → before < written
  /-- The messages of a room are due in the order in which they were written. -/
  ordered : ∀ room, (s.due.filter (forRoom room)).Pairwise Before

theorem mem_savedStamps {now : ℕ} {ids : List String} {entry : String × ℕ}
    (h : entry ∈ savedStamps now ids) : now < entry.2 ∧ entry.2 ≤ now + ids.length := by
  obtain ⟨i, hi, rfl⟩ := List.mem_mapIdx.mp h
  simp only
  omega

/-- Every id of a mutation gets a stamp of its own time. -/
theorem lookup_savedStamps (now : ℕ) {ids : List String} {id : String} (h : id ∈ ids) :
    ∃ written, (savedStamps now ids).lookup id = some written ∧ now < written ∧
      written ≤ now + ids.length := by
  cases hlookup : (savedStamps now ids).lookup id with
  | none =>
    obtain ⟨i, hi, rfl⟩ := List.getElem_of_mem h
    have hin : ((ids[i], now + 1 + i) : String × ℕ) ∈ savedStamps now ids :=
      List.mem_mapIdx.mpr ⟨i, hi, rfl⟩
    exact absurd rfl ((List.lookup_eq_none_iff.mp hlookup) _ hin |> bne_iff_ne.mp)
  | some written =>
    have hin : (id, written) ∈ savedStamps now ids := by
      obtain ⟨before, after, hsplit, -⟩ := List.lookup_eq_some_iff.mp hlookup
      rw [hsplit]
      exact List.mem_append_right _ List.mem_cons_self
    exact ⟨written, rfl, mem_savedStamps hin⟩

theorem lookup_previous {s : BroadcastState} {payload : BroadcastPayload} {id : String}
    {before : ℕ} (h : (commitOf s payload).previousServerUpdatedAt.lookup id = some before) :
    s.updatedAt id = some before := by
  obtain ⟨front, back, hsplit, -⟩ := List.lookup_eq_some_iff.mp h
  have hin : (id, before) ∈ (commitOf s payload).previousServerUpdatedAt := by
    rw [hsplit]
    exact List.mem_append_right _ List.mem_cons_self
  obtain ⟨other, -, hother⟩ := List.mem_filterMap.mp hin
  obtain ⟨written, hwritten, hpair⟩ := Option.map_eq_some_iff.mp hother
  obtain ⟨rfl, rfl⟩ := Prod.mk.inj hpair
  exact hwritten

theorem mem_publications {mutation : Commit} {publication : Publication}
    (h : publication ∈ mutation.publications) :
    publication.room ∈ mutation.payload.ids ∧ publication.mutation = mutation := by
  unfold Commit.publications at h
  split_ifs at h with hmethods
  · exact absurd h List.not_mem_nil
  · obtain ⟨room, hroom, rfl⟩ := List.mem_map.mp h
    exact ⟨hroom, rfl⟩

/-- A message of a mutation is stamped after everything there was. -/
theorem stamp_commit {s : BroadcastState} {payload : BroadcastPayload} (hclock : Clocked s)
    {publication : Publication} (h : publication ∈ (commitOf s payload).publications) :
    ∃ written, publication.stamp = some written ∧ s.now < written ∧
      written ≤ s.now + (setOf payload.ids).length ∧
      ∀ before, publication.previous = some before → before < written := by
  obtain ⟨hroom, hmutation⟩ := mem_publications h
  obtain ⟨written, hlookup, hafter, hbound⟩ :=
    lookup_savedStamps s.now (mem_setOf.mpr hroom)
  refine ⟨written, ?_, hafter, hbound, ?_⟩
  · rw [Publication.stamp, hmutation]
    exact hlookup
  · intro before hbefore
    rw [Publication.previous, hmutation] at hbefore
    exact Nat.lt_of_le_of_lt (hclock.rows _ _ (lookup_previous hbefore)) hafter

/-- A message that is stamped later comes after one that is stamped earlier. -/
theorem before_of_le {a b : Publication} {written later : ℕ} (ha : a.stamp = some written)
    (hb : b.stamp = some later) (hle : written ≤ later)
    (hprevious : ∀ before, a.previous = some before → before < written) : Before a b :=
  ⟨written, later, ha, hb, hle, fun hbuilt =>
    absurd (hprevious later hbuilt) (Nat.not_lt.mpr hle)⟩

theorem clocked_commit {s : BroadcastState} (hclock : Clocked s) (payload : BroadcastPayload) :
    Clocked (step s (.commit payload)) where
  rows := by
    intro id written hrow
    change ((commitOf s payload).serverUpdatedAt.lookup id).orElse _ = some written at hrow
    change written ≤ s.now + (setOf payload.ids).length
    cases hlookup : (commitOf s payload).serverUpdatedAt.lookup id with
    | none =>
      rw [hlookup] at hrow
      exact Nat.le_trans (hclock.rows id written hrow) (Nat.le_add_right _ _)
    | some time =>
      rw [hlookup] at hrow
      obtain rfl := Option.some.inj hrow
      obtain ⟨front, back, hsplit, -⟩ := List.lookup_eq_some_iff.mp hlookup
      have hin : (id, time) ∈ savedStamps s.now (setOf payload.ids) := by
        change (commitOf s payload).serverUpdatedAt = _ at hsplit
        change _ ∈ (commitOf s payload).serverUpdatedAt
        rw [hsplit]
        exact List.mem_append_right _ List.mem_cons_self
      exact (mem_savedStamps hin).2
  messages := by
    intro publication hin
    rcases List.mem_append.mp hin with hold | hnew
    · obtain ⟨written, hstamp, hbound, hprevious⟩ := hclock.messages publication hold
      exact ⟨written, hstamp, Nat.le_trans hbound (Nat.le_add_right _ _), hprevious⟩
    · obtain ⟨written, hstamp, -, hbound, hprevious⟩ := stamp_commit hclock hnew
      exact ⟨written, hstamp, hbound, hprevious⟩
  ordered := by
    intro room
    change ((s.due ++ (commitOf s payload).publications).filter (forRoom room)).Pairwise Before
    rw [List.filter_append, List.pairwise_append]
    refine ⟨hclock.ordered room, List.pairwise_of_forall_mem_list ?_, ?_⟩
    · intro a ha b hb
      obtain ⟨hin, hroom⟩ := List.mem_filter.mp ha
      obtain ⟨hin', hroom'⟩ := List.mem_filter.mp hb
      have hsame : a = b := by
        have hrooms : a.room = b.room :=
          (of_decide_eq_true hroom).trans (of_decide_eq_true hroom').symm
        have hmutations : a.mutation = b.mutation :=
          (mem_publications hin).2.trans (mem_publications hin').2.symm
        cases a
        cases b
        simp only at hrooms hmutations
        rw [hrooms, hmutations]
      obtain ⟨written, hstamp, -, -, hprevious⟩ := stamp_commit hclock hin
      exact before_of_le hstamp (hsame ▸ hstamp) (Nat.le_refl _) hprevious
    · intro a ha b hb
      obtain ⟨written, hstamp, hbound, hprevious⟩ :=
        hclock.messages a (List.mem_filter.mp ha).1
      obtain ⟨later, hlater, hafter, -, -⟩ := stamp_commit hclock (List.mem_filter.mp hb).1
      exact before_of_le hstamp hlater (Nat.le_of_lt (Nat.lt_of_le_of_lt hbound hafter)) hprevious

/-! ## Runs -/

/-- Messages are published in the lanes of their rooms. -/
structure Ordered (s : BroadcastState) : Prop where
  /-- The stamps of the messages. -/
  clocked : Clocked s
  /-- What was published and what waits is what is due. -/
  lanes : InLanes forRoom s.due (waiting s.requests) s.published

theorem ordered_start : Ordered {} where
  clocked := ⟨fun _ _ h => (nomatch h), fun _ h => absurd h List.not_mem_nil,
    fun _ => List.Pairwise.nil⟩
  lanes := inLanes_nil

/-- What one step preserves. -/
theorem ordered_step (s : BroadcastState) (action : BroadcastAction)
    (hunhurried : Unhurried s action) (h : Ordered s) : Ordered (step s action) := by
  cases action with
  | commit payload =>
    refine ⟨clocked_commit h.clocked payload, ?_⟩
    have hwaiting : waiting (step s (.commit payload)).requests =
        waiting s.requests ++ (commitOf s payload).publications := by
      simp [step, waiting]
    rw [hwaiting]
    exact h.lanes.accept _
  | respond request =>
    cases hrequest : s.requests[request]? with
    | none =>
      have hstep : step s (.respond request) = s := by simp only [step, hrequest]
      rw [hstep]
      exact h
    | some outgoing =>
      have hstep : step s (.respond request) =
          { s with requests := s.requests.set request { outgoing with started := true } } := by
        simp only [step, hrequest]
      rw [hstep]
      refine ⟨⟨h.clocked.rows, h.clocked.messages, h.clocked.ordered⟩, h.lanes.congr ?_⟩
      intro room
      obtain ⟨hsplit, -⟩ := split_at hrequest
      have hset := set_at hrequest { outgoing with started := true }
      have hsame : waiting (s.requests.set request { outgoing with started := true }) =
          waiting s.requests := by
        rw [hset]
        conv_rhs => rw [hsplit]
        simp [waiting]
      exact congrArg _ hsame
  | lookedUp request =>
    change Ordered (publishNext s request)
    unfold publishNext
    split
    next publication rest hrequest =>
      obtain ⟨hsplit, -⟩ := split_at hrequest
      have hset := set_at hrequest ⟨true, rest⟩
      refine ⟨⟨h.clocked.rows, h.clocked.messages, h.clocked.ordered⟩, ?_⟩
      have hlanes := h.lanes
      have hbefore : waiting s.requests = waiting (s.requests.take request) ++ publication ::
          (rest ++ waiting (s.requests.drop (request + 1))) := by
        conv_lhs => rw [hsplit]
        simp [waiting]
      have hafter : waiting (s.requests.set request ⟨true, rest⟩) =
          waiting (s.requests.take request) ++
            (rest ++ waiting (s.requests.drop (request + 1))) := by
        rw [hset]
        simp [waiting]
      rw [hbefore] at hlanes
      rw [hafter]
      refine hlanes.hand ?_
      intro room hroom other hother
      obtain ⟨earlier, hearlier, hin⟩ := List.mem_flatMap.mp hother
      have hne := hunhurried publication rest hrequest earlier hearlier other hin
      rw [← of_decide_eq_true hroom]
      exact decide_eq_false hne
    next => exact h

/-- Where a lookup is answered only once no mutation saved before has still to publish to the
room, every room is published to in the order in which its tournament was written. -/
theorem published_in_commit_order {actions : List BroadcastAction}
    (hmeets : RunMeets step Unhurried {} actions) : InCommitOrder (run step {} actions) := by
  have h := run_keeps ordered_step hmeets ordered_start
  intro room
  exact (h.clocked.ordered room).sublist (h.lanes.handed_prefix room).sublist

/-! ## Two mutations of one tournament -/

/-- A mutation of one tournament. -/
def samplePayload : BroadcastPayload :=
  ⟨["tournament"], none, [.obj [("method", .str "setMatchUpStatus")]], none, none, none⟩

/-- The second broadcast waits for the first one. -/
theorem published_in_commit_order_two :
    InCommitOrder (run step {} [.commit samplePayload, .commit samplePayload, .respond 0,
      .respond 1, .lookedUp 0, .lookedUp 1]) := by
  apply published_in_commit_order
  refine ⟨trivial, trivial, trivial, trivial, ?_, ?_, trivial⟩
  · intro publication rest _ earlier hearlier
    exact absurd hearlier List.not_mem_nil
  · intro publication rest _ earlier hearlier other hother
    have hdone : earlier.remaining = [] := by
      rw [List.mem_singleton.mp hearlier]
      rfl
    rw [hdone] at hother
    exact absurd hother List.not_mem_nil

/-- The lookup of the second broadcast is answered first. -/
theorem published_out_of_order :
    ¬∀ actions : List BroadcastAction, InCommitOrder (run step {} actions) := by
  intro hall
  have hroom := hall [.commit samplePayload, .commit samplePayload, .respond 0, .respond 1,
    .lookedUp 1, .lookedUp 0] "tournament"
  obtain ⟨written, later, hwritten, hlater, hle, -⟩ :=
    (List.pairwise_cons.mp hroom).1 _ List.mem_cons_self
  have htwo : (2 : ℕ) = written := Option.some.inj hwritten
  have hone : (1 : ℕ) = later := Option.some.inj hlater
  omega

end FactoryServer.BroadcastOrder
