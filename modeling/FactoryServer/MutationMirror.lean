import FactoryServer.GuardedRuns
import FactoryServer.InsertionMaps
import FactoryServer.LaneOrder
import Mathlib.Data.List.Pairwise

/-!
# The mirror of mutations

A local server sends every mutation it has saved to an upstream server. The service
enqueues a mutation after its lock is released, without awaiting the insert, and a
drain posts the rows of the queue one at a time in the order of their sequence numbers.
A row is deleted once the upstream has answered; a failure ends the batch.
-/

namespace FactoryServer.MutationMirror

open InsertionMaps LaneOrder GuardedRuns

/-! ## The queue -/

/-- `MAX_BATCH`. -/
def MAX_BATCH : ℕ := 20

/-- A mutation that was saved locally. -/
structure Mutation where
  /-- Its place among the mutations saved. -/
  number : ℕ
  /-- `tournamentIds`. -/
  tournamentIds : List String
  /-- `JSON.stringify(methods)`. -/
  methods : String
  deriving DecidableEq

/-- A row of `mutation_mirror_queue`. -/
structure MirrorQueueEntry where
  /-- `sequence`. -/
  sequence : ℕ
  /-- What is mirrored. -/
  mutation : Mutation
  /-- `attempts`. -/
  attempts : ℕ
  /-- `last_error`. -/
  lastError : Option String
  deriving DecidableEq

/-- What becomes of a post. -/
inductive PostOutcome where
  /-- The upstream executes the mutation and its answer arrives. -/
  | answered
  /-- The upstream executes the mutation and its answer is lost. -/
  | answerLost
  /-- The upstream does not execute the mutation. -/
  | refused
  deriving DecidableEq

/-- The local server, its queue and the upstream. -/
structure MirrorState where
  /-- The mutations saved, in order. -/
  committed : List Mutation := []
  /-- The mutations whose insert has not executed, in the order of their commits. -/
  enqueuing : List Mutation := []
  /-- The next value of the sequence. -/
  nextSequence : ℕ := 1
  /-- The inserts that have their sequence number and are not visible yet. -/
  inserting : List MirrorQueueEntry := []
  /-- The visible rows, by their sequence numbers. -/
  queue : List MirrorQueueEntry := []
  /-- The rest of the batch that `drainOnce` works on. -/
  batch : Option (List MirrorQueueEntry) := none
  /-- The first row of the batch has been posted and is to be deleted. -/
  posted : Bool := false
  /-- The mutations as the upstream has executed them, with repeats. -/
  received : List Mutation := []
  /-- The mutations whose answer has arrived. -/
  acknowledged : List Mutation := []
  /-- The mutations whose rows were deleted, in order. -/
  removed : List Mutation := []
  /-- The mutations in the order of their sequence numbers. -/
  sequenced : List Mutation := []
  deriving DecidableEq

/-- A row takes its place by its sequence number. -/
def insertRow (entry : MirrorQueueEntry) : List MirrorQueueEntry → List MirrorQueueEntry
  | [] => [entry]
  | row :: rest =>
    if entry.sequence < row.sequence then entry :: row :: rest else row :: insertRow entry rest

/-- What may happen next. -/
inductive MirrorAction where
  /-- A mutation is saved. -/
  | commit (tournamentIds : List String) (methods : String)
  /-- An insert executes and takes the next sequence number. -/
  | insert (waiting : ℕ)
  /-- An insert is committed: its row is visible. -/
  | visible (inserting : ℕ)
  /-- `drainOnce` starts: the first rows are read. -/
  | peek
  /-- The first row of the batch is posted. -/
  | post (outcome : PostOutcome) (nacked : Bool)
  /-- The first row of the batch is deleted. -/
  | ack (stored nacked : Bool)
  /-- The process ends with no insert under way, and another one starts. -/
  | restart

/-- `nack`, which ends the batch: the row keeps its place. -/
def endBatch (s : MirrorState) (entry : MirrorQueueEntry) (nacked : Bool) : MirrorState :=
  { s with
    queue := if nacked then
        s.queue.map fun row =>
          if row.sequence = entry.sequence then
            { row with attempts := row.attempts + 1, lastError := some "failed" }
          else row
      else s.queue
    batch := none
    posted := false }

/-- The rest of a batch: `drainOnce` is over when nothing is left. -/
def restOf (rest : List MirrorQueueEntry) : Option (List MirrorQueueEntry) :=
  if rest = [] then none else some rest

/-- `postMutation` of the first row. -/
def post (s : MirrorState) (entry : MirrorQueueEntry) (outcome : PostOutcome) (nacked : Bool) :
    MirrorState :=
  match outcome with
  | .answered =>
    { s with
      received := s.received ++ [entry.mutation]
      acknowledged := s.acknowledged ++ [entry.mutation]
      posted := true }
  | .answerLost => endBatch { s with received := s.received ++ [entry.mutation] } entry nacked
  | .refused => endBatch s entry nacked

/-- `ack` of the first row. -/
def ack (s : MirrorState) (entry : MirrorQueueEntry) (rest : List MirrorQueueEntry)
    (stored nacked : Bool) : MirrorState :=
  if stored then
    { s with
      queue := s.queue.filter fun row => row.sequence ≠ entry.sequence
      batch := restOf rest
      posted := false
      removed := s.removed ++ [entry.mutation] }
  else endBatch s entry nacked

/-- One step. -/
def step (s : MirrorState) : MirrorAction → MirrorState
  | .commit tournamentIds methods =>
    let mutation : Mutation := ⟨s.committed.length, tournamentIds, methods⟩
    { s with
      committed := s.committed ++ [mutation]
      enqueuing := s.enqueuing ++ [mutation] }
  | .insert waiting =>
    match s.enqueuing[waiting]? with
    | some mutation =>
      { s with
        enqueuing := s.enqueuing.eraseIdx waiting
        nextSequence := s.nextSequence + 1
        inserting := s.inserting ++ [⟨s.nextSequence, mutation, 0, none⟩]
        sequenced := s.sequenced ++ [mutation] }
    | none => s
  | .visible inserting =>
    match s.inserting[inserting]? with
    | some entry =>
      { s with
        inserting := s.inserting.eraseIdx inserting
        queue := insertRow entry s.queue }
    | none => s
  | .peek =>
    match s.batch with
    | none => { s with batch := restOf (s.queue.take MAX_BATCH) }
    | some _ => s
  | .post outcome nacked =>
    match s.batch, s.posted with
    | some (entry :: _), false => post s entry outcome nacked
    | _, _ => s
  | .ack stored nacked =>
    match s.batch, s.posted with
    | some (entry :: rest), true => ack s entry rest stored nacked
    | _, _ => s
  | .restart =>
    if s.enqueuing = [] ∧ s.inserting = [] then { s with batch := none, posted := false } else s

/-! ## What is to be shown -/

/-- The mutation is on the tournament. -/
def onTournament (tournamentId : String) (mutation : Mutation) : Bool :=
  tournamentId ∈ mutation.tournamentIds

/-- The upstream has received, repeats aside, the first mutations of each tournament in the order
of their commits. -/
def ReceivedInOrder (s : MirrorState) : Prop :=
  ∀ tournamentId, (setOf s.received).filter (onTournament tournamentId) <+:
    s.committed.filter (onTournament tournamentId)

/-- A mutation that was inserted is in the queue until the upstream has acknowledged it. -/
def Durable (s : MirrorState) : Prop :=
  ∀ mutation ∈ s.sequenced, (∃ entry ∈ s.inserting ++ s.queue, entry.mutation = mutation) ∨
    mutation ∈ s.acknowledged

/-- An insert executes only once the rows of all mutations saved before it on its tournaments are
visible. -/
def Timely (s : MirrorState) : MirrorAction → Prop
  | .insert waiting => ∀ mutation, s.enqueuing[waiting]? = some mutation →
      FirstInLanes onTournament
        (s.inserting.map MirrorQueueEntry.mutation ++ s.enqueuing.take waiting) mutation
  | _ => True

/-! ## Rows and lanes -/

/-- The row's mutation is on the tournament. -/
def onEntry (tournamentId : String) (entry : MirrorQueueEntry) : Bool :=
  onTournament tournamentId entry.mutation

theorem mem_insertRow {entry row : MirrorQueueEntry} {rows : List MirrorQueueEntry} :
    row ∈ insertRow entry rows ↔ row = entry ∨ row ∈ rows := by
  induction rows with
  | nil => simp [insertRow]
  | cons first rest ih =>
    unfold insertRow
    split_ifs
    · exact List.mem_cons
    · rw [List.mem_cons, ih, List.mem_cons]
      exact or_left_comm

/-- The rows stay ordered. -/
theorem insertRow_sorted {entry : MirrorQueueEntry} {rows : List MirrorQueueEntry}
    (hsorted : rows.Pairwise fun a b => a.sequence < b.sequence)
    (hne : ∀ row ∈ rows, row.sequence ≠ entry.sequence) :
    (insertRow entry rows).Pairwise fun a b => a.sequence < b.sequence := by
  induction rows with
  | nil => exact List.pairwise_singleton _ _
  | cons first rest ih =>
    obtain ⟨hfirst, hrest⟩ := List.pairwise_cons.mp hsorted
    have hdistinct := hne first List.mem_cons_self
    unfold insertRow
    split_ifs with hlt
    · refine List.pairwise_cons.mpr ⟨fun row hrow => ?_, hsorted⟩
      rcases List.mem_cons.mp hrow with rfl | hrow
      · exact hlt
      · exact Nat.lt_trans hlt (hfirst row hrow)
    · refine List.pairwise_cons.mpr
        ⟨fun row hrow => ?_, ih hrest fun row hrow => hne row (List.mem_cons_of_mem _ hrow)⟩
      rcases mem_insertRow.mp hrow with rfl | hrow
      · omega
      · exact hfirst row hrow

/-- A row that is later than all rows of a lane ends the lane. -/
theorem filter_insertRow {entry : MirrorQueueEntry} {rows : List MirrorQueueEntry}
    (p : MirrorQueueEntry → Bool)
    (hsorted : rows.Pairwise fun a b => a.sequence < b.sequence)
    (hlater : p entry = true → ∀ row ∈ rows, p row = true → row.sequence < entry.sequence) :
    (insertRow entry rows).filter p = rows.filter p ++ [entry].filter p := by
  induction rows with
  | nil => rfl
  | cons first rest ih =>
    obtain ⟨hfirst, hrest⟩ := List.pairwise_cons.mp hsorted
    have htail := ih hrest fun hp row hrow => hlater hp row (List.mem_cons_of_mem _ hrow)
    unfold insertRow
    split_ifs with hlt
    · by_cases hp : p entry = true
      · have hnone : (first :: rest).filter p = [] := by
          rw [List.filter_eq_nil_iff]
          intro row hrow hpass
          have hbefore := hlater hp row hrow hpass
          rcases List.mem_cons.mp hrow with rfl | hin
          · omega
          · have := hfirst row hin
            omega
        rw [List.filter_cons_of_pos hp, hnone, List.filter_cons_of_pos hp]
        rfl
      · rw [List.filter_cons_of_neg hp, List.filter_cons_of_neg hp]
        exact (List.append_nil _).symm
    · by_cases hp : p first = true
      · rw [List.filter_cons_of_pos hp, List.filter_cons_of_pos hp, htail]
        rfl
      · rw [List.filter_cons_of_neg hp, List.filter_cons_of_neg hp, htail]

/-! ## The invariant -/

/-- The rows of a lane that are visible. -/
def queued (s : MirrorState) (tournamentId : String) : List MirrorQueueEntry :=
  s.queue.filter (onEntry tournamentId)

/-- How the sequence numbers follow the commits. -/
structure Numbered (s : MirrorState) : Prop where
  /-- A mutation carries its place. -/
  places : ∀ mutation ∈ s.committed, mutation.number < s.committed.length
  /-- No mutation is saved twice. -/
  nodup : s.committed.Nodup
  /-- Each tournament's mutations take their sequence numbers in the order of their commits. -/
  lanes : InLanes onTournament s.committed s.enqueuing s.sequenced
  /-- A tournament's mutations were deleted, or are visible, or are being inserted. -/
  rows : ∀ tournamentId, s.sequenced.filter (onTournament tournamentId) =
    s.removed.filter (onTournament tournamentId) ++
      (queued s tournamentId).map MirrorQueueEntry.mutation ++
      (s.inserting.map MirrorQueueEntry.mutation).filter (onTournament tournamentId)
  /-- The visible rows are ordered. -/
  sorted : s.queue.Pairwise fun a b => a.sequence < b.sequence
  /-- Sequence numbers have been taken. -/
  taken : ∀ entry ∈ s.queue ++ s.inserting, entry.sequence < s.nextSequence
  /-- A row that is not visible comes after the visible ones of its tournaments. -/
  apart : ∀ entry ∈ s.inserting, ∀ row ∈ s.queue, row.sequence ≠ entry.sequence ∧
    ∀ tournamentId, onEntry tournamentId entry = true → onEntry tournamentId row = true →
      row.sequence < entry.sequence
  /-- Rows that are not visible share no tournament. -/
  alone : s.inserting.Pairwise fun a b => a.sequence ≠ b.sequence ∧
    ∀ tournamentId, onEntry tournamentId a = true → onEntry tournamentId b = false

/-- What the upstream has received. -/
structure Received (s : MirrorState) : Prop where
  /-- A batch holds the first visible rows of every tournament. -/
  batched : ∀ batch, s.batch = some batch → (∀ entry ∈ batch, entry ∈ s.queue) ∧
    (batch.Pairwise fun a b => a.sequence < b.sequence) ∧
    ∀ tournamentId, batch.filter (onEntry tournamentId) <+: queued s tournamentId
  /-- The upstream has received a tournament's deleted rows, and the first visible one perhaps. -/
  received : ∀ tournamentId,
    (setOf s.received).filter (onTournament tournamentId) =
        s.removed.filter (onTournament tournamentId) ∨
      ∃ entry rest, queued s tournamentId = entry :: rest ∧
        (setOf s.received).filter (onTournament tournamentId) =
          s.removed.filter (onTournament tournamentId) ++ [entry.mutation]
  /-- A row that is to be deleted has been acknowledged. -/
  posted : s.posted = true → ∃ entry rest, s.batch = some (entry :: rest) ∧
    entry.mutation ∈ s.received ∧ entry.mutation ∈ s.acknowledged
  /-- Nothing is dropped before it is acknowledged. -/
  durable : Durable s

/-- What every state of a run meets. -/
structure Mirrored (s : MirrorState) : Prop where
  /-- The sequence numbers. -/
  numbered : Numbered s
  /-- The upstream. -/
  upstream : Received s

variable {s : MirrorState}

theorem mirrored_start : Mirrored {} where
  numbered := ⟨fun _ h => absurd h List.not_mem_nil, List.nodup_nil, inLanes_nil, fun _ => rfl,
    List.Pairwise.nil, fun _ h => absurd h List.not_mem_nil,
    fun _ h => absurd h List.not_mem_nil, List.Pairwise.nil⟩
  upstream := ⟨fun _ h => (nomatch h), fun _ => Or.inl rfl, fun h => (nomatch h),
    fun _ h => absurd h List.not_mem_nil⟩

/-! ## Saving and inserting -/

theorem mirrored_commit (h : Mirrored s) (tournamentIds : List String) (methods : String) :
    Mirrored (step s (.commit tournamentIds methods)) := by
  obtain ⟨hn, hu⟩ := h
  refine ⟨⟨?_, ?_, hn.lanes.accept _, hn.rows, hn.sorted, hn.taken, hn.apart, hn.alone⟩,
    ⟨hu.batched, hu.received, hu.posted, hu.durable⟩⟩
  · intro mutation hin
    change mutation.number < (s.committed ++ _).length
    rw [List.length_append, List.length_singleton]
    rcases List.mem_append.mp hin with hold | hnew
    · exact Nat.lt_succ_of_lt (hn.places mutation hold)
    · rw [List.mem_singleton.mp hnew]
      exact Nat.lt_succ_self _
  · refine List.nodup_append.mpr ⟨hn.nodup, List.nodup_singleton _, ?_⟩
    intro mutation hold other hnew heq
    have hplace := hn.places mutation hold
    rw [heq, List.mem_singleton.mp hnew] at hplace
    exact Nat.lt_irrefl _ hplace

theorem mirrored_insert (h : Mirrored s) {waiting : ℕ} (htimely : Timely s (.insert waiting)) :
    Mirrored (step s (.insert waiting)) := by
  obtain ⟨hn, hu⟩ := h
  cases hmutation : s.enqueuing[waiting]? with
  | none =>
    have hstep : step s (.insert waiting) = s := by simp only [step, hmutation]
    rw [hstep]
    exact ⟨hn, hu⟩
  | some mutation =>
    have hfirst := htimely mutation hmutation
    obtain ⟨hsplit, herase⟩ := split_at hmutation
    have hstep : step s (.insert waiting) =
        { s with
          enqueuing := s.enqueuing.eraseIdx waiting
          nextSequence := s.nextSequence + 1
          inserting := s.inserting ++ [⟨s.nextSequence, mutation, 0, none⟩]
          sequenced := s.sequenced ++ [mutation] } := by simp only [step, hmutation]
    rw [hstep]
    refine ⟨⟨hn.places, hn.nodup, ?_, ?_, hn.sorted, ?_, ?_, ?_⟩,
      ⟨hu.batched, hu.received, hu.posted, ?_⟩⟩
    · have hlanes := hn.lanes
      rw [hsplit] at hlanes
      simp only [herase]
      exact hlanes.hand fun lane hlane earlier hin =>
        hfirst lane hlane earlier (List.mem_append_right _ hin)
    · intro tournamentId
      simp only [List.filter_append, hn.rows tournamentId, List.map_append, List.map_cons,
        List.map_nil, List.append_assoc]
      rfl
    · intro entry hin
      simp only [List.mem_append, List.mem_singleton] at hin
      rcases hin with hold | hold | rfl
      · exact Nat.lt_succ_of_lt (hn.taken entry (List.mem_append_left _ hold))
      · exact Nat.lt_succ_of_lt (hn.taken entry (List.mem_append_right _ hold))
      · exact Nat.lt_succ_self _
    · intro entry hin row hrow
      rcases List.mem_append.mp hin with hold | hnew
      · exact hn.apart entry hold row hrow
      · have hbefore := hn.taken row (List.mem_append_left _ hrow)
        rw [List.mem_singleton.mp hnew]
        exact ⟨Nat.ne_of_lt hbefore, fun _ _ _ => hbefore⟩
    · refine List.pairwise_append.mpr ⟨hn.alone, List.pairwise_singleton _ _, ?_⟩
      intro a ha b hb
      rw [List.mem_singleton.mp hb]
      refine ⟨Nat.ne_of_lt (hn.taken a (List.mem_append_right _ ha)), fun tournamentId hona => ?_⟩
      rw [Bool.eq_false_iff]
      intro honb
      have hoff := hfirst tournamentId honb a.mutation
        (List.mem_append_left _ (List.mem_map_of_mem ha))
      exact Bool.false_ne_true (hoff.symm.trans hona)
    · intro saved hin
      rcases List.mem_append.mp hin with hold | hnew
      · refine (hu.durable saved hold).imp ?_ id
        rintro ⟨entry, hentry, hsame⟩
        refine ⟨entry, ?_, hsame⟩
        rcases List.mem_append.mp hentry with hi | hq
        · exact List.mem_append_left _ (List.mem_append_left _ hi)
        · exact List.mem_append_right _ hq
      · refine Or.inl ⟨_, List.mem_append_left _ (List.mem_append_right _ List.mem_cons_self), ?_⟩
        exact (List.mem_singleton.mp hnew).symm

/-- A row becomes visible behind the visible rows of its tournaments. -/
theorem mirrored_visible (h : Mirrored s) (inserting : ℕ) :
    Mirrored (step s (.visible inserting)) := by
  obtain ⟨hn, hu⟩ := h
  cases hentry : s.inserting[inserting]? with
  | none =>
    have hstep : step s (.visible inserting) = s := by simp only [step, hentry]
    rw [hstep]
    exact ⟨hn, hu⟩
  | some entry =>
    obtain ⟨hsplit, herase⟩ := split_at hentry
    generalize s.inserting.take inserting = before at hsplit herase
    generalize s.inserting.drop (inserting + 1) = after at hsplit herase
    have hstep : step s (.visible inserting) =
        { s with inserting := before ++ after, queue := insertRow entry s.queue } := by
      simp only [step, hentry, herase]
    rw [hstep]
    have hmem : entry ∈ s.inserting := by
      rw [hsplit]
      exact List.mem_append_right _ List.mem_cons_self
    have halone := hn.alone
    rw [hsplit, List.pairwise_append, List.pairwise_cons] at halone
    obtain ⟨hbefore, ⟨hafter, hafters⟩, hacross⟩ := halone
    have hothers : ∀ other ∈ before ++ after, other ∈ s.inserting ∧
        other.sequence ≠ entry.sequence ∧ ∀ tournamentId, onEntry tournamentId entry = true →
          onEntry tournamentId other = false := by
      intro other hin
      rw [hsplit]
      rcases List.mem_append.mp hin with hb | ha
      · have hpair := hacross other hb entry List.mem_cons_self
        refine ⟨List.mem_append_left _ hb, hpair.1, fun tournamentId hon => ?_⟩
        rw [Bool.eq_false_iff]
        intro honother
        exact Bool.false_ne_true ((hpair.2 tournamentId honother).symm.trans hon)
      · exact ⟨List.mem_append_right _ (List.mem_cons_of_mem _ ha), (hafter other ha).1.symm,
          (hafter other ha).2⟩
    have hqueued : ∀ tournamentId, (insertRow entry s.queue).filter (onEntry tournamentId) =
        queued s tournamentId ++ [entry].filter (onEntry tournamentId) := fun tournamentId =>
      filter_insertRow _ hn.sorted fun hon row hrow honrow =>
        (hn.apart entry hmem row hrow).2 tournamentId hon honrow
    refine ⟨⟨hn.places, hn.nodup, hn.lanes, ?_, ?_, ?_, ?_, ?_⟩, ⟨?_, ?_, hu.posted, ?_⟩⟩
    · intro tournamentId
      have hrows := hn.rows tournamentId
      rw [hsplit] at hrows
      change s.sequenced.filter _ = s.removed.filter _ ++
        ((insertRow entry s.queue).filter (onEntry tournamentId)).map MirrorQueueEntry.mutation ++ _
      rw [hrows, hqueued]
      by_cases hon : onEntry tournamentId entry = true
      · have hnone : ∀ others : List MirrorQueueEntry, (∀ other ∈ others, other ∈ before ++ after) →
            (others.map MirrorQueueEntry.mutation).filter (onTournament tournamentId) = [] := by
          intro others hin
          rw [List.filter_map, List.map_eq_nil_iff, List.filter_eq_nil_iff]
          intro other ho hpass
          have hoff := (hothers other (hin other ho)).2.2 tournamentId hon
          exact Bool.false_ne_true (hoff.symm.trans hpass)
        have hb := hnone before fun _ => List.mem_append_left _
        have ha := hnone after fun _ => List.mem_append_right _
        have honTournament : onTournament tournamentId entry.mutation = true := hon
        simp [hb, ha, hon, honTournament]
      · have honTournament : ¬onTournament tournamentId entry.mutation = true := hon
        simp [hon, honTournament]
    · exact insertRow_sorted hn.sorted fun row hrow => (hn.apart entry hmem row hrow).1
    · intro other hin
      rcases List.mem_append.mp hin with hq | hi
      · rcases mem_insertRow.mp hq with rfl | hq
        · exact hn.taken _ (List.mem_append_right _ hmem)
        · exact hn.taken _ (List.mem_append_left _ hq)
      · exact hn.taken _ (List.mem_append_right _ (hothers other hi).1)
    · intro other hi row hrow
      obtain ⟨hin, hne, hoff⟩ := hothers other hi
      rcases mem_insertRow.mp hrow with rfl | hrow
      · refine ⟨hne.symm, fun tournamentId hon honrow => ?_⟩
        exact absurd ((hoff tournamentId honrow).symm.trans hon) Bool.false_ne_true
      · exact hn.apart other hin row hrow
    · exact List.pairwise_append.mpr ⟨hbefore, hafters, fun a ha b hb =>
        hacross a ha b (List.mem_cons_of_mem _ hb)⟩
    · intro batch hbatch
      obtain ⟨hin, hordered, hpref⟩ := hu.batched batch hbatch
      refine ⟨fun row hrow => mem_insertRow.mpr (Or.inr (hin row hrow)), hordered, ?_⟩
      intro tournamentId
      change _ <+: (insertRow entry s.queue).filter (onEntry tournamentId)
      rw [hqueued]
      exact (hpref tournamentId).trans (List.prefix_append _ _)
    · intro tournamentId
      refine (hu.received tournamentId).imp id ?_
      rintro ⟨first, rest, hfirst, hreceived⟩
      refine ⟨first, rest ++ [entry].filter (onEntry tournamentId), ?_, hreceived⟩
      change (insertRow entry s.queue).filter (onEntry tournamentId) = _
      rw [hqueued, hfirst]
      rfl
    · intro saved hin
      refine (hu.durable saved hin).imp ?_ id
      rintro ⟨row, hrow, hsame⟩
      refine ⟨row, ?_, hsame⟩
      rw [hsplit] at hrow
      simp only [List.mem_append, List.mem_cons] at hrow ⊢
      rw [mem_insertRow]
      tauto

/-! ## Draining -/

theorem restOf_eq_some {rest batch : List MirrorQueueEntry} (h : restOf rest = some batch) :
    batch = rest := by
  unfold restOf at h
  split_ifs at h
  exact (Option.some.inj h).symm

theorem mirrored_peek (h : Mirrored s) : Mirrored (step s .peek) := by
  obtain ⟨hn, hu⟩ := h
  cases hbatch : s.batch with
  | some batch =>
    have hstep : step s .peek = s := by simp only [step, hbatch]
    rw [hstep]
    exact ⟨hn, hu⟩
  | none =>
    have hstep : step s .peek = { s with batch := restOf (s.queue.take MAX_BATCH) } := by
      simp only [step, hbatch]
    rw [hstep]
    refine ⟨⟨hn.places, hn.nodup, hn.lanes, hn.rows, hn.sorted, hn.taken, hn.apart, hn.alone⟩,
      ⟨?_, hu.received, ?_, hu.durable⟩⟩
    · intro batch hrest
      obtain rfl := restOf_eq_some hrest
      exact ⟨fun entry hin => List.mem_of_mem_take hin,
        hn.sorted.sublist (List.take_sublist _ _),
        fun tournamentId => (List.take_prefix _ _).filter _⟩
    · intro hposted
      obtain ⟨entry, rest, hsome, -⟩ := hu.posted hposted
      rw [hbatch] at hsome
      cases hsome

/-- Notes on the rows change nothing that matters. -/
theorem numbered_noted (hn : Numbered s) {note : MirrorQueueEntry → MirrorQueueEntry}
    (hnote : ∀ row, (note row).sequence = row.sequence ∧ (note row).mutation = row.mutation) :
    Numbered { s with queue := s.queue.map note, batch := none, posted := false } where
  places := hn.places
  nodup := hn.nodup
  lanes := hn.lanes
  rows := by
    intro tournamentId
    have hqueued : ((s.queue.map note).filter (onEntry tournamentId)).map
        MirrorQueueEntry.mutation = (queued s tournamentId).map MirrorQueueEntry.mutation := by
      have hpass : onEntry tournamentId ∘ note = onEntry tournamentId := by
        funext row
        simp only [Function.comp_apply, onEntry, (hnote row).2]
      rw [List.filter_map, hpass, List.map_map]
      exact List.map_congr_left fun row _ => (hnote row).2
    change _ = _ ++ ((s.queue.map note).filter (onEntry tournamentId)).map _ ++ _
    rw [hqueued]
    exact hn.rows tournamentId
  sorted := by
    rw [List.pairwise_map]
    exact hn.sorted.imp fun hlt => by rwa [(hnote _).1, (hnote _).1]
  taken := by
    intro entry hin
    rcases List.mem_append.mp hin with hq | hi
    · obtain ⟨row, hrow, rfl⟩ := List.mem_map.mp hq
      rw [(hnote row).1]
      exact hn.taken row (List.mem_append_left _ hrow)
    · exact hn.taken entry (List.mem_append_right _ hi)
  apart := by
    intro entry hin row hrow
    obtain ⟨old, hold, rfl⟩ := List.mem_map.mp hrow
    have hsame : ∀ tournamentId, onEntry tournamentId (note old) = onEntry tournamentId old := by
      intro tournamentId
      simp only [onEntry, (hnote old).2]
    rw [(hnote old).1]
    exact ⟨(hn.apart entry hin old hold).1, fun tournamentId hon honrow =>
      (hn.apart entry hin old hold).2 tournamentId hon ((hsame tournamentId).symm.trans honrow)⟩
  alone := hn.alone

theorem received_noted (hu : Received s) {note : MirrorQueueEntry → MirrorQueueEntry}
    (hnote : ∀ row, (note row).sequence = row.sequence ∧ (note row).mutation = row.mutation) :
    Received { s with queue := s.queue.map note, batch := none, posted := false } where
  batched := fun _ h => (nomatch h)
  received := by
    intro tournamentId
    refine (hu.received tournamentId).imp id ?_
    rintro ⟨entry, rest, hqueued, hreceived⟩
    refine ⟨note entry, rest.map note, ?_, ?_⟩
    · have hpass : onEntry tournamentId ∘ note = onEntry tournamentId := by
        funext row
        simp only [Function.comp_apply, onEntry, (hnote row).2]
      change (s.queue.map note).filter (onEntry tournamentId) = _
      change s.queue.filter (onEntry tournamentId) = entry :: rest at hqueued
      rw [List.filter_map, hpass, hqueued, List.map_cons]
    · rw [(hnote entry).2]
      exact hreceived
  posted := fun h => (nomatch h)
  durable := by
    intro saved hin
    refine (hu.durable saved hin).imp ?_ id
    rintro ⟨row, hrow, hsame⟩
    rcases List.mem_append.mp hrow with hi | hq
    · exact ⟨row, List.mem_append_left _ hi, hsame⟩
    · exact ⟨note row, List.mem_append_right _ (List.mem_map_of_mem hq),
        (hnote row).2.trans hsame⟩

/-- A batch that ends leaves the rows where they are. -/
theorem mirrored_endBatch (h : Mirrored s) (entry : MirrorQueueEntry) (nacked : Bool) :
    Mirrored (endBatch s entry nacked) := by
  cases nacked with
  | false =>
    have hsame : endBatch s entry false =
        { s with queue := s.queue.map id, batch := none, posted := false } := by
      simp [endBatch]
    rw [hsame]
    exact ⟨numbered_noted h.numbered fun _ => ⟨rfl, rfl⟩,
      received_noted h.upstream fun _ => ⟨rfl, rfl⟩⟩
  | true =>
    have hnote : ∀ row : MirrorQueueEntry, ∀ noted : MirrorQueueEntry,
        noted = (if row.sequence = entry.sequence then
          { row with attempts := row.attempts + 1, lastError := some "failed" } else row) →
        noted.sequence = row.sequence ∧ noted.mutation = row.mutation := by
      rintro row _ rfl
      split_ifs <;> exact ⟨rfl, rfl⟩
    exact ⟨numbered_noted h.numbered fun row => hnote row _ rfl,
      received_noted h.upstream fun row => hnote row _ rfl⟩

/-- The row at the head of a batch is the first visible one of its tournaments. -/
theorem head_queued (hu : Received s) {entry : MirrorQueueEntry} {rest : List MirrorQueueEntry}
    (hbatch : s.batch = some (entry :: rest)) {tournamentId : String}
    (hon : onEntry tournamentId entry = true) :
    ∃ later, queued s tournamentId = entry :: later := by
  obtain ⟨later, hlater⟩ := (hu.batched _ hbatch).2.2 tournamentId
  rw [List.filter_cons_of_pos hon] at hlater
  exact ⟨_, hlater.symm⟩

/-- A visible row has not been deleted. -/
theorem not_removed (hn : Numbered s) {entry : MirrorQueueEntry} {later : List MirrorQueueEntry}
    {tournamentId : String} (hqueued : queued s tournamentId = entry :: later) :
    entry.mutation ∉ s.removed.filter (onTournament tournamentId) := by
  intro hin
  have hnodup : (s.sequenced.filter (onTournament tournamentId)).Nodup :=
    (hn.nodup.filter _).sublist (hn.lanes.handed_prefix tournamentId).sublist
  rw [hn.rows tournamentId, hqueued, List.append_assoc] at hnodup
  exact (List.nodup_append.mp hnodup).2.2 _ hin _ List.mem_cons_self rfl

/-- The upstream executes the row at the head of the batch. -/
theorem received_post (h : Mirrored s) {entry : MirrorQueueEntry} {rest : List MirrorQueueEntry}
    (hbatch : s.batch = some (entry :: rest)) (tournamentId : String) :
    (setOf (s.received ++ [entry.mutation])).filter (onTournament tournamentId) =
        s.removed.filter (onTournament tournamentId) ∨
      ∃ first later, queued s tournamentId = first :: later ∧
        (setOf (s.received ++ [entry.mutation])).filter (onTournament tournamentId) =
          s.removed.filter (onTournament tournamentId) ++ [first.mutation] := by
  obtain ⟨hn, hu⟩ := h
  have hstep : setOf (s.received ++ [entry.mutation]) =
      addItem (setOf s.received) entry.mutation := setOf_append s.received [entry.mutation]
  by_cases hin : entry.mutation ∈ setOf s.received
  · have hsame : setOf (s.received ++ [entry.mutation]) = setOf s.received := by
      rw [hstep, addItem, if_pos hin]
    rw [hsame]
    exact hu.received tournamentId
  · rw [hstep, addItem, if_neg hin, List.filter_append]
    by_cases hon : onTournament tournamentId entry.mutation = true
    · rw [List.filter_cons_of_pos hon, List.filter_nil]
      obtain ⟨later, hlater⟩ := head_queued hu hbatch hon
      refine Or.inr ⟨entry, later, hlater, ?_⟩
      rcases hu.received tournamentId with hnone | ⟨first, others, hfirst, hone⟩
      · rw [hnone]
      · rw [hlater] at hfirst
        obtain ⟨rfl, -⟩ := List.cons.inj hfirst
        have hmem : entry.mutation ∈
            (setOf s.received).filter (onTournament tournamentId) := by
          rw [hone]
          exact List.mem_append_right _ List.mem_cons_self
        exact absurd (List.mem_filter.mp hmem).1 hin
    · rw [List.filter_cons_of_neg hon, List.filter_nil, List.append_nil]
      exact hu.received tournamentId

/-- The upstream has executed the row, whether or not its answer arrives. -/
theorem mirrored_executed (h : Mirrored s) {entry : MirrorQueueEntry}
    {rest : List MirrorQueueEntry} (hbatch : s.batch = some (entry :: rest)) :
    Mirrored { s with received := s.received ++ [entry.mutation] } where
  numbered := ⟨h.numbered.places, h.numbered.nodup, h.numbered.lanes, h.numbered.rows,
    h.numbered.sorted, h.numbered.taken, h.numbered.apart, h.numbered.alone⟩
  upstream := by
    refine ⟨h.upstream.batched, received_post h hbatch, ?_, h.upstream.durable⟩
    intro hposted
    obtain ⟨first, later, hsome, hin, hanswered⟩ := h.upstream.posted hposted
    exact ⟨first, later, hsome, List.mem_append_left _ hin, hanswered⟩

theorem mirrored_post (h : Mirrored s) (outcome : PostOutcome) (nacked : Bool) :
    Mirrored (step s (.post outcome nacked)) := by
  cases hbatch : s.batch with
  | none =>
    have hstep : step s (.post outcome nacked) = s := by simp only [step, hbatch]
    rwa [hstep]
  | some batch =>
    cases batch with
    | nil =>
      have hstep : step s (.post outcome nacked) = s := by simp only [step, hbatch]
      rwa [hstep]
    | cons entry rest =>
      cases hposted : s.posted with
      | true =>
        have hstep : step s (.post outcome nacked) = s := by simp only [step, hbatch, hposted]
        rwa [hstep]
      | false =>
        have hstep : step s (.post outcome nacked) = post s entry outcome nacked := by
          simp only [step, hbatch, hposted]
        have hexecuted := mirrored_executed h hbatch
        rw [hstep]
        cases outcome with
        | answered =>
          refine ⟨⟨hexecuted.numbered.places, hexecuted.numbered.nodup, hexecuted.numbered.lanes,
            hexecuted.numbered.rows, hexecuted.numbered.sorted, hexecuted.numbered.taken,
            hexecuted.numbered.apart, hexecuted.numbered.alone⟩,
            ⟨hexecuted.upstream.batched, hexecuted.upstream.received, ?_, ?_⟩⟩
          · exact fun _ => ⟨entry, rest, hbatch, List.mem_append_right _ List.mem_cons_self,
              List.mem_append_right _ List.mem_cons_self⟩
          · exact fun saved hin => (h.upstream.durable saved hin).imp id fun hanswered =>
              List.mem_append_left _ hanswered
        | answerLost => exact mirrored_endBatch hexecuted entry nacked
        | refused => exact mirrored_endBatch h entry nacked

/-- A visible row is found by its sequence number. -/
theorem sequence_inj (hn : Numbered s) {row other : MirrorQueueEntry} (hrow : row ∈ s.queue)
    (hother : other ∈ s.queue) : row.sequence = other.sequence ↔ row = other := by
  refine ⟨fun heq => ?_, fun heq => heq ▸ rfl⟩
  by_contra hne
  have hapart : s.queue.Pairwise fun a b => a.sequence ≠ b.sequence :=
    hn.sorted.imp Nat.ne_of_lt
  have hsymm : Std.Symm fun a b : MirrorQueueEntry => a.sequence ≠ b.sequence :=
    ⟨fun _ _ => Ne.symm⟩
  exact hapart.forall hrow hother hne heq

/-- The visible rows of a tournament without the row at the head of the batch. -/
theorem queued_ack {entry : MirrorQueueEntry} (hn : Numbered s) (hin : entry ∈ s.queue)
    (tournamentId : String) :
    (s.queue.filter fun row => row.sequence ≠ entry.sequence).filter (onEntry tournamentId) =
      (queued s tournamentId).filter fun row => row ≠ entry := by
  rw [queued, List.filter_filter, List.filter_filter]
  refine List.filter_congr fun row hrow => ?_
  rw [Bool.and_comm]
  simp only [ne_eq, sequence_inj hn hrow hin]

/-- The row at the head of the batch is deleted. -/
theorem mirrored_acked (h : Mirrored s) {entry : MirrorQueueEntry} {rest : List MirrorQueueEntry}
    (hbatch : s.batch = some (entry :: rest)) (hposted : s.posted = true) :
    Mirrored (ack s entry rest true false) := by
  obtain ⟨hn, hu⟩ := h
  obtain ⟨hbatched, hordered, -⟩ := hu.batched _ hbatch
  have hentry : entry ∈ s.queue := hbatched entry List.mem_cons_self
  obtain ⟨hreceived, hanswered⟩ : entry.mutation ∈ s.received ∧
      entry.mutation ∈ s.acknowledged := by
    obtain ⟨first, later, hsome, hin⟩ := hu.posted hposted
    rw [hbatch] at hsome
    cases hsome
    exact hin
  have hkept : ∀ row ∈ s.queue.filter (fun row => row.sequence ≠ entry.sequence),
      row ∈ s.queue := fun row hrow => (List.mem_filter.mp hrow).1
  -- In a lane of the row it is the first visible one, in the others nothing is deleted.
  have hon : ∀ tournamentId, onEntry tournamentId entry = true → ∃ later,
      queued s tournamentId = entry :: later ∧
        (s.queue.filter fun row => row.sequence ≠ entry.sequence).filter
          (onEntry tournamentId) = later := by
    intro tournamentId hpass
    obtain ⟨later, hlater⟩ := head_queued hu hbatch hpass
    refine ⟨later, hlater, ?_⟩
    rw [queued_ack hn hentry, hlater, List.filter_cons_of_neg (by simp), List.filter_eq_self]
    intro row hrow
    have hsorted : (queued s tournamentId).Pairwise fun a b => a.sequence < b.sequence :=
      hn.sorted.filter _
    rw [hlater] at hsorted
    have hlt := (List.pairwise_cons.mp hsorted).1 row hrow
    simp only [ne_eq, decide_eq_true_eq]
    rintro rfl
    exact Nat.lt_irrefl _ hlt
  have hoff : ∀ tournamentId, ¬onEntry tournamentId entry = true →
      (s.queue.filter fun row => row.sequence ≠ entry.sequence).filter (onEntry tournamentId) =
        queued s tournamentId := by
    intro tournamentId hpass
    rw [queued_ack hn hentry, List.filter_eq_self]
    intro row hrow
    simp only [ne_eq, decide_eq_true_eq]
    rintro rfl
    exact hpass (List.mem_filter.mp hrow).2
  refine ⟨⟨hn.places, hn.nodup, hn.lanes, ?_, hn.sorted.filter _, ?_, ?_, hn.alone⟩,
    ⟨?_, ?_, fun hfalse => (nomatch hfalse), ?_⟩⟩
  · intro tournamentId
    change s.sequenced.filter _ = (s.removed ++ [entry.mutation]).filter _ ++
      ((s.queue.filter _).filter (onEntry tournamentId)).map MirrorQueueEntry.mutation ++ _
    rw [hn.rows tournamentId, List.filter_append]
    by_cases hpass : onEntry tournamentId entry = true
    · obtain ⟨later, hlater, hleft⟩ := hon tournamentId hpass
      have hthere : onTournament tournamentId entry.mutation = true := hpass
      rw [hleft, hlater, List.filter_cons_of_pos hthere, List.filter_nil, List.map_cons]
      simp only [List.append_assoc, List.cons_append, List.nil_append]
      rfl
    · have hthere : ¬onTournament tournamentId entry.mutation = true := hpass
      rw [hoff tournamentId hpass, List.filter_cons_of_neg hthere, List.filter_nil,
        List.append_nil]
      rfl
  · intro row hrow
    rcases List.mem_append.mp hrow with hq | hi
    · exact hn.taken row (List.mem_append_left _ (hkept row hq))
    · exact hn.taken row (List.mem_append_right _ hi)
  · exact fun other hother row hrow => hn.apart other hother row (hkept row hrow)
  · intro batch hrest
    obtain rfl := restOf_eq_some hrest
    obtain ⟨hafter, hrestOrdered⟩ := List.pairwise_cons.mp hordered
    refine ⟨fun row hrow => ?_, hrestOrdered, fun tournamentId => ?_⟩
    · refine List.mem_filter.mpr ⟨hbatched row (List.mem_cons_of_mem _ hrow), ?_⟩
      rw [decide_eq_true_eq]
      exact (Nat.ne_of_lt (hafter row hrow)).symm
    · have hpref := (hu.batched _ hbatch).2.2 tournamentId
      by_cases hpass : onEntry tournamentId entry = true
      · obtain ⟨later, hlater, hleft⟩ := hon tournamentId hpass
        rw [List.filter_cons_of_pos hpass, hlater] at hpref
        change _ <+: (s.queue.filter _).filter (onEntry tournamentId)
        rw [hleft]
        exact (List.cons_prefix_cons.mp hpref).2
      · rw [List.filter_cons_of_neg hpass] at hpref
        change _ <+: (s.queue.filter _).filter (onEntry tournamentId)
        rw [hoff tournamentId hpass]
        exact hpref
  · intro tournamentId
    change _ = (s.removed ++ [entry.mutation]).filter (onTournament tournamentId) ∨
      ∃ first later, (s.queue.filter _).filter (onEntry tournamentId) = first :: later ∧
        _ = (s.removed ++ [entry.mutation]).filter (onTournament tournamentId) ++ _
    rw [List.filter_append]
    by_cases hpass : onEntry tournamentId entry = true
    · obtain ⟨later, hlater, -⟩ := hon tournamentId hpass
      have hthere : onTournament tournamentId entry.mutation = true := hpass
      rw [List.filter_cons_of_pos hthere, List.filter_nil]
      refine Or.inl ?_
      rcases hu.received tournamentId with hnone | ⟨first, others, hfirst, hone⟩
      · have hin : entry.mutation ∈ (setOf s.received).filter (onTournament tournamentId) :=
          List.mem_filter.mpr ⟨mem_setOf.mpr hreceived, hthere⟩
        rw [hnone] at hin
        exact absurd hin (not_removed hn hlater)
      · rw [hlater] at hfirst
        obtain ⟨rfl, -⟩ := List.cons.inj hfirst
        exact hone
    · have hthere : ¬onTournament tournamentId entry.mutation = true := hpass
      rw [List.filter_cons_of_neg hthere, List.filter_nil, List.append_nil,
        hoff tournamentId hpass]
      exact hu.received tournamentId
  · intro saved hin
    rcases hu.durable saved hin with ⟨row, hrow, hsame⟩ | hdone
    · rcases List.mem_append.mp hrow with hi | hq
      · exact Or.inl ⟨row, List.mem_append_left _ hi, hsame⟩
      · by_cases hrowEntry : row.sequence = entry.sequence
        · refine Or.inr ?_
          rw [← hsame, (sequence_inj hn hq hentry).mp hrowEntry]
          exact hanswered
        · exact Or.inl ⟨row, List.mem_append_right _ (List.mem_filter.mpr
            ⟨hq, decide_eq_true hrowEntry⟩), hsame⟩
    · exact Or.inr hdone

theorem mirrored_ack (h : Mirrored s) (stored nacked : Bool) :
    Mirrored (step s (.ack stored nacked)) := by
  cases hbatch : s.batch with
  | none =>
    have hstep : step s (.ack stored nacked) = s := by simp only [step, hbatch]
    rwa [hstep]
  | some batch =>
    cases batch with
    | nil =>
      have hstep : step s (.ack stored nacked) = s := by simp only [step, hbatch]
      rwa [hstep]
    | cons entry rest =>
      cases hposted : s.posted with
      | false =>
        have hstep : step s (.ack stored nacked) = s := by simp only [step, hbatch, hposted]
        rwa [hstep]
      | true =>
        have hstep : step s (.ack stored nacked) = ack s entry rest stored nacked := by
          simp only [step, hbatch, hposted]
        rw [hstep]
        cases stored with
        | true => exact mirrored_acked h hbatch hposted
        | false => exact mirrored_endBatch h entry nacked

/-- Another process finds the rows and no batch. -/
theorem mirrored_restart (h : Mirrored s) : Mirrored (step s .restart) := by
  obtain ⟨hn, hu⟩ := h
  unfold step
  split_ifs
  · exact ⟨⟨hn.places, hn.nodup, hn.lanes, hn.rows, hn.sorted, hn.taken, hn.apart, hn.alone⟩,
      ⟨fun _ hbatch => (nomatch hbatch), hu.received, fun hposted => (nomatch hposted),
        hu.durable⟩⟩
  · exact ⟨hn, hu⟩

/-! ## Every run -/

/-- A timely step keeps the mirror in order. -/
theorem mirrored_step {action : MirrorAction} (htimely : Timely s action) (h : Mirrored s) :
    Mirrored (step s action) := by
  cases action with
  | commit tournamentIds methods => exact mirrored_commit h tournamentIds methods
  | insert waiting => exact mirrored_insert h htimely
  | visible inserting => exact mirrored_visible h inserting
  | peek => exact mirrored_peek h
  | post outcome nacked => exact mirrored_post h outcome nacked
  | ack stored nacked => exact mirrored_ack h stored nacked
  | restart => exact mirrored_restart h

/-- The upstream has received every tournament's mutations in order. -/
theorem receivedInOrder_of_mirrored (h : Mirrored s) : ReceivedInOrder s := by
  obtain ⟨hn, hu⟩ := h
  intro tournamentId
  refine List.IsPrefix.trans ?_ (hn.lanes.handed_prefix tournamentId)
  rw [hn.rows tournamentId]
  rcases hu.received tournamentId with hnone | ⟨entry, later, hqueued, hone⟩
  · rw [hnone, List.append_assoc]
    exact List.prefix_append _ _
  · rw [hone, hqueued, List.map_cons, List.append_assoc]
    exact (List.prefix_append_right_inj _).mpr ⟨_, rfl⟩

/-- Where an insert executes only once the rows of all mutations saved before it on its
tournaments are visible, the upstream receives every tournament's mutations in the order of
their commits, and no row is deleted before its mutation is acknowledged. -/
theorem mirror_keeps_order {actions : List MirrorAction}
    (hmeets : RunMeets step Timely {} actions) :
    ReceivedInOrder (run step {} actions) ∧ Durable (run step {} actions) := by
  have h : Mirrored (run step {} actions) :=
    run_keeps (fun _ _ htimely h => mirrored_step htimely h) hmeets mirrored_start
  exact ⟨receivedInOrder_of_mirrored h, h.upstream.durable⟩

/-! ## Two mutations of one tournament -/

/-- Each of the two rows is visible before the next one is inserted; an answer is lost. -/
theorem mirror_keeps_order_retried :
    let actions : List MirrorAction := [.commit ["tournament"] "first", .insert 0, .visible 0,
      .commit ["tournament"] "second", .insert 0, .visible 0, .peek, .post .answerLost true,
      .peek, .post .answered true, .ack true true, .post .answered true, .ack true true]
    ReceivedInOrder (run step {} actions) ∧ Durable (run step {} actions) := by
  intro actions
  apply mirror_keeps_order
  have hnone : ∀ mutation : Mutation, FirstInLanes onTournament [] mutation :=
    fun _ _ _ _ hin => absurd hin List.not_mem_nil
  exact ⟨trivial, fun mutation _ => hnone mutation, trivial, trivial,
    fun mutation _ => hnone mutation, trivial, trivial, trivial, trivial, trivial, trivial,
    trivial, trivial, trivial⟩

/-- The insert of the second mutation executes first, and the upstream receives it first. -/
theorem mirror_loses_order :
    ¬∀ actions : List MirrorAction,
      ReceivedInOrder (run step {} actions) ∧ Durable (run step {} actions) := by
  intro hall
  have hreceived := (hall [.commit ["tournament"] "first", .commit ["tournament"] "second",
    .insert 1, .visible 0, .insert 0, .visible 0, .peek, .post .answered true]).1 "tournament"
  revert hreceived
  decide

end FactoryServer.MutationMirror
