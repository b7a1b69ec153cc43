import FactoryServer.FindingsQueue

/-!
# Seed reads behind the findings queue

A seed read flushes the queue, awaits the drain and then queries the table. It sees the
rows that this process recorded before the call where the drain it awaits writes them. A
drain that fails returns with rows still queued, and one that has returned already does
not look at the queue again until it is forgotten.
-/

namespace FactoryServer.SeedReads

open GuardedRuns FindingsQueue PrimaryKeys
open IntegrityScans (DrawIntegrityFindingRow DrawOpenFindings loadOpenFindings rowsOf
  MAX_QUEUED_FINDING_ROWS MAX_FINDING_ROWS_PER_WRITE)

/-- The row was recorded before the call, for the draw that is read. -/
def OwedTo (read : SeedRead) (row : NumberedRow) : Prop :=
  row.2 < read.recorded ∧ row.1.drawId = read.drawId ∧ row.1.tournamentId = read.tournamentId

/-- The rows recorded before the call that are neither stored nor dropped. -/
def owedRows (s : QueueState) (read : SeedRead) : List DrawIntegrityFindingRow :=
  (s.held.filter fun row => row.2 < read.recorded).map Prod.fst

/-- A read is answered with what the stored rows, followed by the rows that this process
recorded before the call and has neither stored nor dropped, replay to. -/
def SeesOwnRows (s : QueueState) : QueueAction → Prop
  | .query index =>
    ∀ read found, s.reads[index]? = some read → read.stage = .querying →
      (step s (.query index)).reads[index]? = some { read with stage := .answered found } →
        found = loadOpenFindings (s.table ++ owedRows s read) read.tournamentId read.drawId
  | _ => True

/-- A read does not share a drain that has returned while rows of its draw are queued, and
a drain that a read awaits does not put back rows that were recorded for its draw before
the call. -/
def FlushReaches (s : QueueState) : QueueAction → Prop
  | .loadOpen tournamentId drawId =>
    (∃ drain ∈ s.drains, drain.stage = .ended) → ∀ row ∈ s.queue,
      ¬ (row.1.drawId = drawId ∧ row.1.tournamentId = tournamentId)
  | .resume id =>
    ∀ batch, (⟨id, .refused batch⟩ : Drain) ∈ s.drains → ∀ read ∈ s.reads,
      read.stage = .awaiting id →
        ∀ row ∈ (batch ++ s.queue).take MAX_QUEUED_FINDING_ROWS, ¬ OwedTo read row
  | _ => True

/-! ## What a step keeps -/

/-- Nothing that was recorded for the draw before the call is still held. -/
def NothingOwed (s : QueueState) (read : SeedRead) : Prop := ∀ row ∈ s.held, ¬ OwedTo read row

/-- What is stored stays stored. -/
theorem stored_grows (s : QueueState) (a : QueueAction) : s.stored <+: (step s a).stored := by
  have hflush : ∀ t : QueueState, t.stored = s.stored → s.stored <+: (flush t).stored := by
    intro t hstored
    have hsame : (flush t).stored = s.stored := (flush_storage t).1.trans hstored
    exact hsame ▸ List.prefix_refl _
  cases a with
  | record off rows =>
    simp only [step, record]
    split
    · exact List.prefix_refl _
    · rw [recordRows]
      split <;> exact List.prefix_refl _
  | loadOpen tournamentId drawId => exact hflush s rfl
  | flush => exact hflush s rfl
  | immediate =>
    simp only [step]
    split
    · exact hflush _ rfl
    · exact List.prefix_refl _
  | retry =>
    simp only [step]
    split
    · exact hflush _ rfl
    · exact List.prefix_refl _
  | settle id written =>
    simp only [step, settleAppend]
    split
    · split
      · exact List.prefix_append _ _
      · exact List.prefix_refl _
    · exact List.prefix_refl _
  | resume id =>
    simp only [step, resumeDrain]
    split
    · exact List.prefix_refl _
    · rw [resumeRefused, scheduleRetry_eq]
      exact List.prefix_refl _
    · exact List.prefix_refl _
  | finish id =>
    simp only [step, finishDrain]
    split <;> exact List.prefix_refl _
  | resumeRead read => exact List.prefix_refl _
  | query read => exact List.prefix_refl _
  | destroy => exact hflush _ rfl
  | elsewhere rows => exact List.prefix_refl _

/-- What a step holds was held or is incoming. -/
theorem held_step {s : QueueState} (hshared : Shared s) (a : QueueAction) {row : NumberedRow}
    (hrow : row ∈ (step s a).held) : row ∈ s.held ∨ row ∈ incoming s a := by
  obtain ⟨dropped, hmoves⟩ := moves_step hshared a
  obtain ⟨batch, hbatch⟩ := stored_grows s a
  have hkept := hmoves.kept
  rw [← hbatch, List.append_assoc, List.append_assoc, List.append_assoc, List.append_cancel_left_eq]
    at hkept
  have hmem : row ∈ batch ++ ((step s a).held ++ dropped) :=
    List.mem_append_right _ (List.mem_append_left _ hrow)
  rw [hkept] at hmem
  exact List.mem_append.mp hmem

/-- Incoming rows come after those recorded. -/
theorem le_of_incoming {s : QueueState} {a : QueueAction} {row : NumberedRow}
    (hrow : row ∈ incoming s a) : s.recorded.length ≤ row.2 := by
  cases a with
  | record off rows =>
    rw [incoming] at hrow
    split at hrow
    · cases hrow
    · exact List.le_snd_of_mem_zipIdx hrow
  | _ => cases hrow

/-- What is not owed stays so. -/
theorem nothingOwed_step {s : QueueState} (hshared : Shared s) (a : QueueAction) {read : SeedRead}
    (hread : read.recorded ≤ s.recorded.length) (h : NothingOwed s read) :
    NothingOwed (step s a) read := by
  intro row hrow howed
  obtain hheld | hin := held_step hshared a hrow
  · exact h row hheld howed
  · exact absurd howed.1 (Nat.not_lt.mpr (hread.trans (le_of_incoming hin)))

/-- No drain with the promise `id` is still running. -/
def Returned (s : QueueState) (id : ℕ) : Prop :=
  ∀ drain ∈ s.drains, drain.id = id → drain.stage = .ended

/-- Nothing is owed to a read that queries or whose drain has returned. -/
def SeedAhead (s : QueueState) (read : SeedRead) : Prop :=
  match read.stage with
  | .awaiting id => id < s.begun ∧ (Returned s id → NothingOwed s read)
  | .querying => NothingOwed s read
  | .answered _ => True

/-- What holds of the reads where every flush reaches the rows it is for. -/
structure SeedsAhead (s : QueueState) : Prop where
  /-- The only drain is the shared one. -/
  shared : Shared s
  /-- Drains are numbered as they begin. -/
  begun : ∀ drain ∈ s.drains, drain.id < s.begun
  /-- A read counts the rows recorded before its call. -/
  counted : ∀ read ∈ s.reads, read.recorded ≤ s.recorded.length
  /-- Nothing is owed to a read whose flush is over. -/
  ahead : ∀ read ∈ s.reads, SeedAhead s read

/-- A step that keeps a read leaves nothing owed to it where nothing was, or where it ends
the read's drain with nothing owed. -/
theorem seedAhead_step {s : QueueState} (hshared : Shared s) (a : QueueAction) {read : SeedRead}
    (hread : read.recorded ≤ s.recorded.length) (h : SeedAhead s read)
    (hbegun : s.begun ≤ (step s a).begun)
    (hreturned : ∀ id, read.stage = .awaiting id → id < s.begun → Returned (step s a) id →
      Returned s id ∨ NothingOwed (step s a) read) : SeedAhead (step s a) read := by
  have hkeeps := nothingOwed_step hshared a hread
  cases hstage : read.stage with
  | awaiting id =>
    simp only [SeedAhead, hstage] at h ⊢
    refine ⟨Nat.lt_of_lt_of_le h.1 hbegun, fun hafter => ?_⟩
    obtain hbefore | hnothing := hreturned id hstage h.1 hafter
    · exact hkeeps (h.2 hbefore)
    · exact hnothing
  | querying =>
    simp only [SeedAhead, hstage] at h ⊢
    exact hkeeps h
  | answered found => simp only [SeedAhead, hstage]

/-- A flush begins one drain at most, after all others. -/
theorem flush_drains (s : QueueState) :
    (flush s).reads = s.reads ∧ s.begun ≤ (flush s).begun ∧
      (∀ id, Returned (flush s) id → Returned s id) ∧
      ((∀ drain ∈ s.drains, drain.id < s.begun) →
        ∀ drain ∈ (flush s).drains, drain.id < (flush s).begun) := by
  rw [flush]
  split
  · exact ⟨rfl, Nat.le_refl _, fun _ h => h, fun h => h⟩
  · refine ⟨rfl, Nat.le_succ _, fun id h drain hdrain => h drain (List.mem_append_left _ hdrain),
      fun h drain hdrain => ?_⟩
    obtain hold | hnew := List.mem_append.mp hdrain
    · exact Nat.lt_succ_of_lt (h drain hold)
    · rw [List.mem_singleton.mp hnew]
      exact Nat.lt_succ_self _

/-- A step that touches no read keeps what holds of them, where it ends a drain only with
nothing owed to the reads that await it. -/
theorem seedsAhead_of_reads {s : QueueState} (h : SeedsAhead s) (a : QueueAction)
    (hreads : (step s a).reads = s.reads) (hbegun : s.begun ≤ (step s a).begun)
    (hids : ∀ drain ∈ (step s a).drains, drain.id < (step s a).begun)
    (hreturned : ∀ read ∈ s.reads, ∀ id, read.stage = .awaiting id → Returned (step s a) id →
      Returned s id ∨ NothingOwed (step s a) read) : SeedsAhead (step s a) where
  shared := shared_step h.shared a
  begun := hids
  counted := by
    intro read hread
    rw [hreads] at hread
    rw [recorded_step h.shared a, List.length_append]
    exact (h.counted read hread).trans (Nat.le_add_right _ _)
  ahead := by
    intro read hread
    rw [hreads] at hread
    exact seedAhead_step h.shared a (h.counted read hread) (h.ahead read hread) hbegun
      fun id hstage _ hafter => hreturned read hread id hstage hafter

/-- A step that flushes and touches no read. -/
theorem seedsAhead_flush {s t : QueueState} (h : SeedsAhead s) (a : QueueAction)
    (hstep : step s a = flush t) (hreads : t.reads = s.reads) (hbegun : t.begun = s.begun)
    (hdrains : t.drains = s.drains) : SeedsAhead (step s a) := by
  obtain ⟨hkept, hcount, hback, hids⟩ := flush_drains t
  refine seedsAhead_of_reads h a ?_ ?_ ?_ fun read _ id _ hafter => .inl ?_
  · rw [hstep, hkept, hreads]
  · rw [hstep, ← hbegun]
    exact hcount
  · rw [hstep]
    refine hids ?_
    rw [hdrains, hbegun]
    exact h.begun
  · rw [hstep] at hafter
    have hbefore := hback id hafter
    rw [Returned, hdrains] at hbefore
    exact hbefore

/-- Where the only drain moves on, another promise has returned before and after. -/
theorem returned_of_ne {s : QueueState} {found id : ℕ} {stage : DrainStage}
    (hdrains : s.drains = [⟨found, stage⟩]) (hne : id ≠ found) : Returned s id := by
  intro drain hdrain hid
  rw [hdrains, List.mem_singleton] at hdrain
  rw [hdrain] at hid
  exact absurd hid.symm hne

/-- A drain that does not go on has found the queue empty. -/
theorem queue_of_ended {queue : List NumberedRow} (h : nextStage queue = .ended) : queue = [] := by
  cases queue with
  | nil => rfl
  | cons first rest => cases h

/-- Nothing is owed to a new read whose drain has returned. -/
theorem newRead_ahead {s : QueueState} (h : SeedsAhead s) {tournamentId drawId : String}
    (hflush : FlushReaches s (.loadOpen tournamentId drawId)) :
    SeedAhead (step s (.loadOpen tournamentId drawId))
      ⟨tournamentId, drawId, s.recorded.length, .awaiting (flushed s)⟩ := by
  have hstep : (step s (.loadOpen tournamentId drawId)).begun = (flush s).begun ∧
      (step s (.loadOpen tournamentId drawId)).drains = (flush s).drains ∧
      (step s (.loadOpen tournamentId drawId)).held = (flush s).held := ⟨rfl, rfl, rfl⟩
  simp only [SeedAhead, Returned, NothingOwed, hstep]
  obtain ⟨hdrains, hflushing⟩ | ⟨id, stage, hdrains, hflushing⟩ := h.shared.cases
  · simp only [flush, flushed, hflushing, hdrains, Option.getD_none, List.nil_append]
    refine ⟨Nat.lt_succ_self _, fun hreturned row hrow => ?_⟩
    have hended := hreturned _ (List.mem_singleton_self _) rfl
    have hempty : s.queue = [] := queue_of_ended hended
    simp [QueueState.held, hempty, nextStage, DrainStage.batch] at hrow
  · have hmem : (⟨id, stage⟩ : Drain) ∈ s.drains := hdrains ▸ List.mem_singleton_self _
    simp only [flush, flushed, hflushing, Option.getD_some]
    refine ⟨h.begun _ hmem, fun hreturned row hrow howed => ?_⟩
    have hended : stage = .ended := hreturned _ hmem rfl
    rw [held_single hdrains, hended] at hrow
    exact hflush ⟨_, hmem, hended⟩ row hrow howed.2

/-- A read is called: its flush begins a drain, or shares one that still runs, or finds
nothing of its draw in the queue. -/
theorem seedsAhead_loadOpen {s : QueueState} (h : SeedsAhead s) (tournamentId drawId : String)
    (hflush : FlushReaches s (.loadOpen tournamentId drawId)) :
    SeedsAhead (step s (.loadOpen tournamentId drawId)) := by
  have hold : SeedsAhead (flush s) := seedsAhead_flush h .flush rfl rfl rfl rfl
  refine ⟨hold.shared, hold.begun, ?_, ?_⟩
  · intro read hread
    obtain hbefore | hnew := List.mem_append.mp hread
    · exact hold.counted read (((flush_drains s).1).symm ▸ hbefore)
    · rw [List.mem_singleton.mp hnew]
      have hrecorded : (flush s).recorded = s.recorded := (flush_storage s).2.2
      show s.recorded.length ≤ (flush s).recorded.length
      rw [hrecorded]
  · intro read hread
    obtain hbefore | hnew := List.mem_append.mp hread
    · exact hold.ahead read (((flush_drains s).1).symm ▸ hbefore)
    · rw [List.mem_singleton.mp hnew]
      exact newRead_ahead h hflush

/-- The only drain moves on: where it returns, nothing is owed to the reads that await it. -/
theorem seedsAhead_moved {s : QueueState} (h : SeedsAhead s) (a : QueueAction) {id : ℕ}
    {before after : DrainStage} (hdrains : s.drains = [⟨id, before⟩])
    (hmoved : (step s a).drains = [⟨id, after⟩]) (hreads : (step s a).reads = s.reads)
    (hbegun : (step s a).begun = s.begun)
    (hended : after = .ended → ∀ read ∈ s.reads, read.stage = .awaiting id →
      NothingOwed (step s a) read) : SeedsAhead (step s a) := by
  refine seedsAhead_of_reads h a hreads (Nat.le_of_eq hbegun.symm) ?_ ?_
  · intro drain hdrain
    rw [hmoved, List.mem_singleton] at hdrain
    have hmem : (⟨id, before⟩ : Drain) ∈ s.drains := hdrains ▸ List.mem_singleton_self _
    have hnumbered : id < s.begun := h.begun _ hmem
    rw [hbegun, hdrain]
    exact hnumbered
  · intro read hread other hstage hreturned
    by_cases hsame : other = id
    · rw [hsame] at hstage hreturned
      have hmem : (⟨id, after⟩ : Drain) ∈ (step s a).drains := hmoved ▸ List.mem_singleton_self _
      exact .inr (hended (hreturned _ hmem rfl) read hread hstage)
    · exact .inl (returned_of_ne hdrains hsame)

/-- An `append` settles: its drain still runs. -/
theorem seedsAhead_settle {s : QueueState} (h : SeedsAhead s) (id : ℕ) (written : Bool) :
    SeedsAhead (step s (.settle id written)) := by
  cases hfind : s.drains.find? fun drain => drain.id = id with
  | none =>
    have hsame : step s (.settle id written) = s := by simp only [step, settleAppend, hfind]
    exact hsame.symm ▸ h
  | some drain =>
    obtain ⟨found, stage⟩ := drain
    obtain ⟨hdrains, hid, -⟩ := h.shared.drains_of_find hfind
    have hfound : found = id := hid
    subst hfound
    cases stage with
    | appending batch =>
      have hstep : step s (.settle found written) = if written then { s with
          drains := moveDrain s.drains found (.appended batch)
          table := s.table ++ batch.map Prod.fst
          stored := s.stored ++ batch } else
          { s with drains := moveDrain s.drains found (.refused batch) } := by
        simp only [step, settleAppend, hfind]
      rw [hdrains, moveDrain_single, moveDrain_single] at hstep
      cases written with
      | true =>
        have hmoved : (step s (.settle found true)).drains = [⟨found, .appended batch⟩] :=
          hstep ▸ rfl
        exact seedsAhead_moved h _ hdrains hmoved (hstep ▸ rfl) (hstep ▸ rfl)
          fun hended => by cases hended
      | false =>
        have hmoved : (step s (.settle found false)).drains = [⟨found, .refused batch⟩] :=
          hstep ▸ rfl
        exact seedsAhead_moved h _ hdrains hmoved (hstep ▸ rfl) (hstep ▸ rfl)
          fun hended => by cases hended
    | appended batch | refused batch | ended =>
      have hsame : step s (.settle found written) = s := by simp only [step, settleAppend, hfind]
      exact hsame.symm ▸ h

/-- A drain goes on: it takes more rows, finds none, or puts its batch back. -/
theorem seedsAhead_resume {s : QueueState} (h : SeedsAhead s) (id : ℕ)
    (hflush : FlushReaches s (.resume id)) : SeedsAhead (step s (.resume id)) := by
  cases hfind : s.drains.find? fun drain => drain.id = id with
  | none =>
    have hsame : step s (.resume id) = s := by simp only [step, resumeDrain, hfind]
    exact hsame.symm ▸ h
  | some drain =>
    obtain ⟨found, stage⟩ := drain
    obtain ⟨hdrains, hid, -⟩ := h.shared.drains_of_find hfind
    have hfound : found = id := hid
    subst hfound
    cases stage with
    | appended batch =>
      have hstep : step s (.resume found) = resumeWritten s found batch := by
        simp only [step, resumeDrain, hfind]
      have hmoved : (step s (.resume found)).drains = [⟨found, nextStage s.queue⟩] := by
        rw [hstep, resumeWritten, hdrains, moveDrain_single]
      refine seedsAhead_moved h _ hdrains hmoved (hstep ▸ rfl) (hstep ▸ rfl) ?_
      intro hended read _ _ row hrow
      rw [held_single hmoved, hended, hstep, resumeWritten, queue_of_ended hended] at hrow
      cases hrow
    | refused batch =>
      have hstep : step s (.resume found) = resumeRefused s found batch := by
        simp only [step, resumeDrain, hfind]
      have hmoved : (step s (.resume found)).drains = [⟨found, .ended⟩] := by
        rw [hstep, resumeRefused, scheduleRetry_eq, hdrains]
        exact moveDrain_single found _ _
      have hqueue : (step s (.resume found)).queue =
          (batch ++ s.queue).take MAX_QUEUED_FINDING_ROWS := by
        rw [hstep, resumeRefused, scheduleRetry_eq]
        rfl
      refine seedsAhead_moved h _ hdrains hmoved ?_ ?_ ?_
      · rw [hstep, resumeRefused, scheduleRetry_eq]
        rfl
      · rw [hstep, resumeRefused, scheduleRetry_eq]
        rfl
      · intro _ read hread hstage row hrow
        rw [held_single hmoved, hqueue] at hrow
        exact hflush batch (hdrains ▸ List.mem_singleton_self _) read hread hstage row hrow
    | appending batch | ended =>
      have hsame : step s (.resume found) = s := by simp only [step, resumeDrain, hfind]
      exact hsame.symm ▸ h

/-- A drain that has returned is forgotten. -/
theorem seedsAhead_finish {s : QueueState} (h : SeedsAhead s) (id : ℕ) :
    SeedsAhead (step s (.finish id)) := by
  cases hfind : s.drains.find? fun drain => drain.id = id with
  | none =>
    have hsame : step s (.finish id) = s := by simp only [step, finishDrain, hfind]
    exact hsame.symm ▸ h
  | some drain =>
    obtain ⟨found, stage⟩ := drain
    obtain ⟨hdrains, hid, -⟩ := h.shared.drains_of_find hfind
    have hfound : found = id := hid
    subst hfound
    cases stage with
    | ended =>
      have hstep : step s (.finish found) = { s with
          flushing := none
          drains := s.drains.filter fun drain => drain.id ≠ found } := by
        simp only [step, finishDrain, hfind]
      have hnone : (step s (.finish found)).drains = [] := by
        rw [hstep, hdrains]
        simp
      refine seedsAhead_of_reads h _ (hstep ▸ rfl) (hstep ▸ Nat.le_refl _) ?_ ?_
      · rw [hnone]
        exact List.forall_mem_nil _
      · intro read _ other _ _
        refine .inl fun drain hdrain _ => ?_
        rw [hdrains, List.mem_singleton] at hdrain
        rw [hdrain]
    | appending batch | appended batch | refused batch =>
      have hsame : step s (.finish found) = s := by simp only [step, finishDrain, hfind]
      exact hsame.symm ▸ h

/-- A read that goes on or is answered keeps its call. -/
theorem mem_modify {reads : List SeedRead} {index : ℕ} {move : SeedRead → SeedRead}
    {read : SeedRead} (h : read ∈ reads.modify index move) :
    read ∈ reads ∨ ∃ before ∈ reads, read = move before := by
  obtain ⟨place, hplace⟩ := List.mem_iff_getElem?.mp h
  rw [List.getElem?_modify] at hplace
  cases hbefore : reads[place]? with
  | none => simp [hbefore] at hplace
  | some before =>
    have hmem := List.mem_of_getElem? hbefore
    rw [hbefore, Option.map_eq_map, Option.map_some, Option.some.injEq] at hplace
    split at hplace
    · exact .inr ⟨before, hmem, hplace.symm⟩
    · exact .inl (hplace ▸ hmem)

/-- The reads of a step that touches nothing else. -/
theorem seedsAhead_modify {s : QueueState} (h : SeedsAhead s) (index : ℕ)
    (move : SeedRead → SeedRead) (hcounted : ∀ read, (move read).recorded = read.recorded)
    (hahead : ∀ read, SeedAhead s read → SeedAhead s (move read)) :
    SeedsAhead { s with reads := s.reads.modify index move } where
  shared := h.shared
  begun := h.begun
  counted := by
    intro read hread
    obtain hbefore | ⟨before, hbefore, rfl⟩ := mem_modify hread
    · exact h.counted read hbefore
    · rw [hcounted]
      exact h.counted before hbefore
  ahead := by
    intro read hread
    obtain hbefore | ⟨before, hbefore, rfl⟩ := mem_modify hread
    · exact h.ahead read hbefore
    · exact hahead before (h.ahead before hbefore)

/-- Nothing is owed to a read that goes on: its drain has returned. -/
theorem resumeRead_ahead {s : QueueState} {read : SeedRead} (h : SeedAhead s read) :
    SeedAhead s (resumeRead s read) := by
  rw [resumeRead]
  cases hstage : read.stage with
  | awaiting id =>
    simp only
    split
    · exact h
    next hover =>
      simp only [SeedAhead, hstage] at h
      refine h.2 fun drain hdrain hid => absurd ?_ hover
      exact List.any_eq_true.mpr ⟨drain, hdrain, decide_eq_true hid⟩
  | querying | answered found => exact h

/-- An answered read waits for nothing. -/
theorem answerRead_ahead {s : QueueState} {read : SeedRead} (h : SeedAhead s read) :
    SeedAhead s (answerRead s read) := by
  rw [answerRead]
  cases hstage : read.stage with
  | querying => trivial
  | awaiting id | answered found => exact h

/-- A step whose flush reaches the rows it is for leaves nothing owed to the reads whose
flush is over. -/
theorem seedsAhead_step (s : QueueState) (a : QueueAction) (hflush : FlushReaches s a)
    (h : SeedsAhead s) : SeedsAhead (step s a) := by
  cases a with
  | record off rows =>
    have hsame : (step s (.record off rows)).reads = s.reads ∧
        (step s (.record off rows)).begun = s.begun ∧
        (step s (.record off rows)).drains = s.drains := by
      simp only [step, record]
      split
      · exact ⟨rfl, rfl, rfl⟩
      · rw [recordRows]
        split <;> exact ⟨rfl, rfl, rfl⟩
    obtain ⟨hreads, hbegun, hdrains⟩ := hsame
    refine seedsAhead_of_reads h _ hreads (Nat.le_of_eq hbegun.symm) ?_ ?_
    · rw [hdrains, hbegun]
      exact h.begun
    · intro read _ id _ hreturned
      rw [Returned, hdrains] at hreturned
      exact .inl hreturned
  | loadOpen tournamentId drawId => exact seedsAhead_loadOpen h tournamentId drawId hflush
  | flush => exact seedsAhead_flush h _ rfl rfl rfl rfl
  | immediate =>
    by_cases hdue : (s.flushScheduled && s.quiet) = true
    · have hstep : step s .immediate = flush { s with flushScheduled := false } := if_pos hdue
      exact seedsAhead_flush h _ hstep rfl rfl rfl
    · have hsame : step s .immediate = s := if_neg hdue
      exact hsame.symm ▸ h
  | retry =>
    by_cases hdue : (s.retryTimer && s.quiet) = true
    · have hstep : step s .retry = flush { s with retryTimer := false } := if_pos hdue
      exact seedsAhead_flush h _ hstep rfl rfl rfl
    · have hsame : step s .retry = s := if_neg hdue
      exact hsame.symm ▸ h
  | settle id written => exact seedsAhead_settle h id written
  | resume id => exact seedsAhead_resume h id hflush
  | finish id => exact seedsAhead_finish h id
  | resumeRead index =>
    refine seedsAhead_modify h index _ (fun read => ?_) fun read => resumeRead_ahead
    rw [resumeRead]
    split
    · split <;> rfl
    · rfl
  | query index =>
    refine seedsAhead_modify h index _ (fun read => ?_) fun read => answerRead_ahead
    rw [answerRead]
    split <;> rfl
  | destroy => exact seedsAhead_flush h _ rfl rfl rfl rfl
  | elsewhere rows => exact ⟨h.shared, h.begun, h.counted, h.ahead⟩

/-- Rows that are not of the draw do not change what it replays to. -/
theorem loadOpenFindings_append {table rows : List DrawIntegrityFindingRow}
    {tournamentId drawId : String} (h : rowsOf rows tournamentId drawId = []) :
    loadOpenFindings (table ++ rows) tournamentId drawId =
      loadOpenFindings table tournamentId drawId := by
  have hrows : rowsOf (table ++ rows) tournamentId drawId = rowsOf table tournamentId drawId := by
    rw [rowsOf, List.filter_append]
    rw [rowsOf] at h
    rw [h, List.append_nil]
    rfl
  rw [loadOpenFindings, hrows, loadOpenFindings]

/-- Where nothing is owed to a read that queries, it sees this process's rows. -/
theorem sees_of_seedsAhead (s : QueueState) (a : QueueAction) (_ : FlushReaches s a)
    (h : SeedsAhead s) : SeesOwnRows s a := by
  cases a with
  | query index =>
    intro read found hread hstage hanswered
    have hmem := List.mem_of_getElem? hread
    have hnothing : NothingOwed s read := by
      have hahead := h.ahead read hmem
      simp only [SeedAhead, hstage] at hahead
      exact hahead
    have hanswer : answerRead s read = { read with stage := .answered (loadOpenFindings s.table
        read.tournamentId read.drawId) } := by
      rw [answerRead, hstage]
    simp only [step, List.getElem?_modify, hread, Option.map_eq_map, Option.map_some,
      if_true, hanswer] at hanswered
    have hfound : loadOpenFindings s.table read.tournamentId read.drawId = found := by
      simpa using hanswered
    have howed : rowsOf (owedRows s read) read.tournamentId read.drawId = [] := by
      refine List.filter_eq_nil_iff.mpr fun row hrow hdraw => ?_
      obtain ⟨held, hheld, rfl⟩ := List.mem_map.mp hrow
      obtain ⟨hin, hbefore⟩ := List.mem_filter.mp hheld
      exact hnothing held hin ⟨of_decide_eq_true hbefore, of_decide_eq_true hdraw⟩
    rw [← hfound, loadOpenFindings_append howed]
  | _ => trivial

/-- In a run whose flushes reach the rows they are for, every seed read sees the rows that
this process recorded before the call. -/
theorem seeds_see_own (table : List DrawIntegrityFindingRow) (actions : List QueueAction)
    (h : RunMeets step FlushReaches (QueueState.start table) actions) :
    RunMeets step SeesOwnRows (QueueState.start table) actions := by
  have hstart : SeedsAhead (QueueState.start table) :=
    ⟨rfl, List.forall_mem_nil _, List.forall_mem_nil _, List.forall_mem_nil _⟩
  exact run_meets seedsAhead_step sees_of_seedsAhead h hstart

/-- A read after a row of its draw was recorded: its flush writes the row or not. -/
def sampleRead (written : Bool) : List QueueAction :=
  [.record false [sampleRow], .loadOpen "t" "d", .immediate, .settle 0 written, .resume 0,
    .finish 0, .resumeRead 0, .query 0]

/-- The row is written, and the read sees it. -/
theorem sampleRead_sees :
    RunMeets step FlushReaches (QueueState.start []) (sampleRead true) ∧
      RunMeets step SeesOwnRows (QueueState.start []) (sampleRead true) := by
  have hmeets : RunMeets step FlushReaches (QueueState.start []) (sampleRead true) := by
    refine ⟨trivial, ?_, trivial, trivial, ?_, trivial, trivial, trivial, trivial⟩
    · rintro ⟨drain, hdrain, -⟩
      cases hdrain
    · intro batch hdrain
      obtain hsame | hnone := List.mem_cons.mp hdrain
      · cases hsame
      · cases hnone
  exact ⟨hmeets, seeds_see_own [] (sampleRead true) hmeets⟩

/-- The row is not written, the drain puts it back and returns, and the read answers that the
table has never recorded the draw. -/
theorem own_row_missed :
    ¬ ∀ (table : List DrawIntegrityFindingRow) (actions : List QueueAction),
      RunMeets step SeesOwnRows (QueueState.start table) actions := by
  intro h
  have hrun := h [] (sampleRead false)
  have hquery := hrun.2.2.2.2.2.2.2.1
  have hanswer : loadOpenFindings [] "t" "d" = loadOpenFindings [sampleRow] "t" "d" :=
    hquery ⟨"t", "d", 1, .querying⟩ _ rfl rfl rfl
  have hunknown : (loadOpenFindings [] "t" "d").known = false := by
    simp [loadOpenFindings, rowsOf, distinctOn]
  have hknown : (loadOpenFindings [sampleRow] "t" "d").known = true := by
    simp [loadOpenFindings, rowsOf, sampleRow, distinctOn]
  rw [hanswer, hknown] at hunknown
  cases hunknown

end FactoryServer.SeedReads
