import FactoryServer.LoadProfile

/-!
# The accounts of the load profile

What the table, the buffer and the statements under way hold together is what the
counted samples add up to, in every run. The buffer keeps its maximum, and every
statement the limit of its parameters, exactly in the runs in which the buckets of a
failed statement find room beside those that were buffered meanwhile.
-/

namespace FactoryServer.LoadAccounts

open GuardedRuns InsertionMaps KeyedTotals LoadProfile

/-! ## Buckets -/

/-- A merged bucket keeps its key. -/
theorem key_mergeBuckets (a b : Bucket) : (mergeBuckets a b).key = a.key := rfl

/-- A row keeps its key. -/
theorem key_accumulate (a b : Bucket) : (accumulate a b).key = a.key := rfl

variable (counter : AdditiveCounter)

@[simp] theorem counter_empty (key : BucketKey) : (Bucket.empty key).counter counter = 0 := by
  cases counter <;> rfl

/-- A sample adds its amount. -/
theorem counter_count (bucket : Bucket) (sample : MutationSample) :
    (bucket.count sample).counter counter = bucket.counter counter + sample.amount counter := by
  cases counter with
  | fencedCount =>
    simp only [Bucket.counter, Bucket.count, MutationSample.amount]
    split_ifs <;> simp
  | _ => rfl

/-- Buckets add up when they are merged. -/
theorem counter_mergeBuckets (a b : Bucket) :
    (mergeBuckets a b).counter counter = a.counter counter + b.counter counter := by
  cases counter <;> rfl

/-- A bucket adds up with the row it is written to. -/
theorem counter_accumulate (a b : Bucket) :
    (accumulate a b).counter counter = a.counter counter + b.counter counter := by
  cases counter <;> rfl

/-- A bucket binds ten parameters. -/
theorem length_params (buckets : List Bucket) : (params buckets).length = 10 * buckets.length := by
  induction buckets with
  | nil => rfl
  | cons bucket rest ih =>
    have hcons : params (bucket :: rest) = bucketParams bucket ++ params rest := rfl
    rw [hcons, List.length_append, ih, List.length_cons]
    simp only [bucketParams, List.length_cons, List.length_nil]
    omega

/-! ## What is promised -/

/-- The rows, the buffer and the statements under way hold what was counted. -/
def Conserved (table : LoadTable) (s : State) : Prop :=
  ∀ counter : AdditiveCounter,
    total (Bucket.counter counter) s.rows + total (Bucket.counter counter) s.buckets +
        total (total (Bucket.counter counter)) s.draining =
      total (Bucket.counter counter) table.rows + total (MutationSample.amount counter) s.counted

/-- The buffer is within its maximum, and it and every statement can be written. -/
structure Writable (s : State) : Prop where
  /-- The buffer holds no more buckets than it may. -/
  bounded : s.buckets.length ≤ maxBufferedBuckets
  /-- The buffer can be written in one statement. -/
  buffer : (params s.buckets).length ≤ maxParams
  /-- So can be each statement that was sent. -/
  statements : ∀ batch ∈ s.draining, (params batch).length ≤ maxParams

/-- The accounts of the service. -/
structure Accounts (table : LoadTable) (s : State) : Prop where
  conserved : Conserved table s
  writable : Writable s

/-- A statement that fails leaves buckets that find room: those of them whose key is not
buffered, and the buffered ones. -/
def FitsBack (s : State) : LoadAction → Prop
  | .answer position written => ∀ batch ∈ s.draining[position]?, ¬ Written batch written →
      s.buckets.length + (newcomers Bucket.key s.buckets batch).length ≤ maxBufferedBuckets
  | _ => True

/-! ## Conservation -/

/-- The buckets have one key each, and what they hold is conserved. -/
structure Kept (table : LoadTable) (s : State) : Prop where
  rows : (s.rows.map Bucket.key).Nodup
  buckets : (s.buckets.map Bucket.key).Nodup
  statements : ∀ batch ∈ s.draining, (batch.map Bucket.key).Nodup
  conserved : Conserved table s

variable {table : LoadTable} {s : State}

theorem kept_opened (table : LoadTable) (isEnabled : Bool) : Kept table (opened isEnabled table) :=
  ⟨table.keyed, List.nodup_nil, fun _ hbatch => by simp [opened] at hbatch,
    fun counter => by simp [opened]⟩

/-- What `record` does: nothing, a sample dropped, or a sample counted in its bucket. -/
theorem record_cases (s : State) (sample : MutationSample) (now : ℤ) :
    (∃ dropped, record s sample now = { s with droppedSamples := dropped }) ∨
      ∃ bucket : Bucket, (valueOf Bucket.key s.buckets bucket.key = some bucket ∨
          valueOf Bucket.key s.buckets bucket.key = none ∧
            s.buckets.length < maxBufferedBuckets ∧ bucket = Bucket.empty bucket.key) ∧
        record s sample now =
          { s with
            buckets := setValue Bucket.key s.buckets (bucket.count sample)
            counted := s.counted ++ [sample] } := by
  unfold record
  by_cases hoff : s.isEnabled = false ∨ sample.tournamentId.getD "" = ""
  · exact Or.inl ⟨s.droppedSamples, if_pos hoff⟩
  · dsimp only
    rw [if_neg hoff]
    cases hold : valueOf Bucket.key s.buckets
        (sampleKey (sample.tournamentId.getD "") sample now) with
    | some bucket =>
      exact Or.inr ⟨bucket, Or.inl ((key_of_valueOf hold).symm ▸ hold), rfl⟩
    | none =>
      by_cases hfull : maxBufferedBuckets ≤ s.buckets.length
      · exact Or.inl ⟨_, if_pos hfull⟩
      · exact Or.inr ⟨Bucket.empty (sampleKey (sample.tournamentId.getD "") sample now),
          Or.inr ⟨hold, Nat.lt_of_not_le hfull, rfl⟩, if_neg hfull⟩

theorem kept_record (h : Kept table s) (sample : MutationSample) (now : ℤ) :
    Kept table (record s sample now) := by
  obtain ⟨dropped, hs⟩ | ⟨bucket, hbucket, hs⟩ := record_cases s sample now
  · rw [hs]
    exact ⟨h.rows, h.buckets, h.statements, h.conserved⟩
  · rw [hs]
    refine ⟨h.rows, nodup_setValue h.buckets _, h.statements, fun counter => ?_⟩
    have hput : total (Bucket.counter counter)
        (setValue Bucket.key s.buckets (bucket.count sample)) =
          total (Bucket.counter counter) s.buckets + sample.amount counter := by
      obtain hold | ⟨hnone, -, hempty⟩ := hbucket
      · exact total_setValue h.buckets hold (counter_count counter bucket sample)
      · have hnew : valueOf Bucket.key s.buckets (bucket.count sample).key = none := hnone
        rw [setValue_of_none hnew, total_append, total_cons, total_nil, counter_count, hempty,
          counter_empty]
        simp
    have hbefore := h.conserved counter
    simp only [total_append, total_cons, total_nil, hput]
    omega

theorem kept_flush (h : Kept table s) : Kept table (flush s) := by
  unfold flush
  split_ifs with hoff
  · exact h
  · refine ⟨h.rows, List.nodup_nil, fun batch hbatch => ?_, fun counter => ?_⟩
    · obtain hin | hin := List.mem_append.mp hbatch
      · exact h.statements batch hin
      · exact List.mem_singleton.mp hin ▸ h.buckets
    · have hbefore := h.conserved counter
      simp only [total_append, total_cons, total_nil]
      omega

/-- One step keeps the accounts. -/
theorem kept_step (h : Kept table s) (action : LoadAction) : Kept table (step s action) := by
  cases action with
  | record sample now => exact kept_record h sample now
  | interval =>
    simp only [step]
    split_ifs
    · exact kept_flush h
    · exact h
  | shutdown => exact kept_flush ⟨h.rows, h.buckets, h.statements, h.conserved⟩
  | answer position written =>
    cases hbatch : s.draining[position]? with
    | none =>
      simp only [step, hbatch]
      exact h
    | some batch =>
      simp only [step, hbatch]
      have hrest : ∀ other ∈ s.draining.eraseIdx position, (other.map Bucket.key).Nodup :=
        fun other hin => h.statements other (List.mem_of_mem_eraseIdx hin)
      split_ifs with hwritten
      · refine ⟨nodup_mergeAll h.rows batch, h.buckets, hrest, fun counter => ?_⟩
        have hbefore := h.conserved counter
        have hout := total_eraseIdx (f := total (Bucket.counter counter)) hbatch
        have hrows := total_mergeAll (counter_accumulate counter) key_accumulate h.rows batch
        simp only [succeeded, hrows]
        omega
      · refine ⟨h.rows, nodup_mergeAll h.buckets batch, hrest, fun counter => ?_⟩
        have hbefore := h.conserved counter
        have hout := total_eraseIdx (f := total (Bucket.counter counter)) hbatch
        have hbuckets := total_mergeAll (counter_mergeBuckets counter) key_mergeBuckets h.buckets
          batch
        simp only [failed, hbuckets]
        omega

/-- The accounts are kept in every run. -/
theorem kept_run (table : LoadTable) (isEnabled : Bool) (actions : List LoadAction) :
    Kept table (run step (opened isEnabled table) actions) := by
  have hstep : ∀ s action, Kept table s → Kept table (step s action) :=
    fun _ action h => kept_step h action
  exact run_always hstep actions (kept_opened table isEnabled)

/-! ## The bound -/

/-- The buffer and every statement are within the maximum. -/
structure Bounded (s : State) : Prop where
  buffer : s.buckets.length ≤ maxBufferedBuckets
  statements : ∀ batch ∈ s.draining, batch.length ≤ maxBufferedBuckets

/-- Buckets within the maximum can be written in one statement. -/
theorem params_le {buckets : List Bucket} (h : buckets.length ≤ maxBufferedBuckets) :
    (params buckets).length ≤ maxParams := by
  rw [length_params]
  unfold maxBufferedBuckets at h
  unfold maxParams
  omega

theorem Bounded.writable (h : Bounded s) : Writable s :=
  ⟨h.buffer, params_le h.buffer, fun batch hbatch => params_le (h.statements batch hbatch)⟩

/-- A bucket that takes the place of another leaves their number. -/
theorem length_setValue {bucket : Bucket} {old : Bucket}
    (h : valueOf Bucket.key s.buckets bucket.key = some old) :
    (setValue Bucket.key s.buckets bucket).length = s.buckets.length := by
  have hmem : ∃ other ∈ s.buckets, other.key = bucket.key :=
    ⟨old, mem_of_valueOf h, key_of_valueOf h⟩
  rw [setValue, if_pos hmem, List.length_map]

/-- A sample is counted within the maximum. -/
theorem bounded_record (h : Bounded s) (sample : MutationSample) (now : ℤ) :
    Bounded (record s sample now) := by
  obtain ⟨dropped, hs⟩ | ⟨bucket, hbucket, hs⟩ := record_cases s sample now
  · rw [hs]
    exact ⟨h.buffer, h.statements⟩
  · rw [hs]
    refine ⟨?_, h.statements⟩
    obtain hold | ⟨hnone, hroom, -⟩ := hbucket
    · have hsame : valueOf Bucket.key s.buckets (bucket.count sample).key = some bucket := hold
      simp only [length_setValue hsame]
      exact h.buffer
    · have hnew : valueOf Bucket.key s.buckets (bucket.count sample).key = none := hnone
      simp only [setValue_of_none hnew, List.length_append, List.length_singleton]
      omega

theorem bounded_flush (h : Bounded s) : Bounded (flush s) := by
  unfold flush
  split_ifs with hoff
  · exact h
  · refine ⟨Nat.zero_le _, fun batch hbatch => ?_⟩
    obtain hin | hin := List.mem_append.mp hbatch
    · exact h.statements batch hin
    · exact List.mem_singleton.mp hin ▸ h.buffer

/-- The buckets of a statement that fails join those that were buffered. -/
theorem length_failed {batch : List Bucket} (hkeyed : (batch.map Bucket.key).Nodup) :
    (failed s batch).buckets.length =
      s.buckets.length + (newcomers Bucket.key s.buckets batch).length :=
  length_mergeAll key_mergeBuckets hkeyed

/-- A step that fits back keeps the bound. -/
theorem bounded_step (hkept : Kept table s) {action : LoadAction} (hfits : FitsBack s action)
    (h : Bounded s) : Bounded (step s action) := by
  cases action with
  | record sample now => exact bounded_record h sample now
  | interval =>
    simp only [step]
    split_ifs
    · exact bounded_flush h
    · exact h
  | shutdown => exact bounded_flush ⟨h.buffer, h.statements⟩
  | answer position written =>
    cases hbatch : s.draining[position]? with
    | none =>
      simp only [step, hbatch]
      exact h
    | some batch =>
      simp only [step, hbatch]
      have hrest : ∀ other ∈ s.draining.eraseIdx position, other.length ≤ maxBufferedBuckets :=
        fun other hin => h.statements other (List.mem_of_mem_eraseIdx hin)
      split_ifs with hwritten
      · exact ⟨h.buffer, hrest⟩
      · refine ⟨?_, hrest⟩
        rw [length_failed (hkept.statements batch (List.mem_of_getElem? hbatch))]
        exact hfits batch hbatch hwritten

/-- A step that leaves the buffer within its maximum has fitted back. -/
theorem fitsBack_of_bounded (hkept : Kept table s) {action : LoadAction}
    (h : (step s action).buckets.length ≤ maxBufferedBuckets) : FitsBack s action := by
  cases action with
  | answer position written =>
    intro batch hbatch hwritten
    have hstatement : s.draining[position]? = some batch := hbatch
    simp only [step, hstatement, if_neg hwritten] at h
    rwa [length_failed (hkept.statements batch (List.mem_of_getElem? hstatement))] at h
  | _ => trivial

/-- The accounts of the load profile. What was counted is conserved in every run; every
state of a run has a buffer within its maximum and nothing that a statement cannot bind
exactly when each statement that fails leaves buckets that find room. -/
theorem accounts_iff (table : LoadTable) (isEnabled : Bool) (actions : List LoadAction) :
    (∀ past, past <+: actions → Conserved table (run step (opened isEnabled table) past)) ∧
      ((∀ past, past <+: actions → Accounts table (run step (opened isEnabled table) past)) ↔
        RunMeets step FitsBack (opened isEnabled table) actions) := by
  have hkept := kept_run table isEnabled
  refine ⟨fun past _ => (hkept past).conserved, fun h => ?_, fun h past hpast => ?_⟩
  · refine runMeets_iff.mpr fun past action hpast => ?_
    have hbounded := (h (past ++ [action]) hpast).writable.bounded
    rw [run_concat] at hbounded
    exact fitsBack_of_bounded (hkept past) hbounded
  · have hstep : ∀ s action, FitsBack s action → Kept table s ∧ Bounded s →
        Kept table (step s action) ∧ Bounded (step s action) :=
      fun s action hfits hs => ⟨kept_step hs.1 action, bounded_step hs.1 hfits hs.2⟩
    have hstart : Bounded (opened isEnabled table) :=
      ⟨Nat.zero_le _, fun _ hbatch => by simp [opened] at hbatch⟩
    have hall := run_keeps hstep (runMeets_initial h hpast)
      ⟨kept_opened table isEnabled, hstart⟩
    exact ⟨hall.1.conserved, hall.2.writable⟩

/-! ## A buffer that is given back too much -/

/-- The tournaments of an arrival, named by their number. -/
def arrivalName (k : ℕ) : String := String.ofList (List.replicate (k + 1) 'a')

/-- A sample of the tournament of a number. -/
def arrivalSample (k : ℕ) : MutationSample :=
  ⟨some (arrivalName k), none, some 1, some 1, some 1, false⟩

/-- The bucket of one such sample, in the hour of the epoch. -/
def arrivalBucket (k : ℕ) : Bucket :=
  (Bucket.empty (sampleKey (arrivalName k) (arrivalSample k) 0)).count (arrivalSample k)

/-- One sample each of consecutive tournaments. -/
def arrivals (first count : ℕ) : List LoadAction :=
  (List.range' first count).map fun k => .record (arrivalSample k) 0

/-- As many tournaments are drained, as many others are counted, and the statement fails. -/
def stuckFlush (drained counted : ℕ) : List LoadAction :=
  arrivals 0 drained ++ .interval :: (arrivals drained counted ++ [.answer 0 false])

/-- The table before anything was written. -/
def noRows : LoadTable := ⟨[], List.nodup_nil⟩

theorem arrivalName_injective {j k : ℕ} (h : arrivalName j = arrivalName k) : j = k := by
  have hlists := String.ofList_injective h
  have hlengths := congrArg List.length hlists
  simpa using hlengths

theorem record_arrival (hon : s.isEnabled = true) {k : ℕ}
    (hfresh : ∀ bucket ∈ s.buckets, bucket.tournamentId ≠ arrivalName k)
    (hroom : s.buckets.length < maxBufferedBuckets) :
    step s (.record (arrivalSample k) 0) =
      { s with
        buckets := s.buckets ++ [arrivalBucket k]
        counted := s.counted ++ [arrivalSample k] } := by
  have hnamed : arrivalName k ≠ "" := by
    intro h
    have hlists := String.ofList_injective (h : arrivalName k = String.ofList [])
    cases hlists
  have hnone : valueOf Bucket.key s.buckets (sampleKey (arrivalName k) (arrivalSample k) 0) =
      none := by
    refine valueOf_eq_none.mpr fun hin => ?_
    obtain ⟨bucket, hbucket, hkey⟩ := List.mem_map.mp hin
    exact hfresh bucket hbucket (congrArg Prod.fst hkey)
  have hput : setValue Bucket.key s.buckets (arrivalBucket k) = s.buckets ++ [arrivalBucket k] :=
    setValue_of_none hnone
  have hgiven : (arrivalSample k).tournamentId.getD "" = arrivalName k := rfl
  have hskip : ¬ (s.isEnabled = false ∨ (arrivalSample k).tournamentId.getD "" = "") := by
    rw [hgiven, hon]
    simp [hnamed]
  simp only [step, record]
  rw [if_neg hskip, hgiven, hnone]
  dsimp only
  rw [if_neg (Nat.not_le_of_lt hroom)]
  exact congrArg (fun buckets : List Bucket =>
    { s with buckets := buckets, counted := s.counted ++ [arrivalSample k] }) hput

/-- Tournaments that were not buffered are buffered as long as there is room. -/
theorem run_arrivals (count : ℕ) : ∀ (s : State) (first : ℕ), s.isEnabled = true →
    (∀ bucket ∈ s.buckets, ∀ k, first ≤ k → bucket.tournamentId ≠ arrivalName k) →
    s.buckets.length + count ≤ maxBufferedBuckets →
    run step s (arrivals first count) =
      { s with
        buckets := s.buckets ++ (List.range' first count).map arrivalBucket
        counted := s.counted ++ (List.range' first count).map arrivalSample } := by
  induction count with
  | zero =>
    intro s first _ _ _
    simp [arrivals, run]
  | succ count ih =>
    intro s first hon hfresh hroom
    have hfirst := record_arrival hon
      (fun bucket hin => hfresh bucket hin first (Nat.le_refl first)) (by omega)
    have hcons : arrivals first (count + 1) =
        .record (arrivalSample first) 0 :: arrivals (first + 1) count := by
      simp [arrivals, List.range'_succ]
    have hlater : run step s (arrivals first (count + 1)) =
        run step (step s (.record (arrivalSample first) 0)) (arrivals (first + 1) count) := by
      rw [hcons]
      rfl
    have hothers : ∀ bucket ∈ s.buckets ++ [arrivalBucket first], ∀ k, first + 1 ≤ k →
        bucket.tournamentId ≠ arrivalName k := by
      intro bucket hin k hk
      obtain hold | hnew := List.mem_append.mp hin
      · exact hfresh bucket hold k (by omega)
      · rw [List.mem_singleton.mp hnew]
        intro hsame
        have hnumber : first = k := arrivalName_injective hsame
        omega
    have hfits : (s.buckets ++ [arrivalBucket first]).length + count ≤ maxBufferedBuckets := by
      simp only [List.length_append, List.length_singleton]
      omega
    rw [hlater, hfirst]
    refine (ih { s with
      buckets := s.buckets ++ [arrivalBucket first]
      counted := s.counted ++ [arrivalSample first] } (first + 1) hon hothers hfits).trans ?_
    simp [List.range'_succ]

/-- The buckets of other tournaments have other keys. -/
theorem newcomers_arrivals (drained counted : ℕ) :
    newcomers Bucket.key ((List.range' drained counted).map arrivalBucket)
        ((List.range' 0 drained).map arrivalBucket) =
      (List.range' 0 drained).map arrivalBucket := by
  refine newcomers_eq_self fun bucket hbucket hin => ?_
  obtain ⟨j, hj, rfl⟩ := List.mem_map.mp hbucket
  obtain ⟨other, hother, hkey⟩ := List.mem_map.mp hin
  obtain ⟨k, hk, rfl⟩ := List.mem_map.mp hother
  have hsame : k = j := arrivalName_injective (congrArg Prod.fst hkey)
  rw [List.mem_range'_1] at hj hk
  omega

/-- A buffer that a failed statement fills a second time. -/
theorem length_stuckFlush {drained counted : ℕ} (hsome : 0 < drained)
    (hdrained : drained ≤ maxBufferedBuckets) (hcounted : counted ≤ maxBufferedBuckets) :
    (run step (opened true noRows) (stuckFlush drained counted)).buckets.length =
      counted + drained := by
  let first := (List.range' 0 drained).map arrivalBucket
  let second := (List.range' drained counted).map arrivalBucket
  let samples := (List.range' 0 drained).map arrivalSample
  have hdrain : run step (opened true noRows) (arrivals 0 drained) =
      { opened true noRows with buckets := first, counted := samples } :=
    run_arrivals drained (opened true noRows) 0 rfl (fun bucket hin => by simp [opened] at hin)
      (by simpa [opened] using hdrained)
  have hsent : step { opened true noRows with buckets := first, counted := samples } .interval =
      { opened true noRows with draining := [first], counted := samples } := by
    have hfirst : first ≠ [] := by
      intro h
      have hlength := congrArg List.length h
      simp [first] at hlength
      omega
    simp [step, flush, opened, hfirst]
  have hcount : run step { opened true noRows with draining := [first], counted := samples }
      (arrivals drained counted) =
        { opened true noRows with
          buckets := second
          draining := [first]
          counted := samples ++ (List.range' drained counted).map arrivalSample } :=
    run_arrivals counted { opened true noRows with draining := [first], counted := samples } drained
      rfl (fun bucket hin => by simp [opened] at hin) (by simpa [opened] using hcounted)
  have hsteps : run step (opened true noRows) (stuckFlush drained counted) =
      step (run step (step (run step (opened true noRows) (arrivals 0 drained)) .interval)
        (arrivals drained counted)) (.answer 0 false) := by
    simp [run, stuckFlush, List.foldl_append]
  have hkeyed : (first.map Bucket.key).Nodup := by
    have hinj : ∀ j k, (arrivalBucket j).key = (arrivalBucket k).key → j = k :=
      fun j k h => arrivalName_injective (congrArg Prod.fst h)
    rw [List.map_map]
    exact List.Nodup.map (fun j k h => hinj j k h) List.nodup_range'
  rw [hsteps, hdrain, hsent, hcount]
  have hfailed : ¬ Written first false := fun h => Bool.noConfusion h.1
  simp only [step, List.getElem?_cons_zero, if_neg hfailed]
  rw [length_failed hkeyed, newcomers_arrivals drained counted]
  simp [second]

/-- Five thousand tournaments are drained, five thousand others are counted while the
statement is under way, and it fails: the buffer holds twice its maximum, and the next
statement would have to bind a hundred thousand parameters. -/
theorem stuck_flush_overfills :
    ¬ ∀ (table : LoadTable) (isEnabled : Bool) (actions : List LoadAction),
      Accounts table (run step (opened isEnabled table) actions) := by
  intro h
  have hbound := (h noRows true (stuckFlush 5000 5000)).writable.buffer
  rw [length_params, length_stuckFlush (by decide) (by decide) (by decide)] at hbound
  exact absurd hbound (by decide)

end FactoryServer.LoadAccounts
