import FactoryServer.GuardedRuns
import FactoryServer.JsonValue
import FactoryServer.KeyedTotals

/-!
# The load profile of the mutations

Samples of mutations are added up in memory, one bucket for each tournament, hour and
lifecycle class, and an interval writes the buckets to a table in one statement. The
buffer is drained before the statement is sent, and a statement that fails gives its
buckets back to a buffer that has grown meanwhile. The maximum is looked at when a
sample needs a new bucket and not when buckets are given back.
-/

namespace FactoryServer.LoadProfile

open GuardedRuns InsertionMaps JsonValue KeyedTotals

/-! ## The lifecycle class of a tournament -/

/-- `LIFECYCLE_CLASS`. -/
inductive LifecycleClass where
  | archive
  | construction
  | live
  | unknown
  deriving DecidableEq, Repr

/-- The text of a lifecycle class. -/
def LifecycleClass.text : LifecycleClass → String
  | .archive => "archive"
  | .construction => "construction"
  | .live => "live"
  | .unknown => "unknown"

/-- `MS_PER_HOUR`. -/
def msPerHour : ℤ := 60 * 60 * 1000

/-- `MS_PER_DAY`. -/
def msPerDay : ℤ := 24 * 60 * 60 * 1000

/-- `LIVE_GRACE_DAYS`. -/
def liveGraceDays : ℤ := 2

/-- The days from the epoch to the first day of a year. -/
def dayFromYear (year : ℤ) : ℤ :=
  365 * (year - 1970) + (year - 1969) / 4 - (year - 1901) / 100 + (year - 1601) / 400

/-- The days of a year before a month, counted from zero. -/
def dayFromMonth (year : ℤ) (month : ℕ) : ℤ :=
  [0, 31, 59, 90, 120, 151, 181, 212, 243, 273, 304, 334].getD month 0 +
    if 2 ≤ month then dayFromYear (year + 1) - dayFromYear year - 365 else 0

/-- `Date.UTC(year, month, day)`: a month beyond its year runs on into the next one,
and a year below 100 is one of the twentieth century. -/
def dateUTC (year month day : ℤ) : ℤ :=
  let full := if 0 ≤ year ∧ year ≤ 99 then 1900 + year else year
  let wrapped := full + month / 12
  (dayFromYear wrapped + dayFromMonth wrapped (month % 12).toNat + day - 1) * msPerDay

/-- The number some decimal digits write. -/
def number (digits : List Char) : ℤ :=
  digits.foldl (fun value digit => value * 10 + (digit.toNat - '0'.toNat : ℤ)) 0

/-- `parseDateOnly`: the instant of the date a text starts with. -/
def parseDateOnly : Option Json → Option ℤ
  | some (.str text) =>
    match text.toList with
    | y₁ :: y₂ :: y₃ :: y₄ :: '-' :: m₁ :: m₂ :: '-' :: d₁ :: d₂ :: _ =>
      if [y₁, y₂, y₃, y₄, m₁, m₂, d₁, d₂].all Char.isDigit then
        some (dateUTC (number [y₁, y₂, y₃, y₄]) (number [m₁, m₂] - 1) (number [d₁, d₂]))
      else none
    | _ => none
  | _ => none

/-- `tournamentRecord.activeDates` where it is an array. -/
def activeDates (tournamentRecord : Option Json) : List Json :=
  match chain tournamentRecord "activeDates" with
  | some (.arr items) => items
  | _ => []

/-- `classifyTournament(tournamentRecord, now)`. -/
def classifyTournament (tournamentRecord : Option Json) (now : ℤ) : LifecycleClass :=
  if truthy tournamentRecord = false then .unknown
  else
    let start := parseDateOnly (chain tournamentRecord "startDate")
    let finish := parseDateOnly (chain tournamentRecord "endDate")
    let today := now / msPerDay * msPerDay
    if (activeDates tournamentRecord).any fun date => parseDateOnly (some date) == some today then
      .live
    else if start = none ∧ finish = none then .unknown
    else if ∃ first ∈ start, now < first then .construction
    else if ∃ last ∈ finish, last + liveGraceDays * msPerDay < now then .archive
    else .live

/-! ## Samples and buckets -/

/-- `MutationSample`. -/
structure MutationSample where
  tournamentId : Option String
  tournamentRecord : Option Json
  elapsedMs : Option ℤ
  methodCount : Option ℤ
  recordBytes : Option ℤ
  fenced : Bool

/-- `Bucket`, which is the row of the table as well. -/
structure Bucket where
  tournamentId : String
  bucketStart : ℤ
  lifecycleClass : LifecycleClass
  mutationCount : ℤ
  methodCount : ℤ
  totalElapsedMs : ℤ
  maxElapsedMs : ℤ
  totalRecordBytes : ℤ
  maxRecordBytes : ℤ
  fencedCount : ℤ

/-- What a bucket is kept by. The source joins the three with bars; the last two hold
none, so that the joined text determines them. -/
abbrev BucketKey := String × ℤ × LifecycleClass

/-- The key of a bucket. -/
def Bucket.key (bucket : Bucket) : BucketKey :=
  (bucket.tournamentId, bucket.bucketStart, bucket.lifecycleClass)

/-- A bucket that has counted nothing. -/
def Bucket.empty (key : BucketKey) : Bucket where
  tournamentId := key.1
  bucketStart := key.2.1
  lifecycleClass := key.2.2
  mutationCount := 0
  methodCount := 0
  totalElapsedMs := 0
  maxElapsedMs := 0
  totalRecordBytes := 0
  maxRecordBytes := 0
  fencedCount := 0

/-- Count a sample in its bucket. -/
def Bucket.count (bucket : Bucket) (sample : MutationSample) : Bucket :=
  { bucket with
    mutationCount := bucket.mutationCount + 1
    methodCount := bucket.methodCount + sample.methodCount.getD 0
    totalElapsedMs := bucket.totalElapsedMs + sample.elapsedMs.getD 0
    maxElapsedMs := max bucket.maxElapsedMs (sample.elapsedMs.getD 0)
    totalRecordBytes := bucket.totalRecordBytes + sample.recordBytes.getD 0
    maxRecordBytes := max bucket.maxRecordBytes (sample.recordBytes.getD 0)
    fencedCount := if sample.fenced then bucket.fencedCount + 1 else bucket.fencedCount }

/-- `mergeBuckets(a, b)`. -/
def mergeBuckets (a b : Bucket) : Bucket :=
  { a with
    mutationCount := a.mutationCount + b.mutationCount
    methodCount := a.methodCount + b.methodCount
    totalElapsedMs := a.totalElapsedMs + b.totalElapsedMs
    maxElapsedMs := max a.maxElapsedMs b.maxElapsedMs
    totalRecordBytes := a.totalRecordBytes + b.totalRecordBytes
    maxRecordBytes := max a.maxRecordBytes b.maxRecordBytes
    fencedCount := a.fencedCount + b.fencedCount }

/-- `ON CONFLICT … DO UPDATE SET …`: what the statement makes of a row of the table. -/
def accumulate (stored excluded : Bucket) : Bucket :=
  { stored with
    mutationCount := stored.mutationCount + excluded.mutationCount
    methodCount := stored.methodCount + excluded.methodCount
    totalElapsedMs := stored.totalElapsedMs + excluded.totalElapsedMs
    maxElapsedMs := max stored.maxElapsedMs excluded.maxElapsedMs
    totalRecordBytes := stored.totalRecordBytes + excluded.totalRecordBytes
    maxRecordBytes := max stored.maxRecordBytes excluded.maxRecordBytes
    fencedCount := stored.fencedCount + excluded.fencedCount }

/-- The counters that add up. -/
inductive AdditiveCounter where
  | mutationCount
  | methodCount
  | totalElapsedMs
  | totalRecordBytes
  | fencedCount

/-- A counter of a bucket. -/
def Bucket.counter (counter : AdditiveCounter) (bucket : Bucket) : ℤ :=
  match counter with
  | .mutationCount => bucket.mutationCount
  | .methodCount => bucket.methodCount
  | .totalElapsedMs => bucket.totalElapsedMs
  | .totalRecordBytes => bucket.totalRecordBytes
  | .fencedCount => bucket.fencedCount

/-- What a sample adds to a counter. -/
def MutationSample.amount (counter : AdditiveCounter) (sample : MutationSample) : ℤ :=
  match counter with
  | .mutationCount => 1
  | .methodCount => sample.methodCount.getD 0
  | .totalElapsedMs => sample.elapsedMs.getD 0
  | .totalRecordBytes => sample.recordBytes.getD 0
  | .fencedCount => if sample.fenced then 1 else 0

/-! ## The statement -/

/-- What a bucket binds. -/
def bucketParams (bucket : Bucket) : List Json :=
  [.str bucket.tournamentId, .num bucket.bucketStart, .str bucket.lifecycleClass.text,
    .num bucket.mutationCount, .num bucket.methodCount, .num bucket.totalElapsedMs,
    .num bucket.maxElapsedMs, .num bucket.totalRecordBytes, .num bucket.maxRecordBytes,
    .num bucket.fencedCount]

/-- The parameters of the statement that writes some buckets. -/
def params (buckets : List Bucket) : List Json := buckets.flatMap bucketParams

/-- The most parameters a statement binds. -/
def maxParams : ℕ := 65535

/-- `tournament_load_profile`. -/
structure LoadTable where
  rows : List Bucket
  /-- The primary key. -/
  keyed : (rows.map Bucket.key).Nodup

/-! ## The service -/

/-- `MAX_BUFFERED_BUCKETS`. -/
def maxBufferedBuckets : ℕ := 5000

/-- The service, the table and the samples taken so far. -/
structure State where
  isEnabled : Bool
  /-- The interval still runs. -/
  timer : Bool
  buckets : List Bucket
  flushFailures : ℕ
  droppedSamples : ℕ
  /-- The buckets of each statement that is sent and not answered. -/
  draining : List (List Bucket)
  rows : List Bucket
  /-- The samples that were counted in a bucket. -/
  counted : List MutationSample

/-- The service when its process starts. -/
def opened (isEnabled : Bool) (table : LoadTable) : State :=
  ⟨isEnabled, isEnabled, [], 0, 0, [], table.rows, []⟩

/-- The bucket a sample belongs to. -/
def sampleKey (tournamentId : String) (sample : MutationSample) (now : ℤ) : BucketKey :=
  (tournamentId, now / msPerHour * msPerHour,
    if truthy sample.tournamentRecord then classifyTournament sample.tournamentRecord now
    else .unknown)

/-- `record(sample)`. -/
def record (s : State) (sample : MutationSample) (now : ℤ) : State :=
  let tournamentId := sample.tournamentId.getD ""
  if s.isEnabled = false ∨ tournamentId = "" then s
  else
    let key := sampleKey tournamentId sample now
    match valueOf Bucket.key s.buckets key with
    | some bucket =>
      { s with
        buckets := setValue Bucket.key s.buckets (bucket.count sample)
        counted := s.counted ++ [sample] }
    | none =>
      if maxBufferedBuckets ≤ s.buckets.length then
        { s with droppedSamples := s.droppedSamples + 1 }
      else
        { s with
          buckets := setValue Bucket.key s.buckets ((Bucket.empty key).count sample)
          counted := s.counted ++ [sample] }

/-- `flush()` until it waits for its statement. -/
def flush (s : State) : State :=
  if s.isEnabled = false ∨ s.buckets = [] then s
  else { s with buckets := [], draining := s.draining ++ [s.buckets] }

/-- The statement has written its buckets. -/
def succeeded (s : State) (batch : List Bucket) : State :=
  { s with
    rows := mergeAll Bucket.key accumulate s.rows batch
    flushFailures := 0
    droppedSamples := if s.flushFailures = 0 then s.droppedSamples else 0 }

/-- The statement has failed and written nothing: its buckets are merged back. -/
def failed (s : State) (batch : List Bucket) : State :=
  { s with
    buckets := mergeAll Bucket.key mergeBuckets s.buckets batch
    flushFailures := s.flushFailures + 1 }

/-- What happens to the service. -/
inductive LoadAction where
  /-- A mutation is recorded. -/
  | record (sample : MutationSample) (now : ℤ)
  /-- The interval is over. -/
  | interval
  /-- `onModuleDestroy`. -/
  | shutdown
  /-- A statement is answered; one that binds too much is refused whatever the
  database would have said. -/
  | answer (position : ℕ) (written : Bool)

/-- A statement that the database can take and takes. -/
def Written (batch : List Bucket) (written : Bool) : Prop :=
  written = true ∧ (params batch).length ≤ maxParams

instance (batch : List Bucket) (written : Bool) : Decidable (Written batch written) :=
  inferInstanceAs (Decidable (_ ∧ _))

/-- One step of the service. -/
def step (s : State) : LoadAction → State
  | .record sample now => record s sample now
  | .interval => if s.timer then flush s else s
  | .shutdown => flush { s with timer := false }
  | .answer position written =>
    match s.draining[position]? with
    | none => s
    | some batch =>
      let rest := { s with draining := s.draining.eraseIdx position }
      if Written batch written then succeeded rest batch else failed rest batch

example : dateUTC 2026 11 5 = 1796428800000 := by decide

end FactoryServer.LoadProfile
