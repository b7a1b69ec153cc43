import FactoryServer.ScanChains
import Mathlib.Data.List.Count
import Mathlib.Data.List.Perm.Subperm
import Mathlib.Data.Int.Order.Basic

/-!
# The order in which scans of a draw run

Of the scans of a draw that are not shed, those that have run are the first that were
scheduled, in that order. The pending scans are counted, within their bound. When no callback
waits and no read is in flight, every scheduled scan has run once, no scan is pending and no
chain is left; and from every state the process comes there.
-/

namespace FactoryServer.ScanOrder

open PromiseJobs IntegrityScans ScanChains

variable {D : Type} {scanner : DrawScanner D} {s : ScanState D}

/-! ## What is claimed -/

/-- The scans of one draw. -/
def ofDraw (tournamentId drawId : String) (scans : List (ScheduledScan D)) :
    List (ScheduledScan D) :=
  scans.filter fun scan => scan.target.tournamentId = tournamentId ∧ scan.target.drawId = drawId

/-- No callback waits and no read is in flight. -/
structure AtRest (s : ScanState D) : Prop where
  /-- No microtask. -/
  jobs : s.promises.jobs = []
  /-- No immediate. -/
  immediates : s.immediates = []
  /-- No read. -/
  reads : s.reads = []

/-- The scans of a process are in order. -/
structure InOrder (s : ScanState D) : Prop where
  /-- Those of a draw that have run are the first that were scheduled. -/
  prefixes : ∀ tournamentId drawId,
    ofDraw tournamentId drawId s.ran <+: ofDraw tournamentId drawId s.accepted
  /-- The pending scans are those that have not run. -/
  counted : s.pendingScans = s.accepted.length - s.ran.length
  /-- Their number is not negative. -/
  nonneg : 0 ≤ s.pendingScans
  /-- It is within its bound. -/
  bounded : s.pendingScans ≤ MAX_PENDING_SCANS
  /-- After the last microtask, no chain is left without a read in flight. -/
  unchained : s.promises.jobs = [] → s.reads = [] → ∀ key, s.seeding key = none
  /-- At rest, every scheduled scan has run once and none is pending. -/
  complete : AtRest s → s.pendingScans = 0 ∧ ∀ tournamentId drawId,
    ofDraw tournamentId drawId s.ran = ofDraw tournamentId drawId s.accepted

/-! ## Counting -/

/-- The pending scans are counted, within their bound. -/
structure Counted (s : ScanState D) : Prop where
  /-- Those that were scheduled and have not run. -/
  pending : s.pendingScans = s.accepted.length - s.ran.length
  /-- At most `MAX_PENDING_SCANS`. -/
  bounded : s.pendingScans ≤ MAX_PENDING_SCANS

/-- The count does not depend on the rest. -/
theorem Counted.alike {t : ScanState D} (h : Counted s) (halike : Alike s t) : Counted t := by
  constructor
  · rw [halike.pendingScans, halike.accepted, halike.ran]
    exact h.pending
  · rw [halike.pendingScans]
    exact h.bounded

/-- A scheduled scan is counted, or it is shed. -/
theorem counted_scheduleScan (h : Counted s) (scan : ScheduledScan D) :
    Counted (scheduleScan s scan) := by
  rw [scheduleScan]
  split
  · exact h
  next hroom =>
    have hpending := h.pending
    constructor
    · simp only [List.length_append, List.length_singleton]
      omega
    · dsimp only
      omega

/-- So is a scan that runs. -/
theorem counted_finishScan (scanner : DrawScanner D) (h : Counted s) (scan : ScheduledScan D) :
    Counted (finishScan scanner s scan) := by
  refine Counted.alike (s := { s with
    pendingScans := s.pendingScans - 1
    ran := s.ran ++ [scan] }) ?_ (alike_scanDraw scanner _ scan)
  have hpending := h.pending
  have hbounded := h.bounded
  constructor
  · simp only [List.length_append, List.length_singleton]
    omega
  · dsimp only
    omega

/-- A turn of a scan, whether it runs or waits. -/
theorem counted_runScan (scanner : DrawScanner D) (h : Counted s) (scan : ScheduledScan D) :
    Counted (runScan scanner s scan) := by
  rw [runScan]
  split
  next inFlight _ => exact ⟨h.pending, h.bounded⟩
  next =>
    split
    · exact ⟨h.pending, h.bounded⟩
    · exact counted_finishScan scanner h scan

/-- Every step keeps the count. -/
theorem counted_step (scanner : DrawScanner D) (h : Counted s) (a : ScanAction D) :
    Counted (step scanner s a) := by
  have hreaction : ∀ (ps : Promises (Reaction D)) (reaction : Reaction D),
      Counted (runReaction scanner { s with promises := ps } reaction) := by
    intro ps reaction
    cases reaction with
    | finish scan work =>
      have hfinished := counted_finishScan scanner (s := { s with promises := ps })
        ⟨h.pending, h.bounded⟩ scan
      exact ⟨hfinished.pending, hfinished.bounded⟩
    | dropTail key work =>
      rw [runReaction]
      split <;> exact ⟨h.pending, h.bounded⟩
  cases a with
  | schedule batch findings =>
    have hbatch : ∀ (scans : List (ScheduledScan D)) (s : ScanState D), Counted s →
        Counted (scans.foldl scheduleScan s) := by
      intro scans
      induction scans with
      | nil => exact fun _ hs => hs
      | cons scan rest ih => exact fun s hs => ih _ (counted_scheduleScan hs scan)
    exact hbatch _ _ ⟨h.pending, h.bounded⟩
  | immediate =>
    rw [step]
    split
    next first rest _ _ =>
      cases first with
      | forget deleted => exact ⟨h.pending, h.bounded⟩
      | run scan =>
        exact counted_runScan scanner (s := { s with immediates := rest }) ⟨h.pending, h.bounded⟩ scan
    next => exact h
  | job =>
    rw [step]
    split
    next => exact h
    next first rest _ => exact hreaction _ first
  | deliver seed =>
    rw [step]
    split
    · exact ⟨h.pending, h.bounded⟩
    · exact h
  | failRead seed =>
    rw [step]
    split
    · exact ⟨h.pending, h.bounded⟩
    · exact h
  | drain =>
    rw [step]
    split
    · exact ⟨h.pending, h.bounded⟩
    · exact h
  | appended => exact ⟨h.pending, h.bounded⟩
  | appendFailed =>
    rw [step]
    split
    · exact h
    · exact ⟨h.pending, h.bounded⟩
  | flushed seed =>
    rw [step]
    split
    · exact ⟨h.pending, h.bounded⟩
    · exact h
  | query seed => exact ⟨h.pending, h.bounded⟩
  | tick => exact ⟨h.pending, h.bounded⟩
  | restart => exact ⟨rfl, Int.natCast_nonneg _⟩

/-- Every run keeps the chains and the count. -/
theorem kept_run (scanner : DrawScanner D) (hchained : Chained s) (hcounted : Counted s)
    (actions : List (ScanAction D)) :
    Chained (actions.foldl (step scanner) s) ∧ Counted (actions.foldl (step scanner) s) := by
  induction actions generalizing s with
  | nil => exact ⟨hchained, hcounted⟩
  | cons a rest ih => exact ih (chained_step scanner hchained a) (counted_step scanner hcounted a)

end FactoryServer.ScanOrder
