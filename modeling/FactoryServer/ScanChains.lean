import FactoryServer.IntegrityScans

/-!
# The chains of scans that wait

A scan whose draw has to be read back waits on the read, and a later scan of the draw waits
on the promise of the last one that waits already. Every state of the process has, for each
draw, a list of the scans that wait: the reactions of its promises are those of this chain,
the read in flight or the microtask at hand belongs to its first scan, and the tail that is
stored for the draw is its last. Each step keeps this.
-/

namespace FactoryServer.ScanChains

open PromiseJobs IntegrityScans

variable {D : Type}

/-! ## Scans and reads -/

/-- The scans of one key. -/
def ofKey (key : String) (scans : List (ScheduledScan D)) : List (ScheduledScan D) :=
  scans.filter fun scan => scan.key = key

/-- The scans among the immediates. -/
def scansOf (immediates : List (Immediate D)) : List (ScheduledScan D) :=
  immediates.filterMap fun immediate =>
    match immediate with
    | .forget _ => none
    | .run scan => some scan

/-- The promises of the reads in flight, and their draws. -/
def readKeys (reads : List (SeedRead D)) : List (ℕ × String) :=
  reads.map fun read => (read.seed, read.target.key)

/-! ## Chains -/

/-- A scan that waits, and the promise that settles when it has run. -/
abbrev Link (D : Type) := ScheduledScan D × ℕ

/-- The reactions along a chain: its own removal, then the scan behind. -/
def Trail (ps : Promises (Reaction D)) (key : String) : List (Link D) → Prop
  | [] => True
  | (_, work) :: rest =>
    ps.reactions work = .dropTail key work ::
        (rest.head?.map fun link => Reaction.finish link.1 link.2).toList ∧
      Trail ps key rest

/-- The promise of the last scan of a chain. -/
def tailOf (links : List (Link D)) : Option ℕ := links.getLast?.map Prod.snd

/-- The microtasks of a turn: none, or those of the chain that moves on. -/
inductive Turn (s : ScanState D) (links : String → List (Link D)) : Option String → Prop where
  /-- The turn is over. -/
  | ended (hjobs : s.promises.jobs = []) (htails : ∀ key, s.seeding key = tailOf (links key)) :
      Turn s links none
  /-- The first scan of a chain is about to run. -/
  | finish {key : String} {scan : ScheduledScan D} {work : ℕ} {rest : List (Link D)}
      (hlinks : links key = (scan, work) :: rest) (hjobs : s.promises.jobs = [.finish scan work])
      (htails : ∀ key, s.seeding key = tailOf (links key)) : Turn s links (some key)
  /-- A scan has run that was not the last of its chain. -/
  | drop {key : String} {old : ℕ} {scan : ScheduledScan D} {work : ℕ} {rest : List (Link D)}
      (hlinks : links key = (scan, work) :: rest)
      (hjobs : s.promises.jobs = [.dropTail key old, .finish scan work]) (hold : old < work)
      (htails : ∀ key, s.seeding key = tailOf (links key)) : Turn s links (some key)
  /-- The last scan of a chain has run. -/
  | last {key : String} {work : ℕ} (hlinks : links key = [])
      (hjobs : s.promises.jobs = [.dropTail key work]) (hseeding : s.seeding key = some work)
      (htails : ∀ other, other ≠ key → s.seeding other = tailOf (links other)) :
      Turn s links (some key)

/-- A read in flight: the first scan of its draw's chain waits on it. -/
structure Reading (s : ScanState D) (owner : ℕ → String) (links : String → List (Link D))
    (seed : ℕ) (key : String) : Prop where
  /-- Its promise was made. -/
  made : seed < s.promises.next
  /-- It is pending. -/
  pending : s.promises.settled seed = false
  /-- It is a promise of the draw. -/
  owned : owner seed = key
  /-- It was made before those of the chain. -/
  before : ∀ link ∈ links key, seed < link.2
  /-- The first scan waits on it. -/
  first : ∃ scan work rest, links key = (scan, work) :: rest ∧
    s.promises.reactions seed = [.finish scan work]

/-- The promises of the process are those of the chains: `links` lists the scans that wait, and
`owner` the draw of each promise. -/
structure Linked (s : ScanState D) (owner : ℕ → String) (links : String → List (Link D))
    (firing : Option String) : Prop where
  /-- The scans of a chain are of its draw. -/
  scans : ∀ key, ∀ link ∈ links key, link.1.key = key
  /-- So are its promises. -/
  owned : ∀ key, ∀ link ∈ links key, owner link.2 = key
  /-- They were made. -/
  made : ∀ key, ∀ link ∈ links key, link.2 < s.promises.next
  /-- They are pending. -/
  pending : ∀ key, ∀ link ∈ links key, s.promises.settled link.2 = false
  /-- They were made in order. -/
  increasing : ∀ key, ((links key).map Prod.snd).Pairwise (· < ·)
  /-- They react on one another. -/
  trail : ∀ key, Trail s.promises key (links key)
  /-- Later promises do not exist yet. -/
  fresh : ∀ p, s.promises.next ≤ p → s.promises.settled p = false ∧ s.promises.reactions p = []
  /-- The reads in flight. -/
  reads : ∀ read ∈ readKeys s.reads, Reading s owner links read.1 read.2
  /-- A draw is read once at a time. -/
  single : ((readKeys s.reads).map Prod.snd).Nodup
  /-- A chain waits on a read, or it moves on. -/
  waiting : ∀ key, links key ≠ [] → key ∈ (readKeys s.reads).map Prod.snd ∨ firing = some key
  /-- It does not do both. -/
  apart : ∀ key ∈ (readKeys s.reads).map Prod.snd, firing ≠ some key
  /-- The microtasks. -/
  turn : Turn s links firing
  /-- The scans have run, they wait in their chain, or they are queued. -/
  order : ∀ key, ofKey key s.accepted =
    ofKey key s.ran ++ (links key).map Prod.fst ++ ofKey key (scansOf s.immediates)

/-- Nothing of the chains differs. -/
structure Alike (s t : ScanState D) : Prop where
  /-- The promises. -/
  promises : t.promises = s.promises
  /-- The tails. -/
  seeding : t.seeding = s.seeding
  /-- The reads. -/
  reads : readKeys t.reads = readKeys s.reads
  /-- The queued scans. -/
  immediates : scansOf t.immediates = scansOf s.immediates
  /-- The scheduled scans. -/
  accepted : t.accepted = s.accepted
  /-- The scans that have run. -/
  ran : t.ran = s.ran
  /-- Their number. -/
  pendingScans : t.pendingScans = s.pendingScans

/-! ## Small facts -/

theorem ofKey_append (key : String) (these others : List (ScheduledScan D)) :
    ofKey key (these ++ others) = ofKey key these ++ ofKey key others :=
  List.filter_append these others

/-- A scan is of its own key. -/
theorem ofKey_self (scan : ScheduledScan D) : ofKey scan.key [scan] = [scan] := by
  simp [ofKey]

/-- It is of no other. -/
theorem ofKey_of_ne {key : String} {scan : ScheduledScan D} (h : key ≠ scan.key) :
    ofKey key [scan] = [] := by
  simp [ofKey, Ne.symm h]

/-- The tail of a chain that a scan joins. -/
theorem tailOf_append (links : List (Link D)) (link : Link D) :
    tailOf (links ++ [link]) = some link.2 := by
  simp [tailOf]

/-- A chain without a tail is empty. -/
theorem tailOf_eq_none {links : List (Link D)} : tailOf links = none ↔ links = [] := by
  simp [tailOf]

/-- A chain with a tail ends with it. -/
theorem tailOf_eq_some {links : List (Link D)} {work : ℕ} (h : tailOf links = some work) :
    ∃ front scan, links = front ++ [(scan, work)] := by
  obtain ⟨link, hlast, rfl⟩ := Option.map_eq_some_iff.mp h
  obtain ⟨front, hfront⟩ := List.getLast?_eq_some_iff.mp hlast
  exact ⟨front, link.1, hfront⟩

/-- The tail is no earlier than the first promise of a chain. -/
theorem le_tailOf {links : List (Link D)} {first : Link D} {work : ℕ}
    (hincreasing : ((first :: links).map Prod.snd).Pairwise (· < ·))
    (h : tailOf (first :: links) = some work) : first.2 ≤ work := by
  obtain ⟨front, scan, hsplit⟩ := tailOf_eq_some h
  cases front with
  | nil =>
    rw [List.nil_append] at hsplit
    cases hsplit
    exact Nat.le_refl _
  | cons link front =>
    rw [List.cons_append] at hsplit
    injection hsplit with hfirst hrest
    subst hfirst
    rw [List.map_cons, List.pairwise_cons] at hincreasing
    have hmem : work ∈ links.map Prod.snd := by simp [hrest]
    exact Nat.le_of_lt (hincreasing.1 work hmem)

/-- A chain reacts as before where its promises do. -/
theorem trail_congr {ps others : Promises (Reaction D)} {key : String} {links : List (Link D)}
    (h : ∀ link ∈ links, others.reactions link.2 = ps.reactions link.2)
    (htrail : Trail ps key links) : Trail others key links := by
  induction links with
  | nil => trivial
  | cons link rest ih =>
    rw [List.forall_mem_cons] at h
    rw [Trail] at htrail ⊢
    exact ⟨h.1.trans htrail.1, ih h.2 htrail.2⟩

/-- A scan joins the end of a chain. -/
theorem trail_append {ps others : Promises (Reaction D)} {key : String} {front : List (Link D)}
    {last scan : ScheduledScan D} {tail work : ℕ}
    (hfront : ∀ link ∈ front, others.reactions link.2 = ps.reactions link.2)
    (htail : others.reactions tail = ps.reactions tail ++ [.finish scan work])
    (hwork : others.reactions work = [.dropTail key work])
    (htrail : Trail ps key (front ++ [(last, tail)])) :
    Trail others key (front ++ [(last, tail)] ++ [(scan, work)]) := by
  induction front with
  | nil =>
    simp only [List.nil_append, Trail, List.head?_nil, Option.map_none, Option.toList_none] at htrail
    refine ⟨?_, hwork, trivial⟩
    rw [htail, htrail.1]
    rfl
  | cons link rest ih =>
    rw [List.forall_mem_cons] at hfront
    rw [List.cons_append, Trail] at htrail
    refine ⟨?_, ih hfront.2 htrail.2⟩
    rw [hfront.1, htrail.1]
    cases rest with
    | nil => rfl
    | cons next rest => rfl

/-- The chains are as they were where their promises, tails and reads are. -/
theorem Linked.kept {s t : ScanState D} {owner : ℕ → String} {links : String → List (Link D)}
    {firing : Option String} (h : Linked s owner links firing) (hpromises : t.promises = s.promises)
    (hseeding : t.seeding = s.seeding) (hreads : readKeys t.reads = readKeys s.reads)
    (horder : ∀ key, ofKey key t.accepted =
      ofKey key t.ran ++ (links key).map Prod.fst ++ ofKey key (scansOf t.immediates)) :
    Linked t owner links firing := by
  have hreading : ∀ seed key, Reading s owner links seed key → Reading t owner links seed key := by
    intro seed key hr
    exact ⟨hpromises ▸ hr.made, hpromises ▸ hr.pending, hr.owned, hr.before, hpromises ▸ hr.first⟩
  have hturn : Turn t links firing := by
    cases h.turn with
    | ended hjobs htails => exact .ended (hpromises ▸ hjobs) (hseeding ▸ htails)
    | finish hlinks hjobs htails => exact .finish hlinks (hpromises ▸ hjobs) (hseeding ▸ htails)
    | drop hlinks hjobs hold htails =>
      exact .drop hlinks (hpromises ▸ hjobs) hold (hseeding ▸ htails)
    | last hlinks hjobs hwork htails =>
      exact .last hlinks (hpromises ▸ hjobs) (hseeding ▸ hwork) (hseeding ▸ htails)
  refine ⟨h.scans, h.owned, hpromises ▸ h.made, hpromises ▸ h.pending, h.increasing,
    hpromises ▸ h.trail, hpromises ▸ h.fresh, ?_, hreads ▸ h.single, hreads ▸ h.waiting,
    hreads ▸ h.apart, hturn, horder⟩
  intro read hread
  rw [hreads] at hread
  exact hreading _ _ (h.reads read hread)

/-- Nothing of the chains differs: they are as they were. -/
theorem Linked.alike {s t : ScanState D} {owner : ℕ → String} {links : String → List (Link D)}
    {firing : Option String} (h : Linked s owner links firing) (halike : Alike s t) :
    Linked t owner links firing := by
  refine h.kept halike.promises halike.seeding halike.reads ?_
  rw [halike.accepted, halike.ran, halike.immediates]
  exact h.order

/-- A property of every chain, when one of them changes. -/
theorem forall_chain {links : String → List (Link D)} {key : String} {chain : List (Link D)}
    {Q : String → List (Link D) → Prop} (hself : Q key chain)
    (hothers : ∀ other, other ≠ key → Q other (links other)) :
    ∀ other, Q other (Function.update links key chain other) := by
  intro other
  by_cases hother : other = key
  · subst hother
    rw [Function.update_self]
    exact hself
  · rw [Function.update_of_ne hother]
    exact hothers other hother

/-! ## What a scan changes -/

section Steps

variable {scanner : DrawScanner D} {s : ScanState D} {owner : ℕ → String}
  {links : String → List (Link D)} {firing : Option String}

/-- The chains do not depend on what is remembered or recorded. -/
theorem alike_recorded (s : ScanState D) (memory : Memory) (queue : List DrawIntegrityFindingRow)
    (completed : List (DrawScanTarget D)) :
    Alike s { s with memory := memory, queue := queue, completed := completed } :=
  ⟨rfl, rfl, rfl, rfl, rfl, rfl, rfl⟩

/-- The scan itself changes the memory and the queue of rows. -/
theorem alike_scanDraw (scanner : DrawScanner D) (s : ScanState D) (scan : ScheduledScan D) :
    Alike s (scanDraw scanner s scan) := by
  rw [scanDraw]
  cases scanner.getDrawInconsistencies scan.target.drawDefinition scan.target.drawId with
  | none => exact ⟨rfl, rfl, rfl, rfl, rfl, rfl, rfl⟩
  | some issues =>
    dsimp only
    split
    · exact alike_recorded s _ _ _
    · exact alike_recorded s _ s.queue _

/-- The promises after a scan has joined a chain. -/
theorem chainScan_promises {scan : ScheduledScan D} {inFlight : ℕ}
    (hpending : s.promises.settled inFlight = false)
    (hfresh : s.promises.settled s.promises.next = false ∧
      s.promises.reactions s.promises.next = []) (hmade : inFlight < s.promises.next) :
    (chainScan s scan inFlight).promises =
      { next := s.promises.next + 1
        settled := s.promises.settled
        reactions := Function.update (Function.update s.promises.reactions inFlight
          (s.promises.reactions inFlight ++ [.finish scan s.promises.next])) s.promises.next
          [.dropTail scan.key s.promises.next]
        jobs := s.promises.jobs } := by
  have hcreated : s.promises.create.settled inFlight = false := hpending
  have hne : s.promises.next ≠ inFlight := Nat.ne_of_gt hmade
  rw [chainScan, chainDraw]
  dsimp only
  rw [react_of_pending _ _ hcreated]
  rw [react_of_pending _ _ (by exact hfresh.1)]
  simp [Function.update_of_ne hne, hfresh.2]

/-- The promises after a scan has begun a chain behind a read. -/
theorem seedScan_promises (scan : ScheduledScan D)
    (hfresh : ∀ p, s.promises.next ≤ p →
      s.promises.settled p = false ∧ s.promises.reactions p = []) :
    (seedScan s scan).promises =
      { next := s.promises.next + 1 + 1
        settled := s.promises.settled
        reactions := Function.update (Function.update s.promises.reactions s.promises.next
          [.finish scan (s.promises.next + 1)]) (s.promises.next + 1)
          [.dropTail scan.key (s.promises.next + 1)]
        jobs := s.promises.jobs } := by
  have hseed := hfresh s.promises.next (Nat.le_refl _)
  have hwork := hfresh (s.promises.next + 1) (Nat.le_succ _)
  rw [seedScan, chainDraw]
  dsimp only [create_next]
  rw [react_of_pending _ _ (by rw [react_settled]; exact hwork.1)]
  rw [react_of_pending _ _ (by exact hseed.1)]
  simp [hseed.2, hwork.2]

/-- A queued scan that runs at once, when its draw has no chain. -/
theorem linked_run {scan : ScheduledScan D} {rest : List (Immediate D)}
    (h : Linked s owner links none) (himmediates : s.immediates = .run scan :: rest)
    (hempty : links scan.key = []) :
    Linked (finishScan scanner { s with immediates := rest } scan) owner links none := by
  refine Linked.alike (s := { s with
    immediates := rest
    pendingScans := s.pendingScans - 1
    ran := s.ran ++ [scan] }) ?_ (alike_scanDraw scanner _ scan)
  refine h.kept rfl rfl rfl fun key => ?_
  have horder := h.order key
  rw [himmediates] at horder
  have hscans : scansOf (.run scan :: rest) = [scan] ++ scansOf rest := rfl
  rw [hscans, ofKey_append] at horder
  dsimp only
  rw [ofKey_append, horder]
  by_cases hkey : key = scan.key
  · subst hkey
    simp [hempty]
  · simp [ofKey_of_ne hkey]

/-- A queued scan that joins the chain of its draw. -/
theorem linked_chain {scan : ScheduledScan D} {rest : List (Immediate D)} {inFlight : ℕ}
    (h : Linked s owner links none) (himmediates : s.immediates = .run scan :: rest)
    (htail : tailOf (links scan.key) = some inFlight) :
    Linked (chainScan { s with immediates := rest } scan inFlight)
      (Function.update owner s.promises.next scan.key)
      (Function.update links scan.key (links scan.key ++ [(scan, s.promises.next)])) none := by
  obtain ⟨front, last, hsplit⟩ := tailOf_eq_some htail
  have hlast : (last, inFlight) ∈ links scan.key := by simp [hsplit]
  have hmade := h.made scan.key _ hlast
  have hfresh := h.fresh s.promises.next (Nat.le_refl _)
  have hp : (chainScan { s with immediates := rest } scan inFlight).promises = _ :=
    chainScan_promises (h.pending scan.key _ hlast) hfresh hmade
  have howner : ∀ p < s.promises.next,
      Function.update owner s.promises.next scan.key p = owner p :=
    fun p hlt => Function.update_of_ne (Nat.ne_of_lt hlt) _ _
  have hreactions : ∀ p < s.promises.next, p ≠ inFlight →
      (chainScan { s with immediates := rest } scan inFlight).promises.reactions p =
        s.promises.reactions p := by
    intro p hlt hne
    rw [hp]
    dsimp only
    rw [Function.update_of_ne (Nat.ne_of_lt hlt), Function.update_of_ne hne]
  have hincreasing := h.increasing scan.key
  have hfront : ∀ link ∈ front, link.2 < inFlight := by
    intro link hlink
    rw [hsplit, List.map_append, List.pairwise_append] at hincreasing
    exact hincreasing.2.2 link.2 (List.mem_map_of_mem hlink) inFlight (by simp)
  have hjobs : s.promises.jobs = [] ∧ ∀ key, s.seeding key = tailOf (links key) := by
    cases h.turn with
    | ended hjobs htails => exact ⟨hjobs, htails⟩
  have hstarts : ∀ {seed : ℕ} {key : String}, Reading s owner links seed key →
      (∃ first work others, Function.update links scan.key
        (links scan.key ++ [(scan, s.promises.next)]) key = (first, work) :: others ∧
        (chainScan { s with immediates := rest } scan inFlight).promises.reactions seed =
          [.finish first work]) ∧
      ∀ link ∈ Function.update links scan.key (links scan.key ++ [(scan, s.promises.next)]) key,
        seed < link.2 := by
    intro seed key hr
    obtain ⟨first, work, others, hlinks, hreact⟩ := hr.first
    by_cases hkey : key = scan.key
    · subst hkey
      have hseed : seed ≠ inFlight := Nat.ne_of_lt (hr.before _ hlast)
      rw [Function.update_self, hreactions seed hr.made hseed]
      refine ⟨⟨first, work, others ++ [(scan, s.promises.next)], by rw [hlinks]; rfl, hreact⟩, ?_⟩
      intro link hlink
      rcases List.mem_append.mp hlink with hold | hnew
      · exact hr.before link hold
      · rw [List.mem_singleton.mp hnew]
        exact hr.made
    · have hseed : seed ≠ inFlight := by
        rintro rfl
        exact hkey (hr.owned.symm.trans (h.owned scan.key _ hlast))
      rw [Function.update_of_ne hkey, hreactions seed hr.made hseed]
      exact ⟨⟨first, work, others, hlinks, hreact⟩, hr.before⟩
  constructor
  case scans =>
    refine forall_chain (Q := fun key chain => ∀ link ∈ chain, link.1.key = key)
      (fun link hlink => ?_) fun other _ => h.scans other
    rcases List.mem_append.mp hlink with hold | hnew
    · exact h.scans scan.key link hold
    · rw [List.mem_singleton.mp hnew]
  case owned =>
    have hothers : ∀ other, ∀ link ∈ links other,
        Function.update owner s.promises.next scan.key link.2 = other := by
      intro other link hlink
      rw [howner link.2 (h.made other link hlink)]
      exact h.owned other link hlink
    refine forall_chain (Q := fun key chain => ∀ link ∈ chain,
        Function.update owner s.promises.next scan.key link.2 = key)
      (fun link hlink => ?_) fun other _ => hothers other
    rcases List.mem_append.mp hlink with hold | hnew
    · exact hothers scan.key link hold
    · rw [List.mem_singleton.mp hnew]
      exact Function.update_self _ _ _
  case made =>
    rw [hp]
    refine forall_chain (Q := fun _ chain => ∀ link ∈ chain, link.2 < s.promises.next + 1)
      (fun link hlink => ?_) fun other _ link hlink => Nat.lt_succ_of_lt (h.made other link hlink)
    rcases List.mem_append.mp hlink with hold | hnew
    · exact Nat.lt_succ_of_lt (h.made scan.key link hold)
    · rw [List.mem_singleton.mp hnew]
      exact Nat.lt_succ_self _
  case pending =>
    rw [hp]
    refine forall_chain (Q := fun _ chain => ∀ link ∈ chain, s.promises.settled link.2 = false)
      (fun link hlink => ?_) fun other _ => h.pending other
    rcases List.mem_append.mp hlink with hold | hnew
    · exact h.pending scan.key link hold
    · rw [List.mem_singleton.mp hnew]
      exact hfresh.1
  case increasing =>
    refine forall_chain (Q := fun _ chain => (chain.map Prod.snd).Pairwise (· < ·)) ?_
      fun other _ => h.increasing other
    rw [List.map_append, List.pairwise_append]
    refine ⟨h.increasing scan.key, by simp, fun work hwork next hnext => ?_⟩
    obtain ⟨link, hlink, rfl⟩ := List.mem_map.mp hwork
    have hnew : next = s.promises.next := by simpa using hnext
    rw [hnew]
    exact h.made scan.key link hlink
  case trail =>
    refine forall_chain ?_ fun other hother => ?_
    · rw [hsplit]
      have htrail := h.trail scan.key
      rw [hsplit] at htrail
      refine trail_append (fun link hlink => ?_) ?_ ?_ htrail
      · have hlt := hfront link hlink
        exact hreactions link.2 (Nat.lt_trans hlt hmade) (Nat.ne_of_lt hlt)
      · rw [hp]
        dsimp only
        rw [Function.update_of_ne (Nat.ne_of_lt hmade), Function.update_self]
      · rw [hp]
        exact Function.update_self _ _ _
    · refine trail_congr (fun link hlink => ?_) (h.trail other)
      refine hreactions link.2 (h.made other link hlink) ?_
      rintro heq
      have howned := h.owned other link hlink
      rw [heq, h.owned scan.key _ hlast] at howned
      exact hother howned.symm
  case fresh =>
    intro p hle
    rw [hp] at hle ⊢
    have hle' : s.promises.next + 1 ≤ p := hle
    have hne : p ≠ s.promises.next := Nat.ne_of_gt hle'
    have hne' : p ≠ inFlight := Nat.ne_of_gt (Nat.lt_trans hmade hle')
    dsimp only
    rw [Function.update_of_ne hne, Function.update_of_ne hne']
    exact h.fresh p (Nat.le_of_lt hle')
  case reads =>
    intro read hread
    have hr := h.reads read hread
    obtain ⟨hfirst, hbefore⟩ := hstarts hr
    refine ⟨?_, ?_, ?_, hbefore, hfirst⟩
    · rw [hp]
      exact Nat.lt_succ_of_lt hr.made
    · rw [hp]
      exact hr.pending
    · rw [howner _ hr.made]
      exact hr.owned
  case single => exact h.single
  case waiting =>
    refine forall_chain (Q := fun key chain => chain ≠ [] →
        key ∈ (readKeys s.reads).map Prod.snd ∨ none = some key)
      (fun _ => ?_) fun other _ => h.waiting other
    exact h.waiting scan.key (List.ne_nil_of_mem hlast)
  case apart => exact h.apart
  case turn =>
    refine .ended ?_ ?_
    · rw [hp]
      exact hjobs.1
    · intro key
      by_cases hkey : key = scan.key
      · subst hkey
        rw [Function.update_self, tailOf_append]
        exact Function.update_self _ _ _
      · rw [Function.update_of_ne hkey, ← hjobs.2 key]
        exact Function.update_of_ne hkey _ _
  case order =>
    intro key
    have horder := h.order key
    have hscans : scansOf s.immediates = [scan] ++ scansOf rest := by
      rw [himmediates]
      rfl
    rw [hscans, ofKey_append] at horder
    refine horder.trans ?_
    by_cases hkey : key = scan.key
    · subst hkey
      rw [Function.update_self, ofKey_self, List.map_append, List.map_singleton]
      simp only [List.append_assoc]
      rfl
    · rw [Function.update_of_ne hkey, ofKey_of_ne hkey]
      rfl

/-- A queued scan that begins a chain behind a read. -/
theorem linked_seed {scan : ScheduledScan D} {rest : List (Immediate D)}
    (h : Linked s owner links none) (himmediates : s.immediates = .run scan :: rest)
    (hempty : links scan.key = []) :
    Linked (seedScan { s with immediates := rest } scan)
      (Function.update (Function.update owner s.promises.next scan.key) (s.promises.next + 1)
        scan.key)
      (Function.update links scan.key [(scan, s.promises.next + 1)]) none := by
  have hp := seedScan_promises (s := { s with immediates := rest }) scan h.fresh
  have hreads : readKeys (seedScan { s with immediates := rest } scan).reads =
      readKeys s.reads ++ [(s.promises.next, scan.key)] := List.map_append
  have howner : ∀ p < s.promises.next, Function.update (Function.update owner s.promises.next
      scan.key) (s.promises.next + 1) scan.key p = owner p := by
    intro p hlt
    rw [Function.update_of_ne (Nat.ne_of_lt (Nat.lt_succ_of_lt hlt)),
      Function.update_of_ne (Nat.ne_of_lt hlt)]
  have hreactions : ∀ p < s.promises.next,
      (seedScan { s with immediates := rest } scan).promises.reactions p =
        s.promises.reactions p := by
    intro p hlt
    rw [hp]
    dsimp only
    rw [Function.update_of_ne (Nat.ne_of_lt (Nat.lt_succ_of_lt hlt)),
      Function.update_of_ne (Nat.ne_of_lt hlt)]
  have hjobs : s.promises.jobs = [] ∧ ∀ key, s.seeding key = tailOf (links key) := by
    cases h.turn with
    | ended hjobs htails => exact ⟨hjobs, htails⟩
  have hapart : ∀ read ∈ readKeys s.reads, read.2 ≠ scan.key := by
    intro read hread heq
    obtain ⟨first, work, others, hlinks, -⟩ := (h.reads read hread).first
    rw [heq, hempty] at hlinks
    cases hlinks
  constructor
  case scans =>
    refine forall_chain (Q := fun key chain => ∀ link ∈ chain, link.1.key = key)
      (fun link hlink => ?_) fun other _ => h.scans other
    rw [List.mem_singleton.mp hlink]
  case owned =>
    refine forall_chain (Q := fun key chain => ∀ link ∈ chain, Function.update
        (Function.update owner s.promises.next scan.key) (s.promises.next + 1) scan.key link.2 = key)
      (fun link hlink => ?_) fun other _ link hlink => ?_
    · rw [List.mem_singleton.mp hlink]
      exact Function.update_self _ _ _
    · rw [howner link.2 (h.made other link hlink)]
      exact h.owned other link hlink
  case made =>
    rw [hp]
    refine forall_chain (Q := fun _ chain => ∀ link ∈ chain, link.2 < s.promises.next + 1 + 1)
      (fun link hlink => ?_) fun other _ link hlink =>
        Nat.lt_succ_of_lt (Nat.lt_succ_of_lt (h.made other link hlink))
    rw [List.mem_singleton.mp hlink]
    exact Nat.lt_succ_self _
  case pending =>
    rw [hp]
    refine forall_chain (Q := fun _ chain => ∀ link ∈ chain, s.promises.settled link.2 = false)
      (fun link hlink => ?_) fun other _ => h.pending other
    rw [List.mem_singleton.mp hlink]
    exact (h.fresh _ (Nat.le_succ _)).1
  case increasing =>
    exact forall_chain (Q := fun _ chain => (chain.map Prod.snd).Pairwise (· < ·))
      (List.pairwise_singleton _ _) fun other _ => h.increasing other
  case trail =>
    refine forall_chain ⟨?_, trivial⟩ fun other _ => ?_
    · rw [hp]
      exact Function.update_self _ _ _
    · exact trail_congr (fun link hlink => hreactions link.2 (h.made other link hlink))
        (h.trail other)
  case fresh =>
    intro p hle
    rw [hp] at hle ⊢
    have hle' : s.promises.next + 1 + 1 ≤ p := hle
    have hlt : s.promises.next + 1 < p := hle'
    dsimp only
    rw [Function.update_of_ne (Nat.ne_of_gt hlt),
      Function.update_of_ne (Nat.ne_of_gt (Nat.lt_of_succ_lt hlt))]
    exact h.fresh p (Nat.le_of_lt (Nat.lt_of_succ_lt hlt))
  case reads =>
    intro read hread
    rw [hreads] at hread
    rcases List.mem_append.mp hread with hold | hnew
    · have hr := h.reads read hold
      have hkey := hapart read hold
      refine ⟨?_, ?_, ?_, ?_, ?_⟩
      · rw [hp]
        exact Nat.lt_succ_of_lt (Nat.lt_succ_of_lt hr.made)
      · rw [hp]
        exact hr.pending
      · rw [howner _ hr.made]
        exact hr.owned
      · rw [Function.update_of_ne hkey]
        exact hr.before
      · rw [Function.update_of_ne hkey, hreactions _ hr.made]
        exact hr.first
    · rw [List.mem_singleton.mp hnew]
      refine ⟨?_, ?_, ?_, ?_, ?_⟩
      · rw [hp]
        exact Nat.lt_succ_of_lt (Nat.lt_succ_self _)
      · rw [hp]
        exact (h.fresh _ (Nat.le_refl _)).1
      · rw [Function.update_of_ne (Nat.ne_of_lt (Nat.lt_succ_self _)), Function.update_self]
      · rw [Function.update_self]
        intro link hlink
        rw [List.mem_singleton.mp hlink]
        exact Nat.lt_succ_self _
      · rw [Function.update_self, hp]
        refine ⟨scan, s.promises.next + 1, [], rfl, ?_⟩
        dsimp only
        rw [Function.update_of_ne (Nat.ne_of_lt (Nat.lt_succ_self _)), Function.update_self]
  case single =>
    rw [hreads, List.map_append]
    refine List.nodup_append.mpr ⟨h.single, List.nodup_singleton _, ?_⟩
    intro key hkey other hother heq
    obtain ⟨read, hread, rfl⟩ := List.mem_map.mp hkey
    exact hapart read hread (heq.trans (List.mem_singleton.mp hother))
  case waiting =>
    refine forall_chain (Q := fun key chain => chain ≠ [] →
        key ∈ (readKeys (seedScan { s with immediates := rest } scan).reads).map Prod.snd ∨
          none = some key) (fun _ => .inl ?_) fun other _ hne => ?_
    · rw [hreads, List.map_append]
      exact List.mem_append_right _ List.mem_cons_self
    · rw [hreads, List.map_append]
      exact (h.waiting other hne).imp_left (List.mem_append_left _)
  case apart => exact fun key _ hsome => nomatch hsome
  case turn =>
    refine .ended ?_ ?_
    · rw [hp]
      exact hjobs.1
    · intro key
      by_cases hkey : key = scan.key
      · subst hkey
        rw [Function.update_self]
        exact Function.update_self _ _ _
      · rw [Function.update_of_ne hkey, ← hjobs.2 key]
        exact Function.update_of_ne hkey _ _
  case order =>
    intro key
    have horder := h.order key
    have hscans : scansOf s.immediates = [scan] ++ scansOf rest := by
      rw [himmediates]
      rfl
    rw [hscans, ofKey_append] at horder
    refine horder.trans ?_
    by_cases hkey : key = scan.key
    · subst hkey
      rw [Function.update_self, ofKey_self, hempty]
      simp only [List.append_assoc]
      rfl
    · rw [Function.update_of_ne hkey, ofKey_of_ne hkey]
      rfl

/-! ## What a turn changes -/

/-- The read of a chain has ended: its first scan is about to run. -/
theorem linked_settleRead {read : SeedRead D} (h : Linked s owner links none)
    (hread : read ∈ s.reads) :
    Linked (settleRead s read.seed) owner links (some read.target.key) := by
  have hin : (read.seed, read.target.key) ∈ readKeys s.reads := List.mem_map_of_mem hread
  have hr := h.reads _ hin
  obtain ⟨scan, work, rest, hlinks, hreaction⟩ := hr.first
  have hleft : readKeys (settleRead s read.seed).reads =
      (readKeys s.reads).filter fun entry => entry.1 ≠ read.seed := by
    rw [readKeys, readKeys, List.filter_map]
    rfl
  have hreactions : ∀ p, p ≠ read.seed →
      (settleRead s read.seed).promises.reactions p = s.promises.reactions p :=
    fun p hne => settle_reactions_of_ne s.promises hne
  have hsettled : ∀ p, p ≠ read.seed →
      (settleRead s read.seed).promises.settled p = s.promises.settled p :=
    fun p hne => settle_settled_of_ne s.promises hne
  have hlink : ∀ key, ∀ link ∈ links key, link.2 ≠ read.seed := by
    intro key link hmem heq
    have howned := h.owned key link hmem
    rw [heq, hr.owned] at howned
    have hbefore := hr.before link (by rw [howned]; exact hmem)
    exact Nat.ne_of_lt hbefore heq.symm
  have hother : ∀ entry ∈ readKeys (settleRead s read.seed).reads,
      entry ∈ readKeys s.reads ∧ entry.1 ≠ read.seed ∧ entry.2 ≠ read.target.key := by
    intro entry hentry
    rw [hleft, List.mem_filter] at hentry
    have hne : entry.1 ≠ read.seed := of_decide_eq_true hentry.2
    refine ⟨hentry.1, hne, fun heq => ?_⟩
    have hsame := List.inj_on_of_nodup_map h.single hentry.1 hin heq
    exact hne (congrArg Prod.fst hsame)
  have hjobs : s.promises.jobs = [] ∧ ∀ key, s.seeding key = tailOf (links key) := by
    cases h.turn with
    | ended hjobs htails => exact ⟨hjobs, htails⟩
  constructor
  case scans => exact h.scans
  case owned => exact h.owned
  case made => exact h.made
  case pending =>
    intro key link hmem
    rw [hsettled _ (hlink key link hmem)]
    exact h.pending key link hmem
  case increasing => exact h.increasing
  case trail =>
    exact fun key => trail_congr (fun link hmem => hreactions _ (hlink key link hmem)) (h.trail key)
  case fresh =>
    intro p hle
    have hne : p ≠ read.seed := Nat.ne_of_gt (Nat.lt_of_lt_of_le hr.made hle)
    rw [hsettled p hne, hreactions p hne]
    exact h.fresh p hle
  case reads =>
    intro entry hentry
    obtain ⟨hold, hne, -⟩ := hother entry hentry
    have he := h.reads entry hold
    refine ⟨he.made, ?_, he.owned, he.before, ?_⟩
    · rw [hsettled _ hne]
      exact he.pending
    · rw [hreactions _ hne]
      exact he.first
  case single =>
    rw [hleft]
    exact h.single.sublist (List.filter_sublist.map _)
  case waiting =>
    intro key hne
    by_cases hkey : key = read.target.key
    · exact .inr (by rw [hkey])
    · obtain hreading | hfiring := h.waiting key hne
      · obtain ⟨entry, hentry, rfl⟩ := List.mem_map.mp hreading
        have hseed : entry.1 ≠ read.seed := by
          intro heq
          have howned := (h.reads entry hentry).owned
          rw [heq, hr.owned] at howned
          exact hkey howned.symm
        rw [hleft]
        exact .inl (List.mem_map_of_mem (List.mem_filter.mpr ⟨hentry, decide_eq_true hseed⟩))
      · cases hfiring
  case apart =>
    intro key hkey hsome
    obtain ⟨entry, hentry, rfl⟩ := List.mem_map.mp hkey
    exact (hother entry hentry).2.2 (Option.some.inj hsome).symm
  case turn =>
    refine .finish hlinks ?_ hjobs.2
    have hnew : (settleRead s read.seed).promises.jobs =
        s.promises.jobs ++ s.promises.reactions read.seed := rfl
    rw [hnew, hjobs.1, hreaction]
    rfl
  case order => exact h.order

/-- The state after the first scan of a chain has run, but for the memory and the rows. -/
def finished (s : ScanState D) (scan : ScheduledScan D) (work : ℕ) : ScanState D :=
  { s with
    promises := s.promises.take.settle work
    pendingScans := s.pendingScans - 1
    ran := s.ran ++ [scan] }

/-- The microtask of a scan. -/
theorem alike_finish (scanner : DrawScanner D) (s : ScanState D) (scan : ScheduledScan D)
    (work : ℕ) : Alike (finished s scan work)
      (runReaction scanner { s with promises := s.promises.take } (.finish scan work)) := by
  have hscan := alike_scanDraw scanner { s with
    promises := s.promises.take
    pendingScans := s.pendingScans - 1
    ran := s.ran ++ [scan] } scan
  exact ⟨congrArg (Promises.settle · work) hscan.promises, hscan.seeding, hscan.reads,
    hscan.immediates, hscan.accepted, hscan.ran, hscan.pendingScans⟩

/-- The first scan of a chain runs and its promise settles. -/
theorem linked_finish {key : String} {scan : ScheduledScan D} {work : ℕ} {rest : List (Link D)}
    (h : Linked s owner links (some key)) (hlinks : links key = (scan, work) :: rest)
    (hjobs : s.promises.jobs = [.finish scan work])
    (htails : ∀ key, s.seeding key = tailOf (links key)) :
    Linked (finished s scan work) owner (Function.update links key rest) (some key) := by
  have hfirst : (scan, work) ∈ links key := by simp [hlinks]
  have hmem : ∀ link ∈ rest, link ∈ links key := by
    intro link hlink
    rw [hlinks]
    exact List.mem_cons_of_mem _ hlink
  have hincreasing := h.increasing key
  rw [hlinks, List.map_cons, List.pairwise_cons] at hincreasing
  have hlater : ∀ link ∈ rest, work < link.2 :=
    fun link hlink => hincreasing.1 link.2 (List.mem_map_of_mem hlink)
  have htrail := h.trail key
  rw [hlinks, Trail] at htrail
  have hreactions : ∀ p, p ≠ work →
      (finished s scan work).promises.reactions p = s.promises.reactions p :=
    fun p hne => settle_reactions_of_ne s.promises.take hne
  have hsettled : ∀ p, p ≠ work →
      (finished s scan work).promises.settled p = s.promises.settled p :=
    fun p hne => settle_settled_of_ne s.promises.take hne
  have hforeign : ∀ p, owner p ≠ key → p ≠ work := by
    rintro p hne rfl
    exact hne (h.owned key _ hfirst)
  have hother : ∀ other, other ≠ key → ∀ link ∈ links other, link.2 ≠ work := by
    intro other hne link hlink
    refine hforeign link.2 ?_
    rw [h.owned other link hlink]
    exact hne
  have hreading : ∀ entry ∈ readKeys s.reads, entry.2 ≠ key := by
    rintro entry hentry rfl
    exact h.apart entry.2 (List.mem_map_of_mem hentry) rfl
  constructor
  case scans =>
    exact forall_chain (Q := fun key chain => ∀ link ∈ chain, link.1.key = key)
      (fun link hlink => h.scans key link (hmem link hlink)) fun other _ => h.scans other
  case owned =>
    exact forall_chain (Q := fun key chain => ∀ link ∈ chain, owner link.2 = key)
      (fun link hlink => h.owned key link (hmem link hlink)) fun other _ => h.owned other
  case made =>
    exact forall_chain (Q := fun _ chain => ∀ link ∈ chain, link.2 < s.promises.next)
      (fun link hlink => h.made key link (hmem link hlink)) fun other _ => h.made other
  case pending =>
    refine forall_chain (Q := fun _ chain => ∀ link ∈ chain,
        (finished s scan work).promises.settled link.2 = false)
      (fun link hlink => ?_) fun other hne link hlink => ?_
    · rw [hsettled _ (Nat.ne_of_gt (hlater link hlink))]
      exact h.pending key link (hmem link hlink)
    · rw [hsettled _ (hother other hne link hlink)]
      exact h.pending other link hlink
  case increasing =>
    exact forall_chain (Q := fun _ chain => (chain.map Prod.snd).Pairwise (· < ·))
      hincreasing.2 fun other _ => h.increasing other
  case trail =>
    refine forall_chain ?_ fun other hne => ?_
    · exact trail_congr (fun link hlink => hreactions _ (Nat.ne_of_gt (hlater link hlink)))
        htrail.2
    · exact trail_congr (fun link hlink => hreactions _ (hother other hne link hlink))
        (h.trail other)
  case fresh =>
    intro p hle
    have hne : p ≠ work := Nat.ne_of_gt (Nat.lt_of_lt_of_le (h.made key _ hfirst) hle)
    rw [hsettled p hne, hreactions p hne]
    exact h.fresh p hle
  case reads =>
    intro entry hentry
    have he := h.reads entry hentry
    have hkey := hreading entry hentry
    have hne : entry.1 ≠ work := hforeign entry.1 (by rw [he.owned]; exact hkey)
    refine ⟨he.made, ?_, he.owned, ?_, ?_⟩
    · rw [hsettled _ hne]
      exact he.pending
    · rw [Function.update_of_ne hkey]
      exact he.before
    · rw [Function.update_of_ne hkey, hreactions _ hne]
      exact he.first
  case single => exact h.single
  case waiting =>
    exact forall_chain (Q := fun other chain => chain ≠ [] →
        other ∈ (readKeys s.reads).map Prod.snd ∨ some key = some other)
      (fun _ => .inr rfl) fun other _ => h.waiting other
  case apart => exact h.apart
  case turn =>
    have hnew : (finished s scan work).promises.jobs =
        s.promises.jobs.tail ++ s.promises.reactions work := rfl
    rw [hjobs, htrail.1, List.tail_cons, List.nil_append] at hnew
    have hseeding : s.seeding key = tailOf ((scan, work) :: rest) := by rw [htails, hlinks]
    have hothers : ∀ other, other ≠ key →
        s.seeding other = tailOf (Function.update links key rest other) := by
      intro other hne
      rw [Function.update_of_ne hne]
      exact htails other
    cases rest with
    | nil => exact .last (Function.update_self _ _ _) hnew hseeding hothers
    | cons next others =>
      refine .drop (Function.update_self _ _ _) hnew (hlater next List.mem_cons_self)
        fun other => ?_
      by_cases hkey : other = key
      · subst hkey
        rw [Function.update_self]
        exact hseeding
      · exact hothers other hkey
  case order =>
    intro other
    have horder := h.order other
    have hran : (finished s scan work).ran = s.ran ++ [scan] := rfl
    rw [hran, ofKey_append]
    refine horder.trans ?_
    by_cases hkey : other = key
    · subst hkey
      have hscan : scan.key = other := h.scans other _ hfirst
      have hone : ofKey other [scan] = [scan] := by
        rw [← hscan]
        exact ofKey_self scan
      rw [Function.update_self, hone, hlinks]
      simp only [List.map_cons, List.append_assoc]
      rfl
    · have hscan : other ≠ scan.key := by
        rw [h.scans key _ hfirst]
        exact hkey
      rw [Function.update_of_ne hkey, ofKey_of_ne hscan, List.append_nil]
      rfl

/-- A microtask that leaves the chains as they are. -/
theorem Linked.turned {t : ScanState D} {after : Option String} (h : Linked s owner links firing)
    (hpromises : t.promises = s.promises.take) (hreads : t.reads = s.reads)
    (himmediates : t.immediates = s.immediates) (haccepted : t.accepted = s.accepted)
    (hran : t.ran = s.ran)
    (hwaiting : ∀ key, links key ≠ [] → firing = some key → after = some key)
    (hapart : ∀ key, after = some key → firing = some key) (hturn : Turn t links after) :
    Linked t owner links after := by
  have hfields : t.promises.next = s.promises.next ∧ t.promises.settled = s.promises.settled ∧
      t.promises.reactions = s.promises.reactions := by
    rw [hpromises]
    exact ⟨rfl, rfl, rfl⟩
  obtain ⟨hnext, hsettled, hreactions⟩ := hfields
  refine ⟨h.scans, h.owned, hnext ▸ h.made, hsettled ▸ h.pending, h.increasing, fun key => ?_, ?_,
    ?_, hreads ▸ h.single, ?_, ?_, hturn, ?_⟩
  · exact trail_congr (fun link _ => by rw [hreactions]) (h.trail key)
  · rw [hnext, hsettled, hreactions]
    exact h.fresh
  · rw [hreads]
    intro entry hentry
    have he := h.reads entry hentry
    exact ⟨hnext ▸ he.made, hsettled ▸ he.pending, he.owned, he.before, hreactions ▸ he.first⟩
  · rw [hreads]
    exact fun key hne => (h.waiting key hne).imp_right (hwaiting key hne)
  · rw [hreads]
    exact fun key hkey hafter => h.apart key hkey (hapart key hafter)
  · rw [haccepted, hran, himmediates]
    exact h.order

/-- A turn that has no microtasks left moves no chain. -/
theorem Linked.idle (h : Linked s owner links firing) (hjobs : s.promises.jobs = []) :
    firing = none ∧ ∀ key, s.seeding key = tailOf (links key) := by
  cases h.turn with
  | ended _ htails => exact ⟨rfl, htails⟩
  | finish _ hnext _ => rw [hjobs] at hnext; cases hnext
  | drop _ hnext _ _ => rw [hjobs] at hnext; cases hnext
  | last _ hnext _ _ => rw [hjobs] at hnext; cases hnext

/-- A read that is found has its promise. -/
theorem find_read {reads : List (SeedRead D)} {seed : ℕ} {read : SeedRead D}
    (h : (reads.find? fun read => read.seed = seed) = some read) :
    read ∈ reads ∧ read.seed = seed := by
  have hseed := List.find?_some h
  exact ⟨List.mem_of_find?_eq_some h, of_decide_eq_true hseed⟩

/-- One draw of a batch. -/
theorem linked_scheduleScan (h : Linked s owner links firing) (scan : ScheduledScan D) :
    Linked (scheduleScan s scan) owner links firing := by
  rw [scheduleScan]
  split
  · exact h
  · refine h.kept rfl rfl rfl fun key => ?_
    have hscans : scansOf (s.immediates ++ [.run scan]) = scansOf s.immediates ++ [scan] :=
      List.filterMap_append
    rw [hscans, ofKey_append, ofKey_append, h.order key, List.append_assoc]

/-- A queued scan has its turn. -/
theorem linked_runScan (scanner : DrawScanner D) {scan : ScheduledScan D} {rest : List (Immediate D)}
    (h : Linked s owner links none) (himmediates : s.immediates = .run scan :: rest)
    (hjobs : s.promises.jobs = []) :
    ∃ owner links, Linked (runScan scanner { s with immediates := rest } scan) owner links none := by
  have htail := (h.idle hjobs).2 scan.key
  rw [runScan]
  dsimp only
  cases hseeding : s.seeding scan.key with
  | some inFlight =>
    rw [hseeding] at htail
    exact ⟨_, _, linked_chain h himmediates htail.symm⟩
  | none =>
    rw [hseeding] at htail
    have hempty := tailOf_eq_none.mp htail.symm
    dsimp only
    split
    · exact ⟨_, _, linked_seed h himmediates hempty⟩
    · exact ⟨_, _, linked_run h himmediates hempty⟩

/-- The first microtask runs. -/
theorem linked_job (scanner : DrawScanner D) {first : Reaction D} {rest : List (Reaction D)}
    (h : Linked s owner links firing) (hfirst : s.promises.jobs = first :: rest) :
    ∃ links firing, Linked (runReaction scanner { s with promises := s.promises.take } first) owner
      links firing := by
  have hjobs : ∀ {jobs}, s.promises.jobs = jobs →
      ({ s with promises := s.promises.take } : ScanState D).promises.jobs = jobs.tail := by
    rintro _ rfl
    rfl
  cases h.turn with
  | ended hnone _ =>
    rw [hfirst] at hnone
    cases hnone
  | finish hlinks hnext htails =>
    have hsame := hnext
    rw [hfirst] at hsame
    cases hsame
    exact ⟨_, _, (linked_finish h hlinks hnext htails).alike (alike_finish scanner s _ _)⟩
  | @drop key old scan work others hlinks hnext hold htails =>
    have hsame := hnext
    rw [hfirst] at hsame
    cases hsame
    have hne : s.seeding key ≠ some old := by
      intro heq
      rw [htails, hlinks] at heq
      have hincreasing := h.increasing key
      rw [hlinks] at hincreasing
      exact Nat.not_le_of_lt hold (le_tailOf hincreasing heq)
    refine ⟨links, some key, ?_⟩
    rw [runReaction, if_neg hne]
    exact h.turned rfl rfl rfl rfl rfl (fun _ _ hfiring => hfiring) (fun _ hafter => hafter)
      (.finish hlinks (hjobs hnext) htails)
  | @last key work hlinks hnext hseeding htails =>
    have hsame := hnext
    rw [hfirst] at hsame
    cases hsame
    refine ⟨links, none, ?_⟩
    rw [runReaction, if_pos hseeding]
    refine h.turned rfl rfl rfl rfl rfl (fun other hne hfiring => ?_) (fun _ hnone => nomatch hnone)
      (.ended (hjobs hnext) fun other => ?_)
    · rw [← Option.some.inj hfiring, hlinks] at hne
      exact absurd rfl hne
    · by_cases hkey : other = key
      · subst hkey
        rw [hlinks]
        exact Function.update_self _ _ _
      · rw [← htails other hkey]
        exact Function.update_of_ne hkey _ _

/-- The chains are those of some scans that wait. -/
def Chained (s : ScanState D) : Prop := ∃ owner links firing, Linked s owner links firing

/-- Nothing waits in a process that starts. -/
theorem chained_start (table : List DrawIntegrityFindingRow) (now : ℕ)
    (completed : List (DrawScanTarget D)) :
    Chained ({ table := table, now := now, completed := completed } : ScanState D) := by
  refine ⟨fun _ => "", fun _ => [], none, ?_⟩
  constructor
  case scans => exact fun _ _ hlink => nomatch hlink
  case owned => exact fun _ _ hlink => nomatch hlink
  case made => exact fun _ _ hlink => nomatch hlink
  case pending => exact fun _ _ hlink => nomatch hlink
  case increasing => exact fun _ => List.Pairwise.nil
  case trail => exact fun _ => trivial
  case fresh => exact fun _ _ => ⟨rfl, rfl⟩
  case reads => exact fun _ hread => nomatch hread
  case single => exact List.nodup_nil
  case waiting => exact fun _ hne => absurd rfl hne
  case apart => exact fun _ hkey => nomatch hkey
  case turn => exact .ended rfl fun _ => rfl
  case order => exact fun _ => rfl

/-- The reads that move on are the same reads. -/
theorem readKeys_moveRead (s : ScanState D) (seed : ℕ) (move : SeedRead D → ReadStage) :
    readKeys (moveRead s seed move).reads = readKeys s.reads := by
  rw [moveRead, readKeys, List.map_map]
  refine List.map_congr_left fun read _ => ?_
  by_cases hseed : read.seed = seed
  · simp [hseed]
  · simp [hseed]

/-- A move of a read leaves the chains as they are. -/
theorem alike_moveRead (s : ScanState D) (seed : ℕ) (move : SeedRead D → ReadStage) :
    Alike s (moveRead s seed move) :=
  ⟨rfl, rfl, readKeys_moveRead s seed move, rfl, rfl, rfl, rfl⟩

/-- So does a batch that is put back. -/
theorem alike_requeue (s : ScanState D) : Alike s (requeue s) := by
  refine ⟨rfl, rfl, ?_, rfl, rfl, rfl, rfl⟩
  rw [requeue, readKeys, List.map_map]
  refine List.map_congr_left fun read _ => ?_
  cases hstage : read.stage <;> simp [hstage]

/-- The end of a read, when the memory has been seeded or not. -/
theorem chained_settleRead (h : Chained s) (hjobs : s.promises.jobs = []) {read : SeedRead D}
    {seed : ℕ} (hfound : (s.reads.find? fun read => read.seed = seed) = some read)
    (memory : Memory) : Chained (settleRead { s with memory := memory } seed) := by
  obtain ⟨owner, links, firing, hlinked⟩ := h
  obtain ⟨hread, rfl⟩ := find_read hfound
  obtain ⟨rfl, -⟩ := hlinked.idle hjobs
  have hmemory : Linked { s with memory := memory } owner links none :=
    hlinked.alike ⟨rfl, rfl, rfl, rfl, rfl, rfl, rfl⟩
  exact ⟨owner, links, _, linked_settleRead hmemory hread⟩

/-- The chains after a step are those of the scans that wait then. -/
theorem chained_step (scanner : DrawScanner D) (h : Chained s) (a : ScanAction D) :
    Chained (step scanner s a) := by
  obtain ⟨owner, links, firing, hlinked⟩ := h
  cases a with
  | schedule batch findings =>
    have hbatch : ∀ (scans : List (ScheduledScan D)) (s : ScanState D),
        Linked s owner links firing → Linked (scans.foldl scheduleScan s) owner links firing := by
      intro scans
      induction scans with
      | nil => exact fun _ hs => hs
      | cons scan rest ih => exact fun s hs => ih _ (linked_scheduleScan hs scan)
    refine ⟨owner, links, firing, hbatch _ _ (hlinked.alike ⟨rfl, rfl, rfl, ?_, rfl, rfl, rfl⟩)⟩
    have hnone : scansOf (batch.deleted.map (Immediate.forget (D := D))) = [] := by
      simp [scansOf]
    rw [scansOf, List.filterMap_append]
    exact (congrArg (_ ++ ·) hnone).trans (List.append_nil _)
  | immediate =>
    rw [step]
    split
    next first rest hjobs himmediates =>
      obtain ⟨rfl, -⟩ := hlinked.idle hjobs
      cases first with
      | forget deleted =>
        refine ⟨owner, links, none, hlinked.alike ⟨rfl, rfl, rfl, ?_, rfl, rfl, rfl⟩⟩
        rw [himmediates]
        rfl
      | run scan =>
        obtain ⟨owner', links', hrun⟩ := linked_runScan scanner hlinked himmediates hjobs
        exact ⟨owner', links', none, hrun⟩
    next => exact ⟨owner, links, firing, hlinked⟩
  | job =>
    rw [step]
    split
    next => exact ⟨owner, links, firing, hlinked⟩
    next first rest hjobs =>
      obtain ⟨links', firing', hjob⟩ := linked_job scanner hlinked hjobs
      exact ⟨owner, links', firing', hjob⟩
  | drain =>
    rw [step]
    split
    · exact ⟨owner, links, firing, hlinked.alike ⟨rfl, rfl, rfl, rfl, rfl, rfl, rfl⟩⟩
    · exact ⟨owner, links, firing, hlinked⟩
  | appended => exact ⟨owner, links, firing, hlinked.alike ⟨rfl, rfl, rfl, rfl, rfl, rfl, rfl⟩⟩
  | appendFailed =>
    rw [step]
    split
    · exact ⟨owner, links, firing, hlinked⟩
    · exact ⟨owner, links, firing, hlinked.alike (alike_requeue s)⟩
  | flushed seed =>
    rw [step]
    split
    · exact ⟨owner, links, firing, hlinked.alike (alike_moveRead s seed _)⟩
    · exact ⟨owner, links, firing, hlinked⟩
  | query seed => exact ⟨owner, links, firing, hlinked.alike (alike_moveRead s seed _)⟩
  | deliver seed =>
    rw [step]
    split
    next target found hjobs hfound =>
      exact chained_settleRead ⟨owner, links, firing, hlinked⟩ hjobs hfound _
    next => exact ⟨owner, links, firing, hlinked⟩
  | failRead seed =>
    rw [step]
    split
    next read hjobs hfound =>
      exact chained_settleRead ⟨owner, links, firing, hlinked⟩ hjobs hfound s.memory
    next => exact ⟨owner, links, firing, hlinked⟩
  | tick => exact ⟨owner, links, firing, hlinked.alike ⟨rfl, rfl, rfl, rfl, rfl, rfl, rfl⟩⟩
  | restart => exact chained_start s.table s.now s.completed

end Steps

end FactoryServer.ScanChains
