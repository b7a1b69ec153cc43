import FactoryServer.DeferredRequests

/-!
# Which deferred requests are served

A request is served by repeated drains exactly when fewer exhausted ones than the limit
are ahead of it: then every drain serves it or another request ahead of it, and otherwise
the exhausted ones fill the limit for ever.
-/

namespace FactoryServer.RequestDrains

open DeferredRequests InsertionMaps ProjectionOutbox

variable {limit maxAttempts : ℕ} {row : RequestRow} {rows : List RequestRow}
  {around : Surroundings}

/-! ## What a drain examines -/

/-- The first `n` of a list hold as many as they can of those with a property when all of
them have it or none beyond them has. -/
theorem countP_take_eq_min {A : Type} (p : A → Prop) [DecidablePred p] (n : ℕ) (items : List A) :
    (items.take n).countP (fun item => p item) = min n (items.countP fun item => p item) ↔
      (∀ item ∈ items.take n, p item) ∨ ∀ item ∈ items.drop n, ¬ p item := by
  have hsplit : items.countP (fun item => p item) = (items.take n).countP (fun item => p item) +
      (items.drop n).countP fun item => p item := by
    rw [← List.countP_append, List.take_append_drop]
  have hlength : (items.take n).length = min n items.length := List.length_take
  have hbound : (items.take n).countP (fun item => p item) ≤ (items.take n).length :=
    List.countP_le_length
  have hall : (∀ item ∈ items.take n, p item) ↔
      (items.take n).countP (fun item => p item) = (items.take n).length := by
    rw [List.countP_eq_length]
    simp only [decide_eq_true_eq]
  have hnone : (∀ item ∈ items.drop n, ¬ p item) ↔
      (items.drop n).countP (fun item => p item) = 0 := by
    rw [List.countP_eq_zero]
    simp only [decide_eq_true_eq]
  have hrest : items.length ≤ n → (items.drop n).countP (fun item => p item) = 0 := by
    intro h
    rw [List.drop_eq_nil_of_le h]
    rfl
  rw [hall, hnone]
  omega

/-- Every examined request is counted. -/
theorem examined_loop (requests : List RequestRow) (progress : DrainResult × List RequestRow) :
    (requests.foldl (serveNext around) progress).1.examined =
      progress.1.examined + requests.length := by
  induction requests generalizing progress with
  | nil => rfl
  | cons request rest ih =>
    have hnext : (serveNext around progress request).1.examined = progress.1.examined + 1 := by
      unfold serveNext
      cases around.outcome request <;> rfl
    rw [List.foldl_cons, ih, hnext, List.length_cons]
    omega

/-- What a drain counts as examined. -/
theorem examined_drain (limit maxAttempts : ℕ) (rows : List RequestRow)
    (hbefore : around.before = []) :
    (drainRows limit maxAttempts rows around).1.examined =
      ((around.listing.list rows).take limit).countP fun row => Fresh maxAttempts row := by
  have hloop := @examined_loop around
    (examinedRequests around limit maxAttempts rows) (⟨0, 0, 0, 0, 0⟩, rows)
  unfold drainRows
  rw [hbefore, List.foldl_nil, hloop, List.countP_eq_length_filter]
  exact Nat.zero_add _

/-- A quiet drain in a given order: no save comes, and every span is committed. -/
def quiet (listing : Listing) : Surroundings := ⟨listing, [], fun _ => [], fun _ => .enqueued⟩

/-- A drain examines enough requests when no exhausted one takes the place of a fresh one. -/
theorem examinesEnough_iff (table : RequestTable) (limit maxAttempts : ℕ)
    (tables : RequestTables) : ExaminesEnough table limit maxAttempts tables ↔
      ∀ listing : Listing,
        (∀ row ∈ (listing.list (tables table)).take limit, Fresh maxAttempts row) ∨
          ∀ row ∈ (listing.list (tables table)).drop limit, ¬ Fresh maxAttempts row := by
  have hcount : ∀ listing : Listing,
      ((tables table).countP fun row => Fresh maxAttempts row) =
        (listing.list (tables table)).countP fun row => Fresh maxAttempts row :=
    fun listing => ((listing.perm (tables table)).countP_eq _).symm
  constructor
  · intro h listing
    have hexamined := h (quiet listing) rfl
    rw [hcount listing] at hexamined
    exact (countP_take_eq_min _ limit _).mp
      ((examined_drain limit maxAttempts (tables table) rfl).symm.trans hexamined)
  · intro h around hbefore
    rw [hcount around.listing]
    exact (examined_drain limit maxAttempts (tables table) hbefore).trans
      ((countP_take_eq_min _ limit _).mpr (h around.listing))

/-! ## Old requests only become fewer -/

section Old

variable {bound : ℕ} {p : RequestRow → Bool}

/-- A row that is asked for again, or for the first time, is a later one. -/
theorem filter_requestOne (hp : ∀ row, p row = true → row.requestedAt ≤ bound) {now : ℕ}
    (hlater : bound < now) (source : String) (rows : List RequestRow) (id : String) :
    ((requestOne source now rows id).filter p).Sublist (rows.filter p) := by
  have hnew : p ⟨id, now, some source, 0, none⟩ = false := by
    by_contra h
    have hold := hp ⟨id, now, some source, 0, none⟩ (by simpa using h)
    simp only at hold
    omega
  unfold requestOne
  split_ifs with hin
  · clear hin
    induction rows with
    | nil => exact List.Sublist.refl _
    | cons row rest ih =>
      rw [List.map_cons]
      by_cases hid : row.tournamentId = id
      · rw [if_pos hid, List.filter_cons_of_neg (by simp [hnew])]
        exact ih.trans ((List.sublist_cons_self row rest).filter p)
      · rw [if_neg hid, List.filter_cons, List.filter_cons]
        split_ifs
        · exact ih.cons_cons row
        · exact ih
  · rw [List.filter_append, List.filter_cons_of_neg (by simp [hnew]), List.filter_nil,
      List.append_nil]

theorem filter_request (hp : ∀ row, p row = true → row.requestedAt ≤ bound) {arrival : Arrival}
    (hlater : bound < arrival.now) (rows : List RequestRow) :
    ((request rows arrival).filter p).Sublist (rows.filter p) := by
  unfold request
  generalize (setOf arrival.tournamentIds).filter (fun id => id ≠ "") = ids
  induction ids generalizing rows with
  | nil => exact List.Sublist.refl _
  | cons id rest ih =>
    exact (ih (requestOne arrival.source arrival.now rows id)).trans
      (filter_requestOne hp hlater arrival.source rows id)

theorem filter_requests (hp : ∀ row, p row = true → row.requestedAt ≤ bound)
    (arrivals : List Arrival) (hlater : ∀ arrival ∈ arrivals, bound < arrival.now)
    (rows : List RequestRow) :
    ((arrivals.foldl request rows).filter p).Sublist (rows.filter p) := by
  induction arrivals generalizing rows with
  | nil => exact List.Sublist.refl _
  | cons arrival rest ih =>
    exact (ih (fun a ha => hlater a (List.mem_cons_of_mem _ ha)) (request rows arrival)).trans
      (filter_request hp (hlater arrival List.mem_cons_self) rows)

/-- A request that succeeds leaves its table. -/
theorem serveNext_rows (hsucceeds : Succeeds around) (progress : DrainResult × List RequestRow)
    (request : RequestRow) : (serveNext around progress request).2 =
      complete ((around.meanwhile request).foldl DeferredRequests.request progress.2) request := by
  unfold serveNext
  obtain h | h := hsucceeds request <;> rw [h]

/-- The loop of a drain leaves no more old rows than there were, and none it examined. -/
theorem filter_loop (hp : ∀ row, p row = true → row.requestedAt ≤ bound)
    (hsucceeds : Succeeds around)
    (hlater : ∀ other, ∀ arrival ∈ around.meanwhile other, bound < arrival.now)
    (requests : List RequestRow) (progress : DrainResult × List RequestRow) :
    ((requests.foldl (serveNext around) progress).2.filter p).Sublist (progress.2.filter p) ∧
      ∀ request ∈ requests, p request = true →
        request ∉ (requests.foldl (serveNext around) progress).2 := by
  induction requests generalizing progress with
  | nil => exact ⟨List.Sublist.refl _, fun _ hin => absurd hin List.not_mem_nil⟩
  | cons request rest ih =>
    obtain ⟨hsub, hserved⟩ := ih (serveNext around progress request)
    have hrows := serveNext_rows hsucceeds progress request
    have hnext : ((serveNext around progress request).2.filter p).Sublist
        (progress.2.filter p) := by
      rw [hrows]
      exact ((List.filter_sublist (p := _)).filter p).trans
        (filter_requests hp _ (hlater request) progress.2)
    refine ⟨hsub.trans hnext, fun other hin hold => ?_⟩
    obtain rfl | hin := List.mem_cons.mp hin
    · intro hleft
      have hthere := hsub.subset (List.mem_filter.mpr ⟨hleft, hold⟩)
      have hcomplete := (List.mem_filter.mp hthere).1
      rw [hrows] at hcomplete
      have hgone := (List.mem_filter.mp hcomplete).2
      simp [SameRequest] at hgone
    · exact hserved other hin hold

end Old

/-! ## Served -/

/-- A request that is not newer than another one and may still be tried. -/
def freshAhead (maxAttempts : ℕ) (row other : RequestRow) : Bool :=
  Fresh maxAttempts other ∧ other.requestedAt ≤ row.requestedAt

/-- A request that is not newer than another one and has failed too often. -/
def spentAhead (maxAttempts : ℕ) (row other : RequestRow) : Bool :=
  ¬ Fresh maxAttempts other ∧ other.requestedAt ≤ row.requestedAt

theorem old_freshAhead (maxAttempts : ℕ) (row : RequestRow) : ∀ other,
    freshAhead maxAttempts row other = true → other.requestedAt ≤ row.requestedAt :=
  fun _ h => (of_decide_eq_true h).2

theorem old_spentAhead (maxAttempts : ℕ) (row : RequestRow) : ∀ other,
    spentAhead maxAttempts row other = true → other.requestedAt ≤ row.requestedAt :=
  fun _ h => (of_decide_eq_true h).2

/-- A whole drain leaves no more old rows than there were. -/
theorem filter_drainRows {p : RequestRow → Bool}
    (hp : ∀ other, p other = true → other.requestedAt ≤ row.requestedAt)
    (hsucceeds : Succeeds around) (halone : LeavesAlone row around) (limit maxAttempts : ℕ)
    (rows : List RequestRow) :
    ((drainRows limit maxAttempts rows around).2.filter p).Sublist (rows.filter p) := by
  have hloop := filter_loop hp hsucceeds (fun other arrival hin => (halone.2 other arrival hin).2)
    (examinedRequests around limit maxAttempts (around.before.foldl request rows))
    (⟨0, 0, 0, 0, 0⟩, around.before.foldl request rows)
  exact hloop.1.trans (filter_requests hp around.before
    (fun arrival hin => (halone.1 arrival hin).2) rows)

/-- Beyond the limit, the rows within it are all ahead. -/
theorem ahead_of_take {listing : Listing} (hin : row ∈ rows)
    (hbeyond : row ∉ (listing.list rows).take limit) :
    ((listing.list rows).take limit).length = limit ∧
      ∀ other ∈ (listing.list rows).take limit, other.requestedAt ≤ row.requestedAt := by
  have hlisted : row ∈ (listing.list rows).take limit ++ (listing.list rows).drop limit := by
    rw [List.take_append_drop]
    exact (listing.perm rows).mem_iff.mpr hin
  have hdrop : row ∈ (listing.list rows).drop limit :=
    (List.mem_append.mp hlisted).resolve_left hbeyond
  have hsorted := listing.oldest rows
  rw [← List.take_append_drop limit (listing.list rows)] at hsorted
  refine ⟨?_, fun other hother => (List.pairwise_append.mp hsorted).2.2 other hother row hdrop⟩
  have hpos := List.length_pos_of_mem hdrop
  rw [List.length_drop] at hpos
  rw [List.length_take]
  omega

/-- A drain serves a request, or one that is ahead of it. -/
theorem served_or_fewer (hfresh : Fresh maxAttempts row) (hsucceeds : Succeeds around)
    (halone : LeavesAlone row around)
    (hahead : (rows.filter (spentAhead maxAttempts row)).length < limit)
    (hleft : row ∈ (drainRows limit maxAttempts rows around).2) :
    ((drainRows limit maxAttempts rows around).2.filter (freshAhead maxAttempts row)).length <
      (rows.filter (freshAhead maxAttempts row)).length := by
  let found := around.before.foldl request rows
  have hlater : ∀ other, ∀ arrival ∈ around.meanwhile other, row.requestedAt < arrival.now :=
    fun other arrival hin => (halone.2 other arrival hin).2
  have hsince : ∀ arrival ∈ around.before, row.requestedAt < arrival.now :=
    fun arrival hin => (halone.1 arrival hin).2
  obtain ⟨hsub, hserved⟩ := filter_loop (old_freshAhead maxAttempts row) hsucceeds hlater
    (examinedRequests around limit maxAttempts found) (⟨0, 0, 0, 0, 0⟩, found)
  have hrow : freshAhead maxAttempts row row = true := decide_eq_true ⟨hfresh, Nat.le_refl _⟩
  have hfound : row ∈ found :=
    (List.mem_filter.mp (hsub.subset (List.mem_filter.mpr ⟨hleft, hrow⟩))).1
  have hunserved : row ∉ examinedRequests around limit maxAttempts found :=
    fun hin => hserved row hin hrow hleft
  have hbeyond : row ∉ pending around.listing limit found := fun hin =>
    hunserved (List.mem_filter.mpr ⟨hin, decide_eq_true hfresh⟩)
  obtain ⟨hfull, hold⟩ := ahead_of_take hfound hbeyond
  -- the limit is not filled by exhausted requests alone
  have hspent : ((pending around.listing limit found).filter (spentAhead maxAttempts row)).length <
      limit := by
    have hlisted := ((List.take_sublist limit (around.listing.list found)).filter
      (spentAhead maxAttempts row)).length_le
    have hperm := ((around.listing.perm found).filter (spentAhead maxAttempts row)).length_eq
    have hfewer := (filter_requests (old_spentAhead maxAttempts row) around.before hsince
      rows).length_le
    exact Nat.lt_of_le_of_lt (hlisted.trans (hperm.trans_le hfewer)) hahead
  have hother : ∃ other ∈ pending around.listing limit found, Fresh maxAttempts other := by
    by_contra hnone
    have hall : (pending around.listing limit found).filter (spentAhead maxAttempts row) =
        pending around.listing limit found := List.filter_eq_self.mpr fun other hin =>
      decide_eq_true ⟨fun hf => hnone ⟨other, hin, hf⟩, hold other hin⟩
    have hlimit : (pending around.listing limit found).length = limit := hfull
    rw [hall, hlimit] at hspent
    exact Nat.lt_irrefl _ hspent
  obtain ⟨other, hin, hotherFresh⟩ := hother
  have hcounted : freshAhead maxAttempts row other = true :=
    decide_eq_true ⟨hotherFresh, hold other hin⟩
  have hthere : other ∈ found :=
    (around.listing.perm found).mem_iff.mp (List.mem_of_mem_take hin)
  have hgone := hserved other (List.mem_filter.mpr ⟨hin, decide_eq_true hotherFresh⟩) hcounted
  have hfewer := (filter_requests (old_freshAhead maxAttempts row) around.before hsince
    rows).length_le
  refine Nat.lt_of_lt_of_le (Nat.lt_of_le_of_ne hsub.length_le fun hsame => ?_) hfewer
  have hequal := hsub.eq_of_length hsame
  have hkept : other ∈ found.filter (freshAhead maxAttempts row) :=
    List.mem_filter.mpr ⟨hthere, hcounted⟩
  exact hgone (List.mem_filter.mp (hequal ▸ hkept)).1

/-- Repeated drains of one table act on its rows alone. -/
theorem drains_rows (table : RequestTable) (limit maxAttempts : ℕ) (tables : RequestTables)
    (arounds : List Surroundings) : drains table limit maxAttempts tables arounds table =
      arounds.foldl (fun rows around => (drainRows limit maxAttempts rows around).2)
        (tables table) := by
  induction arounds generalizing tables with
  | nil => rfl
  | cons around rest ih =>
    have hone : (drain table limit maxAttempts tables around).2 table =
        (drainRows limit maxAttempts (tables table) around).2 := Function.update_self _ _ _
    have hcons : drains table limit maxAttempts tables (around :: rest) =
        drains table limit maxAttempts (drain table limit maxAttempts tables around).2 rest := rfl
    rw [hcons, ih, hone, List.foldl_cons]

/-- As many drains as there are fresh requests ahead, itself among them, serve a request. -/
theorem served_within (hfresh : Fresh maxAttempts row) (arounds : List Surroundings)
    (hgood : ∀ around ∈ arounds, Succeeds around ∧ LeavesAlone row around)
    (hahead : (rows.filter (spentAhead maxAttempts row)).length < limit)
    (hmany : row ∈ rows →
      (rows.filter (freshAhead maxAttempts row)).length ≤ arounds.length) :
    row ∉ arounds.foldl (fun rows around => (drainRows limit maxAttempts rows around).2) rows := by
  have hrow : freshAhead maxAttempts row row = true := decide_eq_true ⟨hfresh, Nat.le_refl _⟩
  induction arounds generalizing rows with
  | nil =>
    intro hin
    have hnone := List.eq_nil_of_length_eq_zero (Nat.le_zero.mp (hmany hin))
    have hcounted : row ∈ rows.filter (freshAhead maxAttempts row) :=
      List.mem_filter.mpr ⟨hin, hrow⟩
    rw [hnone] at hcounted
    cases hcounted
  | cons around rest ih =>
    obtain ⟨hsucceeds, halone⟩ := hgood around List.mem_cons_self
    have hspent := (filter_drainRows (old_spentAhead maxAttempts row) hsucceeds halone limit
      maxAttempts rows).length_le
    have hkept := filter_drainRows (old_freshAhead maxAttempts row) hsucceeds halone limit
      maxAttempts rows
    refine ih (fun other hin => hgood other (List.mem_cons_of_mem _ hin))
      (Nat.lt_of_le_of_lt hspent hahead) fun hleft => ?_
    have hbefore : row ∈ rows :=
      (List.mem_filter.mp (hkept.subset (List.mem_filter.mpr ⟨hleft, hrow⟩))).1
    have hfewer := served_or_fewer hfresh hsucceeds halone hahead hleft
    have hcount := hmany hbefore
    rw [List.length_cons] at hcount
    exact Nat.le_of_lt_succ (Nat.lt_of_lt_of_le hfewer hcount)

/-! ## Starved -/

/-- Rows of the same time with the exhausted ones first. -/
def spentFirstKey (maxAttempts : ℕ) (row : RequestRow) : ℕ :=
  2 * row.requestedAt + if Fresh maxAttempts row then 1 else 0

/-- The rows in the order of that key. -/
def sortSpentFirst (maxAttempts : ℕ) (rows : List RequestRow) : List RequestRow :=
  rows.mergeSort fun a b => decide (spentFirstKey maxAttempts a ≤ spentFirstKey maxAttempts b)

theorem spentFirst_sorted (maxAttempts : ℕ) (rows : List RequestRow) :
    (sortSpentFirst maxAttempts rows).Pairwise fun a b =>
      spentFirstKey maxAttempts a ≤ spentFirstKey maxAttempts b := by
  have hsorted : (sortSpentFirst maxAttempts rows).Pairwise fun a b =>
      decide (spentFirstKey maxAttempts a ≤ spentFirstKey maxAttempts b) = true :=
    List.pairwise_mergeSort
      (fun a b c hab hbc =>
        decide_eq_true ((of_decide_eq_true hab).trans (of_decide_eq_true hbc)))
      (fun a b => by simp only [Bool.or_eq_true, decide_eq_true_eq]; omega) rows
  exact hsorted.imp fun hab => of_decide_eq_true hab

/-- The order that lists exhausted rows before fresh ones of the same time. -/
def spentFirst (maxAttempts : ℕ) : Listing where
  list := sortSpentFirst maxAttempts
  perm rows := List.mergeSort_perm rows _
  oldest rows := (spentFirst_sorted maxAttempts rows).imp fun {a b} hkey => by
    unfold spentFirstKey at hkey
    split_ifs at hkey <;> omega

/-- Deleting served requests one after the other. -/
theorem foldl_complete (requests rows : List RequestRow) :
    requests.foldl complete rows =
      rows.filter fun row => ∀ request ∈ requests, ¬ SameRequest row request := by
  induction requests generalizing rows with
  | nil => simp
  | cons request rest ih =>
    rw [List.foldl_cons, ih, complete, List.filter_filter]
    refine List.filter_congr fun row _ => ?_
    simp [Bool.and_comm]

/-- A quiet drain deletes what it examines. -/
theorem drainRows_quiet (listing : Listing) (limit maxAttempts : ℕ) (rows : List RequestRow) :
    (drainRows limit maxAttempts rows (quiet listing)).2 =
      rows.filter fun row => ∀ request ∈ examinedRequests (quiet listing) limit maxAttempts rows,
        ¬ SameRequest row request := by
  rw [← foldl_complete]
  unfold drainRows
  have hloop : ∀ (requests : List RequestRow) (progress : DrainResult × List RequestRow),
      (requests.foldl (serveNext (quiet listing)) progress).2 =
        requests.foldl complete progress.2 := by
    intro requests
    induction requests with
    | nil => exact fun _ => rfl
    | cons request rest ih => exact fun progress => ih _
  exact hloop _ _

/-- Distinct rows of a table are distinct requests. -/
theorem not_same_of_ne (hkeyed : Keyed rows) {a b : RequestRow} (ha : a ∈ rows) (hb : b ∈ rows)
    (hne : a ≠ b) : ¬ SameRequest a b :=
  fun hsame => hne (List.inj_on_of_nodup_map hkeyed ha hb hsame.1)

/-- As many exhausted requests ahead as the limit keep a request out of every drain. -/
theorem starved_drain (hfresh : Fresh maxAttempts row)
    (hahead : limit ≤ (rows.filter (spentAhead maxAttempts row)).length) :
    row ∉ pending (spentFirst maxAttempts) limit rows := by
  intro hin
  obtain ⟨front, back, hsplit⟩ := List.append_of_mem hin
  have hlist : (spentFirst maxAttempts).list rows = front ++ row ::
      (back ++ ((spentFirst maxAttempts).list rows).drop limit) := by
    conv_lhs => rw [← List.take_append_drop limit ((spentFirst maxAttempts).list rows)]
    rw [show ((spentFirst maxAttempts).list rows).take limit = front ++ row :: back from hsplit]
    simp
  have hshort : front.length < limit := by
    have hlength : (front ++ row :: back).length ≤ limit := hsplit ▸ List.length_take_le _ _
    simp only [List.length_append, List.length_cons] at hlength
    omega
  have hsorted : ((spentFirst maxAttempts).list rows).Pairwise fun a b =>
      spentFirstKey maxAttempts a ≤ spentFirstKey maxAttempts b :=
    spentFirst_sorted maxAttempts rows
  rw [hlist] at hsorted
  have hafter := (List.pairwise_cons.mp (List.pairwise_append.mp hsorted).2.1).1
  have hnone : (row :: (back ++ ((spentFirst maxAttempts).list rows).drop limit)).filter
      (spentAhead maxAttempts row) = [] := by
    refine List.filter_eq_nil_iff.mpr fun other hother hspent => ?_
    obtain ⟨hexhausted, hold⟩ := of_decide_eq_true hspent
    obtain rfl | hlater := List.mem_cons.mp hother
    · exact hexhausted hfresh
    · have hkey := hafter other hlater
      unfold spentFirstKey at hkey
      rw [if_pos hfresh, if_neg hexhausted] at hkey
      omega
  have hperm := (((spentFirst maxAttempts).perm rows).filter (spentAhead maxAttempts row)).length_eq
  rw [hlist, List.filter_append, hnone, List.append_nil] at hperm
  have hfront := List.length_filter_le (spentAhead maxAttempts row) front
  omega

/-- The drains that starve a request go on for ever. -/
theorem starved_drains (hfresh : Fresh maxAttempts row) (n : ℕ) : ∀ {rows : List RequestRow},
    Keyed rows → row ∈ rows → limit ≤ (rows.filter (spentAhead maxAttempts row)).length →
      row ∈ (List.replicate n (quiet (spentFirst maxAttempts))).foldl
        (fun rows around => (drainRows limit maxAttempts rows around).2) rows := by
  induction n with
  | zero => exact fun _ hin _ => hin
  | succ n ih =>
    intro rows hkeyed hin hahead
    have hunserved : row ∉ examinedRequests (quiet (spentFirst maxAttempts)) limit maxAttempts
        rows := fun hex => starved_drain hfresh hahead (List.mem_filter.mp hex).1
    have hexamined : ∀ request ∈ examinedRequests (quiet (spentFirst maxAttempts)) limit
        maxAttempts rows, request ∈ rows ∧ Fresh maxAttempts request := fun request hex =>
      ⟨((spentFirst maxAttempts).perm rows).mem_iff.mp
        (List.mem_of_mem_take (List.mem_filter.mp hex).1),
        of_decide_eq_true (List.mem_filter.mp hex).2⟩
    rw [List.replicate_succ, List.foldl_cons, drainRows_quiet]
    refine ih ?_ ?_ ?_
    · exact hkeyed.sublist (List.filter_sublist.map _)
    · refine List.mem_filter.mpr ⟨hin, decide_eq_true fun request hex => ?_⟩
      exact not_same_of_ne hkeyed hin (hexamined request hex).1 fun heq => hunserved (heq ▸ hex)
    · rw [List.filter_filter]
      refine hahead.trans (le_of_eq (congrArg List.length (List.filter_congr fun other hother => ?_)))
      cases hspent : spentAhead maxAttempts row other with
      | false => rfl
      | true =>
        have hexhausted := (of_decide_eq_true hspent).1
        have hkept : ∀ request ∈ examinedRequests (quiet (spentFirst maxAttempts)) limit
            maxAttempts rows, ¬ SameRequest other request := fun request hex =>
          not_same_of_ne hkeyed hother (hexamined request hex).1
            fun heq => hexhausted (heq ▸ (hexamined request hex).2)
        rw [decide_eq_true hkept]
        rfl

/-- A fresh request is served by repeated drains exactly when fewer exhausted ones than
the limit are ahead of it. -/
theorem eventuallyServed_iff (table : RequestTable) {tables : RequestTables}
    (hkeyed : Keyed (tables table)) (hin : row ∈ tables table)
    (hfresh : Fresh maxAttempts row) :
    EventuallyServed table limit maxAttempts tables row ↔
      exhaustedAhead maxAttempts (tables table) row < limit := by
  have hcount : exhaustedAhead maxAttempts (tables table) row =
      ((tables table).filter (spentAhead maxAttempts row)).length :=
    List.countP_eq_length_filter
  rw [hcount]
  constructor
  · rintro ⟨n, hserved⟩
    by_contra hahead
    have hquiet := hserved (List.replicate n (quiet (spentFirst maxAttempts)))
      List.length_replicate fun around haround => by
        rw [List.eq_of_mem_replicate haround]
        exact ⟨fun _ => Or.inl rfl, fun _ h => absurd h List.not_mem_nil,
          fun _ _ h => absurd h List.not_mem_nil⟩
    rw [drains_rows] at hquiet
    exact hquiet (starved_drains hfresh n hkeyed hin (Nat.le_of_not_lt hahead))
  · intro hahead
    refine ⟨((tables table).filter (freshAhead maxAttempts row)).length,
      fun arounds hlength hgood => ?_⟩
    rw [drains_rows]
    exact served_within hfresh arounds hgood hahead fun _ => hlength.ge

/-- No request of a table is starved exactly when no exhausted request takes a place that
a fresh one needs. -/
theorem unstarved_iff (table : RequestTable) (limit maxAttempts : ℕ) (tables : RequestTables)
    (hkeyed : Keyed (tables table)) :
    Unstarved table limit maxAttempts tables ↔
      Unobstructed limit maxAttempts (tables table) := by
  constructor
  · intro h
    exact ⟨(examinesEnough_iff table limit maxAttempts tables).mp h.examines,
      fun row hin hfresh => (eventuallyServed_iff table hkeyed hin hfresh).mp
        (h.serves row hin hfresh)⟩
  · intro h
    exact ⟨(examinesEnough_iff table limit maxAttempts tables).mpr h.places,
      fun row hin hfresh => (eventuallyServed_iff table hkeyed hin hfresh).mpr
        (h.ahead row hin hfresh)⟩

/-- A request that has failed five times. -/
def spentRequest : RequestRow := ⟨"t-1", 1, some "save", 5, some "build failed"⟩

/-- A younger one that has not been tried. -/
def newRequest : RequestRow := ⟨"t-2", 2, some "save", 0, none⟩

/-- Tables with a request that has failed once and one that has not been tried. -/
def triedTables : RequestTables := fun _ => [{ spentRequest with attempts := 1 }, newRequest]

/-- Requests that have attempts left are all served, one a drain. -/
theorem unstarved_triedTables : Unstarved .documents 1 5 triedTables := by
  refine (unstarved_iff .documents 1 5 triedTables (by decide)).mpr ⟨fun listing => Or.inl ?_,
    by decide⟩
  have hfresh : ∀ row ∈ triedTables .documents, Fresh 5 row := by decide
  intro row hin
  exact hfresh row ((listing.perm _).mem_iff.mp (List.mem_of_mem_take hin))

/-- An exhausted request fills the limit for ever. -/
theorem spent_request_starves :
    ¬ ∀ (table : RequestTable) (limit maxAttempts : ℕ) (tables : RequestTables),
      0 < limit → 0 < maxAttempts → Keyed (tables table) →
        Unstarved table limit maxAttempts tables := by
  intro h
  have hserved := (h .snapshot 1 5 (fun _ => [spentRequest, newRequest]) (by decide) (by decide)
    (by decide)).serves newRequest (by decide) (by decide)
  have hahead := (eventuallyServed_iff .snapshot (by decide) (by decide) (by decide)).mp hserved
  exact absurd hahead (by decide)

end FactoryServer.RequestDrains
