import FactoryServer.KeyedTables

/-!
# Slots under refreshes and edits

A refresh deletes by keys and upserts rows. Where no later refresh deletes what
an earlier one wrote, a run of refreshes leaves in each slot the rows that no
refresh reached before the slot was written, with everything written merged
into them. Edits that follow write cells of the rows that match their keys.
-/

namespace FactoryServer.RefreshedSlots

open KeyedTables

variable {T C V : Type}

/-- Deletes by keys, and then upserts of rows. -/
structure Refresh (C V : Type) where
  /-- What is deleted first. -/
  keys : List (Key C V)
  /-- What is upserted. -/
  rows : List (Row C V)

section Runs

variable [DecidableEq V]

/-- The refresh deletes the row. -/
def drops (refresh : Refresh C V) (row : Row C V) : Bool := refresh.keys.any (matchesKey row)

/-- The rows that a refresh writes into a slot. -/
def news (pk : List C) (key : Row C V) (refresh : Refresh C V) : List (Row C V) :=
  refresh.rows.filter (agree pk · key)

/-- What a refresh does to a slot. -/
def refreshSlot (pk : List C) (key : Row C V) (rows : List (Row C V)) (refresh : Refresh C V) :
    List (Row C V) :=
  putAll (news pk key refresh) (rows.filter fun row => !drops refresh row)

/-- A refresh deletes the row before its slot is written. -/
def swept (pk : List C) (key : Row C V) : List (Refresh C V) → Row C V → Bool
  | [], _ => false
  | first :: rest, row =>
    drops first row || ((news pk key first).isEmpty && swept pk key rest row)

/-- Everything that the refreshes write into a slot. -/
def written (pk : List C) (key : Row C V) (refreshes : List (Refresh C V)) : List (Row C V) :=
  refreshes.flatMap (news pk key)

/-- The later refresh deletes no row that the earlier one wrote last. -/
def Spares (earlier later : Refresh C V) : Prop :=
  ∀ new ∈ earlier.rows, ∀ row, Extends row new → drops later row = false

omit [DecidableEq V] in
theorem putAll_nil (rows : List (Row C V)) : putAll [] rows = rows := if_pos rfl

omit [DecidableEq V] in
theorem mergeAll_append (a b : List (Row C V)) :
    mergeAll (a ++ b) = merge (mergeAll a) (mergeAll b) := by
  have hunfold : mergeAll (a ++ b) = b.foldl merge (mergeAll a) := List.foldl_append
  rw [hunfold, foldl_merge]

omit [DecidableEq V] in
theorem putAll_append (a b rows : List (Row C V)) :
    putAll (a ++ b) rows = putAll b (putAll a rows) := by
  by_cases ha : a = []
  · rw [ha, List.nil_append, putAll_nil]
  · by_cases hb : b = []
    · rw [hb, List.append_nil, putAll_nil]
    · have hab : a ++ b ≠ [] := by simp [ha]
      unfold putAll
      rw [if_neg ha, if_neg hb, if_neg hab, mergeAll_append]
      by_cases hrows : rows = []
      · rw [if_pos hrows, if_pos hrows, if_neg (by simp)]
        rfl
      · rw [if_neg hrows, if_neg hrows, if_neg (by simpa using hrows), List.map_map]
        apply List.map_congr_left
        intro row _
        exact (merge_assoc _ _ _).symm

omit [DecidableEq V] in
/-- A written slot holds rows with the cells of the row written last. -/
theorem extends_last {rows : List (Row C V)} (h : rows ≠ []) :
    ∃ new ∈ rows, Extends (mergeAll rows) new := by
  induction rows with
  | nil => exact absurd rfl h
  | cons first rest ih =>
    by_cases hrest : rest = []
    · refine ⟨first, List.mem_cons_self, ?_⟩
      rw [hrest, mergeAll_singleton]
      exact fun _ _ hv => hv
    · obtain ⟨new, hnew, hext⟩ := ih hrest
      refine ⟨new, List.mem_cons_of_mem _ hnew, ?_⟩
      rw [mergeAll_cons]
      exact (extends_merge _ _).trans hext

/-- What a refresh wrote into a slot is spared by the refreshes that follow. -/
theorem spared_of_written {pk : List C} {key : Row C V} {first later : Refresh C V}
    (h : Spares first later) (hne : news pk key first ≠ []) {rows : List (Row C V)} :
    ∀ row ∈ putAll (news pk key first) rows, drops later row = false := by
  intro row hrow
  obtain ⟨new, hnew, hext⟩ := extends_last hne
  have hmem : new ∈ first.rows := (List.mem_filter.mp hnew).1
  exact h new hmem row ((extends_of_mem_putAll hne hrow).trans hext)

/-- Refreshes that spare a slot merge what they write into it. -/
theorem foldl_refresh_spared {pk : List C} {key : Row C V} {refreshes : List (Refresh C V)}
    (h : refreshes.Pairwise Spares) {rows : List (Row C V)}
    (hrows : ∀ later ∈ refreshes, ∀ row ∈ rows, drops later row = false) :
    refreshes.foldl (refreshSlot pk key) rows = putAll (written pk key refreshes) rows := by
  induction refreshes generalizing rows with
  | nil => rfl
  | cons first rest ih =>
    obtain ⟨hfirst, hrest⟩ := List.pairwise_cons.mp h
    have hkeep : rows.filter (fun row => !drops first row) = rows := by
      rw [List.filter_eq_self]
      intro row hrow
      simp [hrows first List.mem_cons_self row hrow]
    have hwritten : written pk key (first :: rest) = news pk key first ++ written pk key rest :=
      List.flatMap_cons
    rw [List.foldl_cons, refreshSlot, hkeep, hwritten, putAll_append]
    apply ih hrest
    intro later hlater row hrow
    by_cases hne : news pk key first = []
    · rw [hne, putAll_nil] at hrow
      exact hrows later (List.mem_cons_of_mem _ hlater) row hrow
    · exact spared_of_written (hfirst later hlater) hne row hrow

/-- What a run of refreshes leaves in a slot. -/
theorem foldl_refresh {pk : List C} {key : Row C V} {refreshes : List (Refresh C V)}
    (h : refreshes.Pairwise Spares) (rows : List (Row C V)) :
    refreshes.foldl (refreshSlot pk key) rows =
      putAll (written pk key refreshes) (rows.filter fun row => !swept pk key refreshes row) := by
  induction refreshes generalizing rows with
  | nil =>
    have hall : rows.filter (fun _ => true) = rows := List.filter_eq_self.mpr fun _ _ => rfl
    exact hall.symm
  | cons first rest ih =>
    obtain ⟨hfirst, hrest⟩ := List.pairwise_cons.mp h
    have hwritten : written pk key (first :: rest) = news pk key first ++ written pk key rest :=
      List.flatMap_cons
    rw [List.foldl_cons, refreshSlot, hwritten, putAll_append]
    by_cases hne : news pk key first = []
    · have hswept : ∀ row, swept pk key (first :: rest) row =
          (drops first row || swept pk key rest row) := by
        intro row
        simp [swept, hne]
      simp only [hne, putAll_nil, ih hrest, List.filter_filter, hswept, Bool.not_or]
      congr 1
      apply List.filter_congr
      intro row _
      exact Bool.and_comm _ _
    · have hswept : ∀ row, swept pk key (first :: rest) row = drops first row := by
        intro row
        simp [swept, hne]
      rw [foldl_refresh_spared hrest fun later hlater => spared_of_written (hfirst later hlater) hne]
      simp only [hswept]

/-- The slot of a key is that of every row in it. -/
theorem news_congr {pk : List C} {key row : Row C V} (h : agree pk row key = true)
    (refresh : Refresh C V) : news pk row refresh = news pk key refresh := by
  apply List.filter_congr
  intro new _
  rw [Bool.eq_iff_iff, agree_iff, agree_iff]
  have hcell := agree_iff.mp h
  constructor
  · intro hn c hc
    rw [hn c hc, hcell c hc]
  · intro hn c hc
    rw [hn c hc, hcell c hc]

theorem written_congr {pk : List C} {key row : Row C V} (h : agree pk row key = true)
    (refreshes : List (Refresh C V)) : written pk row refreshes = written pk key refreshes :=
  List.flatMap_congr fun refresh _ => news_congr h refresh

theorem swept_congr {pk : List C} {key row : Row C V} (h : agree pk row key = true)
    (refreshes : List (Refresh C V)) (old : Row C V) :
    swept pk row refreshes old = swept pk key refreshes old := by
  induction refreshes with
  | nil => rfl
  | cons first rest ih => simp only [swept, news_congr h, ih]

end Runs

section Edits

variable [DecidableEq V]

/-- What the updates of a log do to one row. -/
def edited (changes : List (Change T C V)) (row : Row C V) : Row C V :=
  changes.foldl (fun row change =>
    match change with
    | .update _ key new => if matchesKey row key then merge row new else row
    | _ => row) row

/-- The log only updates one table, and no update writes a guarded column. -/
def EditsOnly (t : T) (guarded : C → Prop) (changes : List (Change T C V)) : Prop :=
  ∀ change ∈ changes, ∃ key new, change = .update t key new ∧
    (∀ c, guarded c → new c = none) ∧ ∀ e ∈ key, guarded e.1

/-- Updates edit a slot row by row. -/
theorem foldl_actSlot_edits [DecidableEq T] {pk : T → List C} {t : T} {guarded : C → Prop}
    {changes : List (Change T C V)} (h : EditsOnly t guarded changes) (key : Row C V)
    (rows : List (Row C V)) :
    changes.foldl (actSlot pk t key) rows = rows.map (edited changes) := by
  induction changes generalizing rows with
  | nil => exact (List.map_id rows).symm
  | cons change rest ih =>
    obtain ⟨k, new, rfl, -⟩ := h change List.mem_cons_self
    rw [List.foldl_cons, ih fun c hc => h c (List.mem_cons_of_mem _ hc)]
    simp only [actSlot, if_true, updateRows, List.map_map]
    rfl

/-- Edits leave the guarded columns alone. -/
theorem edited_guarded {t : T} {guarded : C → Prop} {changes : List (Change T C V)}
    (h : EditsOnly t guarded changes) (row : Row C V) {c : C} (hc : guarded c) :
    edited changes row c = row c := by
  induction changes generalizing row with
  | nil => rfl
  | cons change rest ih =>
    obtain ⟨k, new, rfl, hnone, -⟩ := h change List.mem_cons_self
    have hrest := ih fun c hc => h c (List.mem_cons_of_mem _ hc)
    have hstep : edited (Change.update t k new :: rest) row =
        edited rest (if matchesKey row k then merge row new else row) := rfl
    rw [hstep, hrest]
    split_ifs
    · simp [merge, hnone c hc]
    · rfl

/-- An update that matches the row gives the column. -/
def Filled (changes : List (Change T C V)) (row : Row C V) (c : C) : Prop :=
  ∃ t key new, .update t key new ∈ changes ∧ matchesKey row key = true ∧ new c ≠ none

/-- Rows that match the same keys are edited alike, column by column. -/
theorem edited_cell {t : T} {guarded : C → Prop} {changes : List (Change T C V)}
    (h : EditsOnly t guarded changes) {a b : Row C V} (hab : ∀ c, guarded c → a c = b c) (c : C) :
    edited changes a c = edited changes b c ↔ a c = b c ∨ Filled changes b c := by
  induction changes generalizing a b with
  | nil =>
    have hnot : ¬ Filled ([] : List (Change T C V)) b c := by
      rintro ⟨_, _, _, hmem, -⟩
      cases hmem
    exact (or_iff_left hnot).symm
  | cons change rest ih =>
    obtain ⟨k, new, rfl, hnone, hkey⟩ := h change List.mem_cons_self
    have hrest : EditsOnly t guarded rest := fun c hc => h c (List.mem_cons_of_mem _ hc)
    have hstep : ∀ row : Row C V, edited (Change.update t k new :: rest) row =
        edited rest (if matchesKey row k then merge row new else row) := fun _ => rfl
    have hmatch : matchesKey a k = matchesKey b k := by
      rw [Bool.eq_iff_iff, matchesKey_iff, matchesKey_iff]
      refine forall_congr' fun e => forall_congr' fun he => ?_
      rw [hab e.1 (hkey e he)]
    have hfilled : Filled (Change.update t k new :: rest) b c ↔
        (matchesKey b k = true ∧ new c ≠ none) ∨ Filled rest b c := by
      constructor
      · rintro ⟨t', key, row, hmem, hm, hne⟩
        rcases List.mem_cons.mp hmem with he | hmem
        · simp only [Change.update.injEq] at he
          obtain ⟨rfl, rfl, rfl⟩ := he
          exact Or.inl ⟨hm, hne⟩
        · exact Or.inr ⟨t', key, row, hmem, hm, hne⟩
      · rintro (⟨hm, hne⟩ | ⟨t', key, row, hmem, hm, hne⟩)
        · exact ⟨t, k, new, List.mem_cons_self, hm, hne⟩
        · exact ⟨t', key, row, List.mem_cons_of_mem _ hmem, hm, hne⟩
    -- An edit keeps the guarded columns, so it matches the same keys before and after.
    have hsame : ∀ row : Row C V, ∀ c', guarded c' → merge row new c' = row c' := by
      intro row c' hc'
      simp [merge, hnone c' hc']
    have hfill : Filled rest (merge b new) c ↔ Filled rest b c := by
      unfold Filled
      refine exists_congr fun t' => exists_congr fun key => exists_congr fun row => ?_
      refine and_congr_right fun hmem => and_congr_left fun _ => ?_
      obtain ⟨key', row', he, -, hguard⟩ := hrest _ hmem
      simp only [Change.update.injEq] at he
      obtain ⟨-, rfl, rfl⟩ := he
      rw [matchesKey_iff, matchesKey_iff]
      refine forall_congr' fun e => forall_congr' fun hmemKey => ?_
      rw [hsame b e.1 (hguard e hmemKey)]
    rw [hstep, hstep, hmatch, hfilled]
    by_cases hm : matchesKey b k = true
    · rw [if_pos hm, if_pos hm, ih hrest, hfill]
      · cases hn : new c with
        | none => simp [merge, hn]
        | some v => simp [merge, hn, hm]
      · intro c' hc'
        rw [hsame a c' hc', hsame b c' hc', hab c' hc']
    · rw [if_neg hm, if_neg hm, ih hrest hab]
      simp [hm]

omit [DecidableEq V] in
theorem merge_cell_eq_iff (old fresh : Row C V) (c : C) :
    merge old fresh c = fresh c ↔ (old c ≠ none → fresh c ≠ none) := by
  cases hf : fresh c with
  | none => cases ho : old c <;> simp [merge, hf, ho]
  | some v => simp [merge, hf]

/-- Merging fresh cells into an old row and editing gives the edited fresh row
exactly when the edits fill every cell that the old row adds. -/
theorem edited_merge_iff {t : T} {guarded : C → Prop} {changes : List (Change T C V)}
    (h : EditsOnly t guarded changes) (old fresh : Row C V) :
    edited changes (merge old fresh) = edited changes fresh ↔
      ∀ c, old c ≠ none → fresh c ≠ none ∨ Filled changes fresh c := by
  constructor
  · intro hsame c hold
    have hab : ∀ c, guarded c → merge old fresh c = fresh c := by
      intro c hc
      have hcell := congrFun hsame c
      rwa [edited_guarded h _ hc, edited_guarded h _ hc] at hcell
    rcases (edited_cell h hab c).mp (congrFun hsame c) with hcell | hfilled
    · exact Or.inl ((merge_cell_eq_iff old fresh c).mp hcell hold)
    · exact Or.inr hfilled
  · intro hfill
    have hab : ∀ c, guarded c → merge old fresh c = fresh c := by
      intro c hc
      rw [merge_cell_eq_iff]
      intro hold
      rcases hfill c hold with hgiven | ⟨t', key, new, hmem, -, hne⟩
      · exact hgiven
      · obtain ⟨key', new', he, hnone, -⟩ := h _ hmem
        simp only [Change.update.injEq] at he
        obtain ⟨-, -, rfl⟩ := he
        exact absurd (hnone c hc) hne
    funext c
    rw [edited_cell h hab c, merge_cell_eq_iff]
    by_cases hold : old c = none
    · exact Or.inl fun hne => absurd hold hne
    · rcases hfill c hold with hgiven | hfilled
      · exact Or.inl fun _ => hgiven
      · exact Or.inr hfilled

end Edits

section Convergence

variable [DecidableEq V]

/-- A row of a slot is brought to what the refreshes write: a refresh reaches it
first, or every cell it adds is given or filled; a row that nothing writes is
out of scope. -/
def Settled (pk : List C) (inScope : Row C V → Prop) (refreshes : List (Refresh C V))
    (edits : List (Change T C V)) (row : Row C V) : Prop :=
  swept pk row refreshes row = true ∨
    if written pk row refreshes = [] then ¬ inScope row
    else ∀ c, row c ≠ none → mergeAll (written pk row refreshes) c ≠ none ∨
      Filled edits (mergeAll (written pk row refreshes)) c

/-- What refreshes and edits leave in a slot. -/
def settle (pk : List C) (key : Row C V) (refreshes : List (Refresh C V))
    (edits : List (Change T C V)) (rows : List (Row C V)) : List (Row C V) :=
  (putAll (written pk key refreshes)
    (rows.filter fun row => !swept pk key refreshes row)).map (edited edits)

omit [DecidableEq V] in
theorem putAll_of_nil {news : List (Row C V)} (h : news ≠ []) :
    putAll news [] = [mergeAll news] := by
  unfold putAll
  rw [if_neg h, if_pos rfl]

omit [DecidableEq V] in
theorem putAll_of_ne_nil {news rows : List (Row C V)} (h : news ≠ []) (hrows : rows ≠ []) :
    putAll news rows = rows.map (merge · (mergeAll news)) := by
  unfold putAll
  rw [if_neg h, if_neg hrows]

theorem mem_slot_self (pk : List C) (rows : List (Row C V)) {row : Row C V} :
    row ∈ slot pk rows row ↔ row ∈ rows := by
  rw [slot, List.mem_filter]
  exact and_iff_left (agree_refl pk row)

/-- An empty slot is left with what is written into it. -/
theorem mem_settle_nil {pk : List C} {key row : Row C V} {refreshes : List (Refresh C V)}
    {edits : List (Change T C V)} :
    row ∈ settle pk key refreshes edits [] ↔
      written pk key refreshes ≠ [] ∧ row = edited edits (mergeAll (written pk key refreshes)) := by
  unfold settle
  rw [List.filter_nil]
  by_cases h : written pk key refreshes = []
  · simp [h, putAll_nil]
  · simp [h, putAll_of_nil h]

variable {pk : List C} {inScope : Row C V → Prop} {refreshes : List (Refresh C V)}
  {edits : List (Change T C V)} {old A B : List (Row C V)}

/-- Refreshed and edited tables: one from old rows, one from nothing, with the
rows in scope told apart by what the refreshes write and the edits leave alone. -/
structure Runs (pk : List C) (t : T) (guarded : C → Prop) (inScope : Row C V → Prop)
    (refreshes : List (Refresh C V)) (edits : List (Change T C V)) (old A B : List (Row C V)) :
    Prop where
  /-- What the run leaves of the old rows. -/
  fromOld : ∀ key, slot pk A key = settle pk key refreshes edits (slot pk old key)
  /-- What the run leaves in an empty table. -/
  fromNothing : ∀ key, slot pk B key = settle pk key refreshes edits []
  /-- The edits leave guarded columns alone. -/
  guards : EditsOnly t guarded edits
  /-- The primary key is guarded. -/
  keys : ∀ c ∈ pk, guarded c
  /-- An edit does not change the scope. -/
  inside : ∀ row, inScope (edited edits row) ↔ inScope row
  /-- What is written is in scope. -/
  fresh : ∀ key row, written pk key refreshes ≠ [] →
    Extends row (mergeAll (written pk key refreshes)) → inScope row

/-- A row that settles leaves what is written from nothing. -/
theorem Runs.settled_of_converged {t : T} {guarded : C → Prop}
    (h : Runs pk t guarded inScope refreshes edits old A B)
    (hab : ∀ row, inScope row → row ∈ A → row ∈ B) {row : Row C V} (hrow : row ∈ old) :
    Settled pk inScope refreshes edits row := by
  by_cases hswept : swept pk row refreshes row = true
  · exact Or.inl hswept
  · right
    have hkept : row ∈ (slot pk old row).filter fun r => !swept pk row refreshes r := by
      rw [List.mem_filter]
      exact ⟨(mem_slot_self _ _).mpr hrow, by simpa using hswept⟩
    have hfound : ∀ found, found ∈ settle pk row refreshes edits (slot pk old row) →
        inScope found → found ∈ settle pk row refreshes edits [] := by
      intro found hfound hscope
      rw [← h.fromOld, slot, List.mem_filter] at hfound
      rw [← h.fromNothing, slot, List.mem_filter]
      exact ⟨hab found hscope hfound.1, hfound.2⟩
    split_ifs with hw
    · intro hscope
      have hmem : edited edits row ∈ settle pk row refreshes edits (slot pk old row) := by
        unfold settle
        rw [hw, putAll_nil]
        exact List.mem_map_of_mem hkept
      have hnone := hfound _ hmem ((h.inside row).mpr hscope)
      exact (mem_settle_nil.mp hnone).1 hw
    · have hmerged : merge row (mergeAll (written pk row refreshes)) ∈
          putAll (written pk row refreshes)
            ((slot pk old row).filter fun r => !swept pk row refreshes r) := by
        rw [putAll_of_ne_nil hw (List.ne_nil_of_mem hkept)]
        exact List.mem_map_of_mem (f := (merge · _)) hkept
      have hscope := h.fresh row _ hw (extends_merge row _)
      have hmem := hfound _ (List.mem_map_of_mem hmerged) ((h.inside _).mpr hscope)
      exact (edited_merge_iff h.guards row _).mp (mem_settle_nil.mp hmem).2

/-- Where every old row settles, the old rows leave what nothing leaves. -/
theorem Runs.converged_of_settled {t : T} {guarded : C → Prop}
    (h : Runs pk t guarded inScope refreshes edits old A B)
    (hold : ∀ row ∈ old, Settled pk inScope refreshes edits row) {row : Row C V}
    (hscope : inScope row) : row ∈ A ↔ row ∈ B := by
  rw [← mem_slot_self pk A, ← mem_slot_self pk B, h.fromOld, h.fromNothing, mem_settle_nil]
  have hsettled : ∀ r ∈ (slot pk old row).filter (fun r => !swept pk row refreshes r),
      if written pk row refreshes = [] then ¬ inScope r
      else edited edits (merge r (mergeAll (written pk row refreshes))) =
        edited edits (mergeAll (written pk row refreshes)) := by
    intro r hr
    obtain ⟨hslot, hkept⟩ := List.mem_filter.mp hr
    obtain ⟨hmem, hagree⟩ := List.mem_filter.mp hslot
    have hnot : ¬ swept pk r refreshes r = true := by
      rw [swept_congr hagree]
      simpa using hkept
    have hrest := (hold r hmem).resolve_left hnot
    rw [written_congr hagree] at hrest
    split_ifs at hrest ⊢
    · exact hrest
    · exact (edited_merge_iff h.guards r _).mpr hrest
  unfold settle
  generalize (slot pk old row).filter (fun r => !swept pk row refreshes r) = kept at hsettled
  by_cases hw : written pk row refreshes = []
  · rw [hw, putAll_nil]
    constructor
    · intro hmem
      obtain ⟨r, hr, rfl⟩ := List.mem_map.mp hmem
      have hout := hsettled r hr
      rw [if_pos hw] at hout
      exact absurd ((h.inside r).mp hscope) hout
    · exact fun hmem => absurd rfl hmem.1
  · rw [and_iff_right hw]
    by_cases hkept : kept = []
    · rw [hkept, putAll_of_nil hw]
      simp
    · rw [putAll_of_ne_nil hw hkept, List.map_map]
      have hall : ∀ r ∈ kept, (edited edits ∘ (merge · (mergeAll (written pk row refreshes)))) r =
          edited edits (mergeAll (written pk row refreshes)) := by
        intro r hr
        have hsame := hsettled r hr
        rwa [if_neg hw] at hsame
      obtain ⟨first, hfirst⟩ := List.exists_mem_of_ne_nil kept hkept
      constructor
      · intro hmem
        obtain ⟨r, hr, hr'⟩ := List.mem_map.mp hmem
        exact hr'.symm.trans (hall r hr)
      · intro hsame
        exact List.mem_map.mpr ⟨first, hfirst, (hall first hfirst).trans hsame.symm⟩

/-- The run converges exactly when every old row settles. -/
theorem Runs.converged_iff {t : T} {guarded : C → Prop}
    (h : Runs pk t guarded inScope refreshes edits old A B) :
    (∀ row, inScope row → (row ∈ A ↔ row ∈ B)) ↔
      ∀ row ∈ old, Settled pk inScope refreshes edits row := by
  constructor
  · intro hab row hrow
    exact h.settled_of_converged (fun r hscope => (hab r hscope).mp) hrow
  · intro hold row hscope
    exact h.converged_of_settled hold hscope

end Convergence

end FactoryServer.RefreshedSlots
