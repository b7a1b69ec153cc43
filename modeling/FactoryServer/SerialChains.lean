import Mathlib.Data.List.Basic
import Mathlib.Logic.Function.Basic

/-!
# Operations chained behind promises, key by key

An operation of a key is chained behind the promise that the key's tail names, or behind
none where the key has no tail. It starts once that promise has settled, and becomes the
tail itself; a tail that has settled may be forgotten. The operations of one key then run
one after the other, in the order in which they were chained.
-/

namespace FactoryServer.SerialChains

/-- How far an operation has come. -/
inductive LinkStage where
  /-- Waiting for the promise it is chained behind. -/
  | waiting
  /-- Under way. -/
  | running
  /-- Done; its promise has not settled yet. -/
  | executed
  /-- Its promise has settled. -/
  | settled
  deriving DecidableEq

/-- The operation has still to take place. -/
def LinkStage.isPending : LinkStage → Bool
  | .waiting => true
  | .running => true
  | .executed => false
  | .settled => false

/-- A chained operation; its promise is its place. -/
structure Link (K O : Type) where
  /-- The key. -/
  key : K
  /-- The operation. -/
  op : O
  /-- The promise it is chained behind. -/
  prev : Option ℕ
  /-- How far it has come. -/
  stage : LinkStage

/-- The operations in the order in which they were chained, and the tails. -/
structure Chains (K O : Type) where
  /-- The operations. -/
  links : List (Link K O) := []
  /-- The tail of a key. -/
  tail : K → Option ℕ := fun _ => none

variable {K O : Type} [DecidableEq K]

/-- An operation is chained. -/
def Chains.chain (c : Chains K O) (key : K) (op : O) : Chains K O where
  links := c.links ++ [⟨key, op, c.tail key, .waiting⟩]
  tail := Function.update c.tail key (some c.links.length)

/-- The promise has settled. -/
def Chains.isSettled (c : Chains K O) (id : ℕ) : Bool :=
  c.links[id]?.any fun link => link.stage = .settled

/-- The promise that an operation waits for has settled. -/
def Chains.isReady (c : Chains K O) (link : Link K O) : Bool := link.prev.all c.isSettled

/-- An operation has come to a stage. -/
def Chains.setStage (c : Chains K O) (id : ℕ) (stage : LinkStage) : Chains K O :=
  { c with links := c.links.modify id fun link => { link with stage := stage } }

/-- A tail is forgotten. -/
def Chains.forget (c : Chains K O) (key : K) : Chains K O :=
  { c with tail := Function.update c.tail key none }

/-- The operations of a key that have still to take place. -/
def Chains.pending (c : Chains K O) (key : K) : List O :=
  (c.links.filter fun link => link.key = key ∧ link.stage.isPending).map (·.op)

/-! ## One after the other -/

/-- Every earlier operation of the key has settled. -/
def Chains.EarlierSettled (c : Chains K O) (id : ℕ) (key : K) : Prop :=
  ∀ (place : ℕ) (earlier : Link K O), place < id → c.links[place]? = some earlier →
    earlier.key = key → earlier.stage = .settled

/-- The operations of a key run one after the other. -/
structure Chains.Serial (c : Chains K O) : Prop where
  /-- An operation that has started comes after operations that have settled. -/
  order : ∀ (id : ℕ) (link : Link K O), c.links[id]? = some link → link.stage ≠ .waiting →
    c.EarlierSettled id link.key
  /-- The tail of a key is its last operation. -/
  last : ∀ key id, c.tail key = some id → (∃ link, c.links[id]? = some link ∧ link.key = key) ∧
    ∀ (place : ℕ) (link : Link K O), c.links[place]? = some link → link.key = key → place ≤ id
  /-- A key without a tail has settled operations only. -/
  free : ∀ key, c.tail key = none → c.EarlierSettled c.links.length key
  /-- An operation that waits for no promise comes after operations that have settled. -/
  first : ∀ (id : ℕ) (link : Link K O), c.links[id]? = some link → link.prev = none →
    c.EarlierSettled id link.key
  /-- An operation waits for the one before it. -/
  behind : ∀ (id : ℕ) (link : Link K O) before, c.links[id]? = some link →
    link.prev = some before →
      (∃ earlier, c.links[before]? = some earlier ∧ earlier.key = link.key) ∧
        ∀ (place : ℕ) (earlier : Link K O), place < id → c.links[place]? = some earlier →
          earlier.key = link.key → place ≤ before

omit [DecidableEq K] in
/-- Nothing is chained at first. -/
theorem serial_start : ({} : Chains K O).Serial where
  order := fun _ _ hlink => by simp at hlink
  last := fun _ _ htail => by cases htail
  free := fun _ _ _ _ _ hlink => by simp at hlink
  first := fun _ _ hlink => by simp at hlink
  behind := fun _ _ _ hlink => by simp at hlink

omit [DecidableEq K] in
/-- An operation whose promise has settled comes after operations that have settled. -/
theorem Chains.Serial.earlier_of_ready {c : Chains K O} (h : c.Serial) {id : ℕ} {link : Link K O}
    (hlink : c.links[id]? = some link) (hready : c.isReady link = true) :
    c.EarlierSettled id link.key := by
  cases hprev : link.prev with
  | none => exact h.first id link hlink hprev
  | some before =>
    obtain ⟨⟨awaited, hawaited, hkey⟩, hlast⟩ := h.behind id link before hlink hprev
    have hsettled : awaited.stage = .settled := by
      simpa [Chains.isReady, Chains.isSettled, hprev, hawaited] using hready
    intro place earlier hplace hearlier hsame
    obtain hlt | heq := Nat.lt_or_eq_of_le (hlast place earlier hplace hearlier hsame)
    · have hstarted : awaited.stage ≠ .waiting := hsettled ▸ LinkStage.noConfusion
      exact h.order before awaited hawaited hstarted place earlier hlt hearlier
        (hsame.trans hkey.symm)
    · rw [heq, hawaited, Option.some.injEq] at hearlier
      rw [← hearlier]
      exact hsettled

omit [DecidableEq K] in
/-- The operations after one of them has come to a stage. -/
theorem getElem?_setStage (c : Chains K O) (id place : ℕ) (stage : LinkStage) :
    (c.setStage id stage).links[place]? =
      if id = place then (c.links[place]?).map fun link => { link with stage := stage }
      else c.links[place]? := by
  rw [Chains.setStage, List.getElem?_modify]
  split
  · rfl
  · simp

omit [DecidableEq K] in
/-- An operation found after one of them has come to a stage. -/
theorem found_setStage {c : Chains K O} {id place : ℕ} {stage : LinkStage} {link : Link K O}
    (h : (c.setStage id stage).links[place]? = some link) :
    ∃ before, c.links[place]? = some before ∧ link.key = before.key ∧ link.prev = before.prev ∧
      (place ≠ id → link.stage = before.stage) := by
  rw [getElem?_setStage] at h
  split at h
  next hsame =>
    obtain ⟨before, hbefore, rfl⟩ := Option.map_eq_some_iff.mp h
    exact ⟨before, hbefore, rfl, rfl, fun hne => absurd hsame.symm hne⟩
  next => exact ⟨link, h, rfl, rfl, fun _ => rfl⟩

omit [DecidableEq K] in
/-- What settled before an operation moved on has settled after, as the operation itself had
not. -/
theorem earlierSettled_setStage {c : Chains K O} {id limit : ℕ} {key : K} {moved : Link K O}
    (stage : LinkStage) (hmoved : c.links[id]? = some moved) (hnot : moved.stage ≠ .settled)
    (h : c.EarlierSettled limit key) : (c.setStage id stage).EarlierSettled limit key := by
  intro place earlier hplace hearlier hkey
  obtain ⟨before, hbefore, hsame, -, hstage⟩ := found_setStage hearlier
  have hsettled := h place before hplace hbefore (hsame.symm.trans hkey)
  by_cases heq : place = id
  · rw [heq, hmoved, Option.some.injEq] at hbefore
    exact absurd (hbefore ▸ hsettled) hnot
  · rw [hstage heq]
    exact hsettled

omit [DecidableEq K] in
/-- An operation whose predecessors have settled moves on. -/
theorem Chains.Serial.setStage {c : Chains K O} (h : c.Serial) {id : ℕ} {moved : Link K O}
    (stage : LinkStage) (hmoved : c.links[id]? = some moved) (hnot : moved.stage ≠ .settled)
    (hearlier : c.EarlierSettled id moved.key) : (c.setStage id stage).Serial where
  order := by
    intro place link hlink hstarted
    obtain ⟨before, hbefore, hkey, -, hstage⟩ := found_setStage hlink
    refine earlierSettled_setStage stage hmoved hnot ?_
    rw [hkey]
    by_cases heq : place = id
    · rw [heq, hmoved, Option.some.injEq] at hbefore
      rw [heq, ← hbefore]
      exact hearlier
    · rw [hstage heq] at hstarted
      exact h.order place before hbefore hstarted
  last := by
    intro key place htail
    obtain ⟨⟨link, hlink, hkey⟩, hlast⟩ := h.last key place htail
    constructor
    · have hafter := getElem?_setStage c id place stage
      rw [hlink] at hafter
      split at hafter
      · exact ⟨_, hafter, hkey⟩
      · exact ⟨_, hafter, hkey⟩
    · intro other found hfound hsame
      obtain ⟨before, hbefore, hkept, -, -⟩ := found_setStage hfound
      exact hlast other before hbefore (hkept.symm.trans hsame)
  free := by
    intro key htail
    have hlength : (c.setStage id stage).links.length = c.links.length := by
      rw [Chains.setStage, List.length_modify]
    rw [hlength]
    exact earlierSettled_setStage stage hmoved hnot (h.free key htail)
  first := by
    intro place link hlink hprev
    obtain ⟨before, hbefore, hkey, hsame, -⟩ := found_setStage hlink
    rw [hkey]
    exact earlierSettled_setStage stage hmoved hnot
      (h.first place before hbefore (hsame.symm.trans hprev))
  behind := by
    intro place link awaited hlink hprev
    obtain ⟨before, hbefore, hkey, hsame, -⟩ := found_setStage hlink
    obtain ⟨⟨earlier, hearlier, hkept⟩, hlast⟩ :=
      h.behind place before awaited hbefore (hsame.symm.trans hprev)
    constructor
    · have hafter := getElem?_setStage c id awaited stage
      rw [hearlier] at hafter
      split at hafter
      · exact ⟨_, hafter, hkept.trans hkey.symm⟩
      · exact ⟨_, hafter, hkept.trans hkey.symm⟩
    · intro other found hlt hfound hfoundKey
      obtain ⟨old, hold, holdKey, -, -⟩ := found_setStage hfound
      exact hlast other old hlt hold (holdKey.symm.trans (hfoundKey.trans hkey))

/-- An operation found after another was chained is that one, at the end, or was there. -/
theorem found_chain {c : Chains K O} {key : K} {op : O} {place : ℕ} {link : Link K O}
    (h : (c.chain key op).links[place]? = some link) :
    c.links[place]? = some link ∧ place < c.links.length ∨
      place = c.links.length ∧ link = ⟨key, op, c.tail key, .waiting⟩ := by
  have hlinks : (c.chain key op).links = c.links ++ [⟨key, op, c.tail key, .waiting⟩] := rfl
  obtain hlt | hge := Nat.lt_or_ge place c.links.length
  · rw [hlinks, List.getElem?_append_left hlt] at h
    exact .inl ⟨h, hlt⟩
  · rw [hlinks, List.getElem?_append_right hge, List.getElem?_singleton] at h
    split at h
    next hzero =>
      exact .inr ⟨by omega, (Option.some.inj h).symm⟩
    next => cases h

/-- What was chained before stays where it is. -/
theorem getElem?_chain {c : Chains K O} (key : K) (op : O) {place : ℕ} {link : Link K O}
    (h : c.links[place]? = some link) : (c.chain key op).links[place]? = some link := by
  obtain ⟨hlt, -⟩ := List.getElem?_eq_some_iff.mp h
  exact (List.getElem?_append_left hlt).trans h

/-- What has settled before an operation is chained has settled after. -/
theorem earlierSettled_chain {c : Chains K O} {key other : K} {op : O} {limit : ℕ}
    (hlimit : limit ≤ c.links.length) (h : c.EarlierSettled limit other) :
    (c.chain key op).EarlierSettled limit other := by
  intro place earlier hplace hearlier hkey
  obtain ⟨hbefore, -⟩ | ⟨hnew, -⟩ := found_chain hearlier
  · exact h place earlier hplace hbefore hkey
  · omega

/-- An operation is chained behind the others of its key. -/
theorem Chains.Serial.chain {c : Chains K O} (h : c.Serial) (key : K) (op : O) :
    (c.chain key op).Serial where
  order := by
    intro place link hlink hstarted
    obtain ⟨hbefore, hlt⟩ | ⟨-, rfl⟩ := found_chain hlink
    · exact earlierSettled_chain (Nat.le_of_lt hlt) (h.order place link hbefore hstarted)
    · exact absurd rfl hstarted
  last := by
    intro other place htail
    by_cases hsame : other = key
    · have hplace : c.links.length = place := by
        rw [hsame] at htail
        exact Option.some.inj ((Function.update_self key _ _).symm.trans htail)
      rw [hsame, ← hplace]
      constructor
      · exact ⟨_, List.getElem?_concat_length, rfl⟩
      · intro found link hlink _
        obtain ⟨-, hlt⟩ | ⟨heq, -⟩ := found_chain hlink
        · exact Nat.le_of_lt hlt
        · exact Nat.le_of_eq heq
    · have hbefore : c.tail other = some place :=
        (Function.update_of_ne hsame _ _).symm.trans htail
      obtain ⟨⟨link, hlink, hkey⟩, hlast⟩ := h.last other place hbefore
      refine ⟨⟨link, getElem?_chain key op hlink, hkey⟩, fun found next hnext hnextKey => ?_⟩
      obtain ⟨hold, -⟩ | ⟨-, rfl⟩ := found_chain hnext
      · exact hlast found next hold hnextKey
      · exact absurd hnextKey.symm hsame
  free := by
    intro other htail
    have hsame : other ≠ key := by
      rintro rfl
      cases (Function.update_self other _ _).symm.trans htail
    have hfree := h.free other ((Function.update_of_ne hsame _ _).symm.trans htail)
    intro place earlier _ hearlier hkey
    obtain ⟨hbefore, hlt⟩ | ⟨-, rfl⟩ := found_chain hearlier
    · exact hfree place earlier hlt hbefore hkey
    · exact absurd hkey.symm hsame
  first := by
    intro place link hlink hprev
    obtain ⟨hbefore, hlt⟩ | ⟨heq, rfl⟩ := found_chain hlink
    · exact earlierSettled_chain (Nat.le_of_lt hlt) (h.first place link hbefore hprev)
    · rw [heq]
      exact earlierSettled_chain (Nat.le_refl _) (h.free key hprev)
  behind := by
    intro place link awaited hlink hprev
    obtain ⟨hbefore, hlt⟩ | ⟨heq, rfl⟩ := found_chain hlink
    · obtain ⟨⟨earlier, hearlier, hkey⟩, hlast⟩ := h.behind place link awaited hbefore hprev
      refine ⟨⟨earlier, getElem?_chain key op hearlier, hkey⟩,
        fun other found hother hfound hfoundKey => ?_⟩
      obtain ⟨hold, -⟩ | ⟨hnew, -⟩ := found_chain hfound
      · exact hlast other found hother hold hfoundKey
      · omega
    · obtain ⟨⟨earlier, hearlier, hkey⟩, hlast⟩ := h.last key awaited hprev
      refine ⟨⟨earlier, getElem?_chain key op hearlier, hkey⟩,
        fun other found hother hfound hfoundKey => ?_⟩
      obtain ⟨hold, -⟩ | ⟨hnew, -⟩ := found_chain hfound
      · exact hlast other found hold hfoundKey
      · omega

/-- A tail that has settled is forgotten. -/
theorem Chains.Serial.forget {c : Chains K O} (h : c.Serial) {key : K} {id : ℕ}
    (htail : c.tail key = some id) (hsettled : c.isSettled id = true) : (c.forget key).Serial where
  order := h.order
  last := by
    intro other place hother
    have hne : other ≠ key := by
      rintro rfl
      cases (Function.update_self other _ _).symm.trans hother
    exact h.last other place ((Function.update_of_ne hne _ _).symm.trans hother)
  free := by
    intro other hother
    by_cases hsame : other = key
    · obtain ⟨⟨link, hlink, hkey⟩, hlast⟩ := h.last key id htail
      have hstage : link.stage = .settled := by
        simpa [Chains.isSettled, hlink] using hsettled
      intro place earlier hplace hearlier hearlierKey
      rw [hsame] at hearlierKey
      obtain hlt | heq := Nat.lt_or_eq_of_le (hlast place earlier hearlier hearlierKey)
      · have hstarted : link.stage ≠ .waiting := hstage ▸ LinkStage.noConfusion
        exact h.order id link hlink hstarted place earlier hlt hearlier
          (hearlierKey.trans hkey.symm)
      · have hfound : c.links[place]? = some earlier := hearlier
        rw [heq, hlink, Option.some.injEq] at hfound
        rw [← hfound]
        exact hstage
    · exact h.free other ((Function.update_of_ne hsame _ _).symm.trans hother)
  first := h.first
  behind := h.behind

/-! ## What has still to take place -/

/-- An operation that is chained has to take place after the others of its key. -/
theorem pending_chain (c : Chains K O) (key other : K) (op : O) :
    (c.chain key op).pending other = c.pending other ++ if other = key then [op] else [] := by
  have hlinks : (c.chain key op).links = c.links ++ [⟨key, op, c.tail key, .waiting⟩] := rfl
  rw [Chains.pending, hlinks, List.filter_append, List.map_append]
  congr 1
  by_cases hsame : other = key
  · simp [hsame, LinkStage.isPending]
  · have hne : key ≠ other := fun heq => hsame heq.symm
    simp [hsame, hne]

omit [DecidableEq K] in
/-- The operations around one of them. -/
theorem split_links {c : Chains K O} {id : ℕ} {link : Link K O} (h : c.links[id]? = some link) :
    c.links = c.links.take id ++ link :: c.links.drop (id + 1) ∧
      ∀ stage, (c.setStage id stage).links =
        c.links.take id ++ { link with stage := stage } :: c.links.drop (id + 1) := by
  obtain ⟨hlt, hget⟩ := List.getElem?_eq_some_iff.mp h
  constructor
  · rw [← hget, List.getElem_cons_drop, List.take_append_drop]
  · intro stage
    rw [Chains.setStage, List.modify_eq_take_cons_drop hlt, hget]

/-- An operation whose stage changes without taking place has still to take place, or has
not. -/
theorem pending_setStage {c : Chains K O} {id : ℕ} {link : Link K O} (stage : LinkStage)
    (hlink : c.links[id]? = some link) (hstage : link.stage.isPending = stage.isPending)
    (key : K) : (c.setStage id stage).pending key = c.pending key := by
  obtain ⟨hbefore, hafter⟩ := split_links hlink
  rw [Chains.pending, Chains.pending, hafter stage]
  conv_rhs => rw [hbefore]
  simp only [List.filter_append, List.filter_cons, List.map_append, hstage]
  split <;> rfl

/-- An operation of another key takes place. -/
theorem pending_setStage_other {c : Chains K O} {id : ℕ} {link : Link K O} (stage : LinkStage)
    (hlink : c.links[id]? = some link) {key : K} (hkey : link.key ≠ key) :
    (c.setStage id stage).pending key = c.pending key := by
  obtain ⟨hbefore, hafter⟩ := split_links hlink
  rw [Chains.pending, Chains.pending, hafter stage]
  conv_rhs => rw [hbefore]
  simp only [List.filter_append, List.filter_cons, List.map_append, hkey, false_and, decide_false,
    Bool.false_eq_true, if_false]

/-- Of the operations of a key that have still to take place, the first one does. -/
theorem Chains.Serial.pending_execute {c : Chains K O} (h : c.Serial) {id : ℕ} {link : Link K O}
    (hlink : c.links[id]? = some link) (hrunning : link.stage = .running) :
    c.pending link.key = link.op :: (c.setStage id .executed).pending link.key := by
  have hstarted : link.stage ≠ .waiting := hrunning ▸ LinkStage.noConfusion
  have hearlier := h.order id link hlink hstarted
  obtain ⟨hbefore, hafter⟩ := split_links hlink
  have hnone : (c.links.take id).filter (fun earlier =>
      decide (earlier.key = link.key ∧ earlier.stage.isPending = true)) = [] := by
    refine List.filter_eq_nil_iff.mpr fun earlier hmem hpending => ?_
    obtain ⟨place, hplace⟩ := List.mem_iff_getElem?.mp hmem
    rw [List.getElem?_take] at hplace
    split at hplace
    next hlt =>
      obtain ⟨hkey, hstage⟩ := of_decide_eq_true hpending
      rw [hearlier place earlier hlt hplace hkey] at hstage
      cases hstage
    next => cases hplace
  have hnow : link.stage.isPending = true := by rw [hrunning]; rfl
  have hdone : LinkStage.executed.isPending = false := rfl
  rw [Chains.pending, Chains.pending, hafter .executed]
  conv_lhs => rw [hbefore]
  simp only [List.filter_append, List.filter_cons, hnone, hnow, hdone, true_and, and_self,
    decide_true, if_true, Bool.false_eq_true, decide_false, if_false, List.nil_append,
    List.map_cons]

end FactoryServer.SerialChains
