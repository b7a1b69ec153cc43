import Mathlib.Data.List.Basic

/-!
# Transactions with savepoints

The transaction of one SQL session over an arbitrary content: what it has
changed so far, the stack of savepoints with the content each would restore,
and the flag a failed statement sets. Every operation here touches the
content only through that stack, so a property that all its contents share is
kept by savepoint traffic; statements are the only source of change.
-/

namespace FactoryServer.SqlTransaction

/-- An open transaction. The newest savepoint comes first. -/
structure Tx (C : Type) where
  /-- Current content. -/
  content : C
  /-- Savepoints by name, with the content to go back to. -/
  savepoints : List (String × C)
  /-- A statement failed: everything but a rollback is refused. -/
  aborted : Bool

variable {C : Type}

/-- `BEGIN`. -/
def Tx.start (content : C) : Tx C := ⟨content, [], false⟩

/-- The savepoint of a name and the older ones. -/
def Tx.from (t : Tx C) (name : String) : List (String × C) :=
  t.savepoints.dropWhile fun p => p.1 != name

/-- `SAVEPOINT name`. -/
def Tx.savepoint (t : Tx C) (name : String) : Tx C :=
  { t with savepoints := (name, t.content) :: t.savepoints }

/-- `RELEASE SAVEPOINT name`: the savepoint and the newer ones go. -/
def Tx.releaseSavepoint (t : Tx C) (name : String) : Option (Tx C) :=
  match t.from name with
  | [] => none
  | _ :: older => some { t with savepoints := older }

/-- `ROLLBACK TO SAVEPOINT name`: the savepoint itself stays, and the
transaction is usable again. -/
def Tx.rollbackTo (t : Tx C) (name : String) : Option (Tx C) :=
  match t.from name with
  | [] => none
  | p :: older => some ⟨p.2, p :: older, false⟩

/-- A statement failed. -/
def Tx.abort (t : Tx C) : Tx C := { t with aborted := true }

/-- Replace the content. -/
def Tx.write (t : Tx C) (content : C) : Tx C := { t with content := content }

/-- Every content the transaction can get back to satisfies `P`. -/
def Tx.All (P : C → Prop) (t : Tx C) : Prop :=
  P t.content ∧ ∀ p ∈ t.savepoints, P p.2

section All

variable {P : C → Prop} {t : Tx C} {name : String}

theorem Tx.all_start {c : C} (h : P c) : (Tx.start c).All P := ⟨h, by simp [Tx.start]⟩

theorem Tx.All.savepoint (h : t.All P) : (t.savepoint name).All P := by
  refine ⟨h.1, fun p hp => ?_⟩
  rcases List.mem_cons.mp hp with rfl | hp
  · exact h.1
  · exact h.2 p hp

theorem Tx.mem_from {p : String × C} (h : p ∈ t.from name) : p ∈ t.savepoints :=
  (List.dropWhile_sublist _).subset h

theorem Tx.All.releaseSavepoint {t' : Tx C} (h : t.All P)
    (hr : t.releaseSavepoint name = some t') : t'.All P := by
  unfold Tx.releaseSavepoint at hr
  cases hf : t.from name with
  | nil => simp [hf] at hr
  | cons p older =>
    rw [hf] at hr
    cases hr
    exact ⟨h.1, fun q hq => h.2 q (Tx.mem_from (hf ▸ List.mem_cons_of_mem p hq))⟩

theorem Tx.All.rollbackTo {t' : Tx C} (h : t.All P) (hr : t.rollbackTo name = some t') :
    t'.All P := by
  unfold Tx.rollbackTo at hr
  cases hf : t.from name with
  | nil => simp [hf] at hr
  | cons p older =>
    rw [hf] at hr
    cases hr
    have hmem : ∀ q ∈ p :: older, P q.2 := fun q hq => h.2 q (Tx.mem_from (hf ▸ hq))
    exact ⟨hmem p List.mem_cons_self, hmem⟩

theorem Tx.All.abort (h : t.All P) : t.abort.All P := h

theorem Tx.All.write (h : t.All P) {c : C} (hc : P c) : (t.write c).All P := ⟨hc, h.2⟩

end All

end FactoryServer.SqlTransaction
