import Mathlib.Data.List.Basic

/-!
# Handing on in lanes

Items are accepted in an order and handed on later, one at a time. An item belongs to
some lanes. Where an item is handed on only when no item that was accepted before it
and still waits shares a lane with it, every lane is handed on in the order in which it
was accepted, without gaps.
-/

namespace FactoryServer.LaneOrder

variable {α κ : Type} (on : κ → α → Bool)

/-- In every lane, what was handed on and then what waits is what was accepted. -/
def InLanes (accepted waiting handed : List α) : Prop :=
  ∀ lane, accepted.filter (on lane) = handed.filter (on lane) ++ waiting.filter (on lane)

/-- No waiting item before this one shares a lane with it. -/
def FirstInLanes (before : List α) (item : α) : Prop :=
  ∀ lane, on lane item = true → ∀ earlier ∈ before, on lane earlier = false

variable {on} {accepted waiting handed : List α}

theorem inLanes_nil : InLanes on [] [] [] := fun _ => rfl

/-- Items are accepted behind all others. -/
theorem InLanes.accept (h : InLanes on accepted waiting handed) (items : List α) :
    InLanes on (accepted ++ items) (waiting ++ items) handed := by
  intro lane
  rw [List.filter_append, List.filter_append, h lane, List.append_assoc]

/-- A change that keeps what waits in every lane. -/
theorem InLanes.congr (h : InLanes on accepted waiting handed) {waiting' : List α}
    (hsame : ∀ lane, waiting'.filter (on lane) = waiting.filter (on lane)) :
    InLanes on accepted waiting' handed := by
  intro lane
  rw [hsame lane]
  exact h lane

/-- The first item of all its lanes is handed on. -/
theorem InLanes.hand {before after : List α} {item : α}
    (h : InLanes on accepted (before ++ item :: after) handed)
    (hfirst : FirstInLanes on before item) :
    InLanes on accepted (before ++ after) (handed ++ [item]) := by
  intro lane
  rw [h lane, List.filter_append, List.filter_append, List.filter_append, List.append_assoc]
  congr 1
  by_cases hlane : on lane item = true
  · have hbefore : before.filter (on lane) = [] := by
      rw [List.filter_eq_nil_iff]
      intro earlier he
      rw [hfirst lane hlane earlier he]
      exact Bool.false_ne_true
    rw [hbefore, List.filter_cons_of_pos hlane, List.filter_cons_of_pos hlane, List.filter_nil]
    rfl
  · rw [List.filter_cons_of_neg hlane, List.filter_cons_of_neg hlane, List.filter_nil,
      List.nil_append]

/-- Every lane has been handed on as it was accepted, up to some item. -/
theorem InLanes.handed_prefix (h : InLanes on accepted waiting handed) (lane : κ) :
    handed.filter (on lane) <+: accepted.filter (on lane) :=
  ⟨waiting.filter (on lane), (h lane).symm⟩

end FactoryServer.LaneOrder
