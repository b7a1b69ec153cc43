import Mathlib.Data.List.Nodup

/-!
# Followers of a chain of versions

A value moves through distinct versions. Each update names the version it was made
from and the version it leads to. A follower that holds a version applies an update
only if it was made from that version. However updates are delivered, lost, repeated
or reordered, the follower that holds the last version has applied every update.
-/

namespace FactoryServer.VersionChains

/-- An update from one version to another. -/
structure Update (V : Type) where
  /-- The version it was made from. -/
  previous : V
  /-- The version it leads to. -/
  current : V

variable {V : Type}

/-- The update leads from a version to the next. -/
def Consecutive (versions : List V) (u : Update V) : Prop :=
  ∃ before after, versions = before ++ u.previous :: u.current :: after

/-- The place of an element of a list without repetition is determined. -/
theorem split_unique {past before future after : List V} {v : V}
    (hnodup : (past ++ v :: future).Nodup) (heq : past ++ v :: future = before ++ v :: after) :
    future = after := by
  induction past generalizing before with
  | nil =>
    cases before with
    | nil => exact (List.cons.inj heq).2
    | cons u before =>
      obtain ⟨rfl, htail⟩ := List.cons.inj heq
      have hfresh := (List.nodup_cons.mp hnodup).1
      rw [htail] at hfresh
      exact absurd (List.mem_append_right _ List.mem_cons_self) hfresh
  | cons u past ih =>
    obtain ⟨hfresh, hrest⟩ := List.nodup_cons.mp hnodup
    cases before with
    | nil =>
      obtain ⟨rfl, -⟩ := List.cons.inj heq
      exact absurd (List.mem_append_right _ List.mem_cons_self) hfresh
    | cons u' before => exact ih hrest (List.cons.inj heq).2

section Follower

variable [DecidableEq V]

/-- The follower applies an update that was made from the version it holds. -/
def follow (held : V) (u : Update V) : V := if u.previous = held then u.current else held

/-- The updates that a follower applies. -/
def applied : V → List (Update V) → List (Update V)
  | _, [] => []
  | held, u :: rest =>
    if u.previous = held then u :: applied u.current rest else applied held rest

/-- A follower that holds the last version has applied an update to every version
after its first. -/
theorem caught_up {versions past future : List V} {held : V} {updates : List (Update V)}
    (hnodup : versions.Nodup) (hsplit : versions = past ++ held :: future)
    (hupdates : ∀ u ∈ updates, Consecutive versions u)
    (hlast : versions.getLast? = some (updates.foldl follow held)) :
    ∀ v ∈ future, ∃ u ∈ applied held updates, u.current = v := by
  induction updates generalizing past held future with
  | nil =>
    intro v hv
    obtain ⟨init, hinit⟩ := List.getLast?_eq_some_iff.mp hlast
    have hempty : future = [] :=
      split_unique (hsplit ▸ hnodup) (hsplit.symm.trans hinit)
    rw [hempty] at hv
    exact absurd hv List.not_mem_nil
  | cons u rest ih =>
    have hrest : ∀ w ∈ rest, Consecutive versions w := fun w hw =>
      hupdates w (List.mem_cons_of_mem u hw)
    rw [List.foldl_cons] at hlast
    by_cases hu : u.previous = held
    · obtain ⟨before, after, hconsecutive⟩ := hupdates u List.mem_cons_self
      rw [hu] at hconsecutive
      have hfuture : future = u.current :: after :=
        split_unique (hsplit ▸ hnodup) (hsplit.symm.trans hconsecutive)
      have hnext : versions = (past ++ [held]) ++ u.current :: after := by
        rw [hsplit, hfuture, List.append_assoc]
        rfl
      have hfollow : follow held u = u.current := if_pos hu
      have happlied : applied held (u :: rest) = u :: applied u.current rest := if_pos hu
      rw [hfollow] at hlast
      intro v hv
      rw [happlied]
      rw [hfuture] at hv
      rcases List.mem_cons.mp hv with rfl | hlater
      · exact ⟨u, List.mem_cons_self, rfl⟩
      · obtain ⟨w, hw, hcurrent⟩ := ih hnext hrest hlast v hlater
        exact ⟨w, List.mem_cons_of_mem u hw, hcurrent⟩
    · have hfollow : follow held u = held := if_neg hu
      have happlied : applied held (u :: rest) = applied held rest := if_neg hu
      rw [hfollow] at hlast
      intro v hv
      rw [happlied]
      exact ih hsplit hrest hlast v hv

end Follower

end FactoryServer.VersionChains
