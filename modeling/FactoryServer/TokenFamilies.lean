import FactoryServer.RefreshTokens
import Mathlib.Data.List.Nodup

/-!
# Families of refresh tokens

A rotation reads a token, creates its successor and revokes it, in three storage
calls without a transaction. Its family keeps a single live token as long as no
other call acts on the family in between: a second rotation of the same token, a
revocation before the successor exists, or a failure before the old token is
revoked each leave a live token too many.
-/

namespace FactoryServer.TokenFamilies

open GuardedRuns RefreshTokens

variable {ι : Type}

/-! ## The stages of a call -/

/-- The row a call has found. -/
def row? : Stage → Option RefreshTokenRow
  | .reused row => some row
  | .creating row _ _ => some row
  | .linking row _ _ => some row
  | .revoking row => some row
  | _ => none

/-- The row a call rotates. -/
def rotated? : Stage → Option RefreshTokenRow
  | .creating row _ _ => some row
  | .linking row _ _ => some row
  | _ => none

/-- The row whose successor is created and that is still to be revoked. -/
def linked? : Stage → Option RefreshTokenRow
  | .linking row _ _ => some row
  | _ => none

/-- The row whose successor is still to be created. -/
def creating? : Stage → Option RefreshTokenRow
  | .creating row _ _ => some row
  | _ => none

/-- The family a call is about to found. -/
def founds? : Stage → Option ℕ
  | .issuing _ input => some input.familyId
  | _ => none

/-! ## What is claimed -/

/-- No call is running. -/
def Quiet (s : State ι) : Prop := ∀ c, ∃ outcome, s.calls c = .concluded outcome

/-- Every token of the family is revoked. -/
def Dead (s : State ι) (familyId : ℕ) : Prop :=
  ∀ row ∈ s.rows, row.familyId = familyId → row.revokedAt ≠ none

/-- The promises of the rotation. -/
structure Safe (s : State ι) : Prop where
  /-- When no call is running, a family has at most one live token. -/
  single : Quiet s → ∀ a ∈ s.rows, ∀ b ∈ s.rows, a.familyId = b.familyId →
    a.revokedAt = none → b.revokedAt = none → a = b
  /-- Each token is exchanged at most once. -/
  once : s.exchanged.Nodup
  /-- A family that has ended has no live token. -/
  ended : ∀ familyId ∈ s.ended, Dead s familyId

/-! ## The condition -/

/-- No call rotates the token. -/
def Unrotated (s : State ι) (tokenId : ℕ) : Prop :=
  ∀ d row, rotated? (s.calls d) = some row → row.tokenId ≠ tokenId

/-- No call is about to create the successor of such a token. -/
def NoneCreating (s : State ι) (p : RefreshTokenRow → Prop) : Prop :=
  ∀ d row, creating? (s.calls d) = some row → ¬ p row

/-- A logout revokes the only live token of its family, or the family is dead. -/
def EndsFamily (s : State ι) (row : RefreshTokenRow) : Prop :=
  Dead s row.familyId ∨ ((∃ live ∈ s.rows, live.tokenId = row.tokenId ∧ live.revokedAt = none) ∧
    ∀ d other, rotated? (s.calls d) = some other → other.familyId ≠ row.familyId)

/-- A storage call of the stage that is executed disturbs no other call. -/
def ExecutesAlone (hash : String → String) (s : State ι) : Stage → Prop
  | .rotating presented _ => ∀ row, s.findByHash (hash presented) = some row →
      row.revokedAt = none → s.clock < row.expiresAt → Unrotated s row.tokenId
  | .reused row => NoneCreating s fun other => other.familyId = row.familyId
  | .revokingAll userId => NoneCreating s fun other => other.userId = userId
  | .loggingOut presented => ∀ row, s.findByHash (hash presented) = some row →
      row.revokedAt ≠ none → Dead s row.familyId
  | .revoking row => EndsFamily s row
  | _ => True

/-- The step disturbs no rotation: no second rotation of a token, no revocation before
a successor exists, and no failure that loses one of the last two storage calls of a
rotation or the revocation of a family. -/
def Undisturbed (hash : String → String) (s : State ι) : TokenAction ι → Prop
  | .tick _ => True
  | .start _ _ _ => True
  | .deliver c .answered _ => ExecutesAlone hash s (s.calls c)
  | .deliver c .refused _ => linked? (s.calls c) = none ∧ ∀ row, s.calls c ≠ .reused row
  | .deliver c .lost _ => creating? (s.calls c) = none ∧ ExecutesAlone hash s (s.calls c)

/-! ## The invariant -/

/-- The row is in the table, revoked meanwhile or not. -/
def Stored (s : State ι) (row : RefreshTokenRow) : Prop :=
  ∃ held ∈ s.rows, held.tokenId = row.tokenId ∧ held.tokenHash = row.tokenHash ∧
    held.familyId = row.familyId ∧ held.userId = row.userId

/-- The token is waiting to be revoked in favour of its successor. -/
def Pending (s : State ι) (tokenId : ℕ) : Prop :=
  ∃ c row, linked? (s.calls c) = some row ∧ row.tokenId = tokenId

/-- What holds after every undisturbed step. -/
structure Inv (s : State ι) : Prop where
  ids : ∀ a ∈ s.rows, ∀ b ∈ s.rows, a.tokenId = b.tokenId → a = b
  fresh : ∀ row ∈ s.rows, row.tokenId < s.nextTokenId
  hashes : ∀ a ∈ s.rows, ∀ b ∈ s.rows, a.tokenHash = b.tokenHash → a = b
  families : ∀ row ∈ s.rows, row.familyId < s.nextFamilyId
  owner : ∀ a ∈ s.rows, ∀ b ∈ s.rows, a.familyId = b.familyId → a.userId = b.userId
  founds : ∀ c familyId, founds? (s.calls c) = some familyId →
    familyId < s.nextFamilyId ∧ (∀ row ∈ s.rows, row.familyId ≠ familyId) ∧
    ∀ d, founds? (s.calls d) = some familyId → d = c
  stored : ∀ c row, row? (s.calls c) = some row → Stored s row
  /-- A token that is rotated has not been exchanged yet. -/
  unexchanged : ∀ c row, rotated? (s.calls c) = some row → row.tokenHash ∉ s.exchanged
  /-- A token whose successor is about to be created is live. -/
  live : ∀ c row next input, s.calls c = .creating row next input →
    input.familyId = row.familyId ∧ input.userId = row.userId ∧
    ∃ held ∈ s.rows, held.tokenId = row.tokenId ∧ held.revokedAt = none
  alone : ∀ c d row other, rotated? (s.calls c) = some row → rotated? (s.calls d) = some other →
    row.tokenId = other.tokenId → c = d
  /-- A family has at most one live token that is not waiting to be revoked. -/
  heads : ∀ a ∈ s.rows, ∀ b ∈ s.rows, a.familyId = b.familyId → a.revokedAt = none →
    b.revokedAt = none → ¬ Pending s a.tokenId → ¬ Pending s b.tokenId → a = b
  exchanged : ∀ tokenHash ∈ s.exchanged,
    ∃ row ∈ s.rows, row.tokenHash = tokenHash ∧ row.revokedAt ≠ none
  once : s.exchanged.Nodup
  ended : ∀ familyId ∈ s.ended, (∃ row ∈ s.rows, row.familyId = familyId) ∧ Dead s familyId

/-- The invariant makes good on the promises. -/
theorem Inv.safe {s : State ι} (h : Inv s) : Safe s where
  single hquiet a ha b hb hf hla hlb := by
    have hpending : ∀ tokenId, ¬ Pending s tokenId := by
      rintro tokenId ⟨c, row, hlinked, -⟩
      obtain ⟨outcome, hover⟩ := hquiet c
      rw [hover] at hlinked
      cases hlinked
    exact h.heads a ha b hb hf hla hlb (hpending _) (hpending _)
  once := h.once
  ended familyId hf := (h.ended familyId hf).2

theorem inv_initial : Inv (State.initial : State ι) where
  ids a ha := by cases ha
  fresh row hrow := by cases hrow
  hashes a ha := by cases ha
  families row hrow := by cases hrow
  owner a ha := by cases ha
  founds c familyId h := by cases h
  stored c row h := by cases h
  unexchanged c row h := by cases h
  live c row next input h := by cases h
  alone c d row other h := by cases h
  heads a ha := by cases ha
  exchanged tokenHash h := by cases h
  once := List.nodup_nil
  ended familyId h := by cases h

/-! ## Revocations -/

theorem mem_revokeWhere {s : State ι} {selected : RefreshTokenRow → Bool} {replacedBy : Option ℕ}
    {row : RefreshTokenRow} :
    row ∈ (s.revokeWhere selected replacedBy).rows ↔
      ∃ held ∈ s.rows, revokeRow s.clock selected replacedBy held = row :=
  List.mem_map

/-- A revocation that spares the tokens whose successors are still to be created. -/
theorem inv_revokeWhere {s : State ι} (h : Inv s) {selected : RefreshTokenRow → Bool}
    (replacedBy : Option ℕ)
    (hspares : ∀ c row, creating? (s.calls c) = some row →
      ∀ held ∈ s.rows, held.tokenId = row.tokenId → selected held = false) :
    Inv (s.revokeWhere selected replacedBy) := by
  let f := revokeRow s.clock selected replacedBy
  constructor
  · intro a ha b hb hid
    obtain ⟨r, hr, rfl⟩ := mem_revokeWhere.mp ha
    obtain ⟨q, hq, rfl⟩ := mem_revokeWhere.mp hb
    have hab : r = q := h.ids r hr q hq (by simpa using hid)
    rw [hab]
  · intro row hrow
    obtain ⟨r, hr, rfl⟩ := mem_revokeWhere.mp hrow
    have hlt := h.fresh r hr
    simpa using hlt
  · intro a ha b hb hhash
    obtain ⟨r, hr, rfl⟩ := mem_revokeWhere.mp ha
    obtain ⟨q, hq, rfl⟩ := mem_revokeWhere.mp hb
    have hab : r = q := h.hashes r hr q hq (by simpa using hhash)
    rw [hab]
  · intro row hrow
    obtain ⟨r, hr, rfl⟩ := mem_revokeWhere.mp hrow
    have hlt := h.families r hr
    simpa using hlt
  · intro a ha b hb hfamily
    obtain ⟨r, hr, rfl⟩ := mem_revokeWhere.mp ha
    obtain ⟨q, hq, rfl⟩ := mem_revokeWhere.mp hb
    have huser := h.owner r hr q hq (by simpa using hfamily)
    simpa using huser
  · intro c familyId hc
    obtain ⟨hlt, hnone, hone⟩ := h.founds c familyId hc
    refine ⟨hlt, fun row hrow => ?_, hone⟩
    obtain ⟨r, hr, rfl⟩ := mem_revokeWhere.mp hrow
    simpa using hnone r hr
  · intro c row hc
    obtain ⟨held, hheld, hid⟩ := h.stored c row hc
    exact ⟨f held, List.mem_map_of_mem hheld, by simpa [f] using hid⟩
  · exact h.unexchanged
  · intro c row next input hc
    obtain ⟨hfamily, huser, held, hheld, hid, hlive⟩ := h.live c row next input hc
    have hstage : s.calls c = .creating row next input := hc
    have hcreating : creating? (s.calls c) = some row := by rw [hstage]; rfl
    have hspared := hspares c row hcreating held hheld hid
    exact ⟨hfamily, huser, f held, List.mem_map_of_mem hheld, by simpa [f] using hid,
      by simp [f, hlive, hspared]⟩
  · exact h.alone
  · intro a ha b hb hfamily hla hlb hpa hpb
    obtain ⟨r, hr, rfl⟩ := mem_revokeWhere.mp ha
    obtain ⟨q, hq, rfl⟩ := mem_revokeWhere.mp hb
    rw [revokeRow_live] at hla hlb
    rw [revokeRow_tokenId] at hpa hpb
    have hab : r = q := h.heads r hr q hq (by simpa using hfamily) hla.1 hlb.1 hpa hpb
    rw [hab]
  · intro tokenHash hmem
    obtain ⟨row, hrow, hhash, hrevoked⟩ := h.exchanged tokenHash hmem
    refine ⟨f row, List.mem_map_of_mem hrow, by simpa [f] using hhash, ?_⟩
    simp [f, hrevoked]
  · exact h.once
  · intro familyId hmem
    obtain ⟨⟨row, hrow, hfamily⟩, hdead⟩ := h.ended familyId hmem
    refine ⟨⟨f row, List.mem_map_of_mem hrow, by simpa [f] using hfamily⟩, fun other hother => ?_⟩
    obtain ⟨r, hr, rfl⟩ := mem_revokeWhere.mp hother
    intro hother'
    have hd := hdead r hr (by simpa using hother')
    simp [hd]

/-- A revocation leaves no live token among those it selects. -/
theorem dead_revokeWhere {s : State ι} {selected : RefreshTokenRow → Bool} {familyId : ℕ}
    (replacedBy : Option ℕ)
    (h : ∀ row ∈ s.rows, row.familyId = familyId → row.revokedAt = none → selected row = true) :
    Dead (s.revokeWhere selected replacedBy) familyId := by
  intro row hrow hfamily hlive
  obtain ⟨r, hr, rfl⟩ := mem_revokeWhere.mp hrow
  rw [revokeRow_live] at hlive
  have hsel := h r hr (by simpa using hfamily) hlive.1
  rw [hlive.2] at hsel
  cases hsel

/-! ## Moving a call -/

section Calls

variable [DecidableEq ι]

@[simp] theorem setCall_self (s : State ι) (c : ι) (stage : Stage) :
    (s.setCall c stage).calls c = stage :=
  Function.update_self ..

@[simp] theorem setCall_of_ne (s : State ι) {c d : ι} (h : d ≠ c) (stage : Stage) :
    (s.setCall c stage).calls d = s.calls d :=
  Function.update_of_ne h ..

/-- What a stage must satisfy for a call to move there. -/
structure Enters (s : State ι) (c : ι) (stage : Stage) : Prop where
  stored : ∀ row, row? stage = some row → Stored s row
  unexchanged : ∀ row, rotated? stage = some row → row.tokenHash ∉ s.exchanged
  live : ∀ row next input, stage = .creating row next input →
    input.familyId = row.familyId ∧ input.userId = row.userId ∧
    ∃ held ∈ s.rows, held.tokenId = row.tokenId ∧ held.revokedAt = none
  alone : ∀ d row other, rotated? stage = some row → rotated? (s.calls d) = some other →
    row.tokenId = other.tokenId → d = c
  founds : ∀ familyId, founds? stage = some familyId →
    familyId < s.nextFamilyId ∧ (∀ row ∈ s.rows, row.familyId ≠ familyId) ∧
    ∀ d, founds? (s.calls d) = some familyId → d = c

omit [DecidableEq ι] in
theorem enters_over (s : State ι) (c : ι) (outcome : Option Outcome) :
    Enters s c (.concluded outcome) where
  stored row h := by cases h
  unexchanged row h := by cases h
  live row next input h := by cases h
  alone d row other h := by cases h
  founds familyId h := by cases h

/-- A call moves on, unless it leaves a live token behind that it was to revoke. -/
theorem inv_setCall {s : State ι} (h : Inv s) {c : ι} {stage : Stage} (hstage : Enters s c stage)
    (hdone : ∀ row, linked? (s.calls c) = some row →
      ∀ held ∈ s.rows, held.tokenId = row.tokenId → held.revokedAt ≠ none) :
    Inv (s.setCall c stage) := by
  constructor
  · exact h.ids
  · exact h.fresh
  · exact h.hashes
  · exact h.families
  · exact h.owner
  · intro d familyId hd
    by_cases hdc : d = c
    · subst hdc
      rw [setCall_self] at hd
      obtain ⟨hlt, hnone, hone⟩ := hstage.founds familyId hd
      refine ⟨hlt, hnone, fun e he => ?_⟩
      by_cases hed : e = d
      · exact hed
      · rw [setCall_of_ne s hed] at he
        exact hone e he
    · rw [setCall_of_ne s hdc] at hd
      obtain ⟨hlt, hnone, hone⟩ := h.founds d familyId hd
      refine ⟨hlt, hnone, fun e he => ?_⟩
      by_cases hec : e = c
      · subst hec
        rw [setCall_self] at he
        exact ((hstage.founds familyId he).2.2 d hd).symm
      · rw [setCall_of_ne s hec] at he
        exact hone e he
  · intro d row hd
    by_cases hdc : d = c
    · subst hdc
      rw [setCall_self] at hd
      exact hstage.stored row hd
    · rw [setCall_of_ne s hdc] at hd
      exact h.stored d row hd
  · intro d row hd
    by_cases hdc : d = c
    · subst hdc
      rw [setCall_self] at hd
      exact hstage.unexchanged row hd
    · rw [setCall_of_ne s hdc] at hd
      exact h.unexchanged d row hd
  · intro d row next input hd
    by_cases hdc : d = c
    · subst hdc
      rw [setCall_self] at hd
      exact hstage.live row next input hd
    · rw [setCall_of_ne s hdc] at hd
      exact h.live d row next input hd
  · intro d e row other hd he hid
    by_cases hdc : d = c
    · subst hdc
      by_cases hec : e = d
      · exact hec.symm
      · rw [setCall_self] at hd
        rw [setCall_of_ne s hec] at he
        exact (hstage.alone e row other hd he hid).symm
    · rw [setCall_of_ne s hdc] at hd
      by_cases hec : e = c
      · subst hec
        rw [setCall_self] at he
        exact hstage.alone d other row he hd hid.symm
      · rw [setCall_of_ne s hec] at he
        exact h.alone d e row other hd he hid
  · intro a ha b hb hfamily hla hlb hpa hpb
    have hpending : ∀ r ∈ s.rows, r.revokedAt = none → ¬ Pending (s.setCall c stage) r.tokenId →
        ¬ Pending s r.tokenId := by
      rintro r hr hlive hnot ⟨d, row, hd, hid⟩
      by_cases hdc : d = c
      · subst hdc
        exact hdone row hd r hr hid.symm hlive
      · exact hnot ⟨d, row, by rwa [setCall_of_ne s hdc], hid⟩
    exact h.heads a ha b hb hfamily hla hlb (hpending a ha hla hpa) (hpending b hb hlb hpb)
  · exact h.exchanged
  · exact h.once
  · exact h.ended

/-- A call that revokes nothing ends. -/
theorem inv_over {s : State ι} (h : Inv s) {c : ι} (hc : linked? (s.calls c) = none)
    (outcome : Option Outcome) : Inv (s.setCall c (.concluded outcome)) := by
  refine inv_setCall h (enters_over s c outcome) fun row hrow => ?_
  rw [hc] at hrow
  cases hrow

end Calls

/-! ## The histories -/

/-- A dead family has ended. -/
theorem inv_ended {s : State ι} (h : Inv s) {families : List ℕ}
    (hfamilies : ∀ familyId ∈ families,
      (∃ row ∈ s.rows, row.familyId = familyId) ∧ Dead s familyId) :
    Inv { s with ended := s.ended ++ families } where
  __ := h
  ended familyId hmem := by
    rcases List.mem_append.mp hmem with hmem | hmem
    · exact h.ended familyId hmem
    · exact hfamilies familyId hmem

/-- A revoked token that no call rotates has been exchanged. -/
theorem inv_exchanged {s : State ι} (h : Inv s) {row : RefreshTokenRow} (hrow : row ∈ s.rows)
    (hrevoked : row.revokedAt ≠ none) (hnew : row.tokenHash ∉ s.exchanged)
    (hfree : Unrotated s row.tokenId) :
    Inv { s with exchanged := s.exchanged ++ [row.tokenHash] } where
  __ := h
  unexchanged c other hc hmem := by
    rcases List.mem_append.mp hmem with hmem | hmem
    · exact h.unexchanged c other hc hmem
    · have hrow? : row? (s.calls c) = some other := by
        cases hs : s.calls c with
        | creating r next input => rw [hs] at hc; exact hc
        | linking r next created => rw [hs] at hc; exact hc
        | _ => rw [hs] at hc; cases hc
      obtain ⟨held, hheld, hid, hhash, -⟩ := h.stored c other hrow?
      have hsame : held = row :=
        h.hashes held hheld row hrow (hhash.trans (List.mem_singleton.mp hmem))
      exact hfree c other hc (by rw [← hid, hsame])
  exchanged tokenHash hmem := by
    rcases List.mem_append.mp hmem with hmem | hmem
    · exact h.exchanged tokenHash hmem
    · exact ⟨row, hrow, (List.mem_singleton.mp hmem).symm, hrevoked⟩
  once := by
    refine List.nodup_append.mpr ⟨h.once, List.nodup_singleton _, fun a ha b hb he => hnew ?_⟩
    rwa [← List.mem_singleton.mp hb, ← he]

/-! ## Creating a token -/

theorem rows_of_create {s s' : State ι} {input : NewToken} {created : RefreshTokenRow}
    (h : s.create input = some (s', created)) :
    s' = { s with rows := s.rows ++ [created], nextTokenId := s.nextTokenId + 1 } ∧
      created.tokenId = s.nextTokenId ∧ created.tokenHash = input.tokenHash ∧
      created.familyId = input.familyId ∧ created.userId = input.userId ∧
      created.revokedAt = none ∧ ∀ row ∈ s.rows, row.tokenHash ≠ input.tokenHash := by
  unfold State.create at h
  split_ifs at h with hany
  cases h
  refine ⟨rfl, rfl, rfl, rfl, rfl, rfl, fun row hrow he => hany ?_⟩
  exact List.any_eq_true.mpr ⟨row, hrow, by simp [he]⟩

theorem create_setCall [DecidableEq ι] {s s' : State ι} {input : NewToken}
    {created : RefreshTokenRow} (h : s.create input = some (s', created)) (c : ι) (stage : Stage) :
    (s.setCall c stage).create input = some (s'.setCall c stage, created) := by
  unfold State.create at h ⊢
  split_ifs at h with hany
  cases h
  have hany' : ¬ ((s.setCall c stage).rows.any fun row =>
      row.tokenHash == input.tokenHash) = true := hany
  rw [if_neg hany']
  rfl

/-- A new token in a family whose live tokens are all waiting to be revoked. -/
theorem inv_create {s s' : State ι} (h : Inv s) {input : NewToken} {created : RefreshTokenRow}
    (hcreate : s.create input = some (s', created)) (hfamily : input.familyId < s.nextFamilyId)
    (hfounds : ∀ c, founds? (s.calls c) ≠ some input.familyId)
    (howner : ∀ row ∈ s.rows, row.familyId = input.familyId → row.userId = input.userId)
    (hpending : ∀ row ∈ s.rows, row.familyId = input.familyId → row.revokedAt = none →
      Pending s row.tokenId)
    (hended : input.familyId ∉ s.ended) : Inv s' := by
  obtain ⟨rfl, hid, hhash, hf, hu, hlive, hnew⟩ := rows_of_create hcreate
  have hcases : ∀ {row : RefreshTokenRow}, row ∈ s.rows ++ [created] →
      row ∈ s.rows ∨ row = created := fun hrow => by
    rcases List.mem_append.mp hrow with hrow | hrow
    · exact Or.inl hrow
    · exact Or.inr (List.mem_singleton.mp hrow)
  have hold : ∀ {row : RefreshTokenRow}, row ∈ s.rows → row ∈ s.rows ++ [created] :=
    fun hrow => List.mem_append_left _ hrow
  constructor
  · intro a ha b hb he
    rcases hcases ha with ha' | rfl <;> rcases hcases hb with hb' | rfl
    · exact h.ids a ha' b hb' he
    · have hlt := h.fresh a ha'
      omega
    · have hlt := h.fresh b hb'
      omega
    · rfl
  · intro row hrow
    dsimp only
    rcases hcases hrow with hrow | rfl
    · have hlt := h.fresh row hrow
      omega
    · omega
  · intro a ha b hb he
    rcases hcases ha with ha' | rfl <;> rcases hcases hb with hb' | rfl
    · exact h.hashes a ha' b hb' he
    · exact (hnew a ha' (he.trans hhash)).elim
    · exact (hnew b hb' (he.symm.trans hhash)).elim
    · rfl
  · intro row hrow
    rcases hcases hrow with hrow | rfl
    · exact h.families row hrow
    · exact hf ▸ hfamily
  · intro a ha b hb he
    rcases hcases ha with ha' | rfl <;> rcases hcases hb with hb' | rfl
    · exact h.owner a ha' b hb' he
    · exact (howner a ha' (he.trans hf)).trans hu.symm
    · exact hu.trans (howner b hb' (he.symm.trans hf)).symm
    · rfl
  · intro c familyId hc
    obtain ⟨hlt, hnone, hone⟩ := h.founds c familyId hc
    refine ⟨hlt, fun row hrow he => ?_, hone⟩
    rcases hcases hrow with hrow | rfl
    · exact hnone row hrow he
    · exact hfounds c (hc.trans (congrArg some (he.symm.trans hf)))
  · intro c row hc
    obtain ⟨held, hheld, hsame⟩ := h.stored c row hc
    exact ⟨held, hold hheld, hsame⟩
  · exact h.unexchanged
  · intro c row next input' hc
    obtain ⟨hfamily', huser', held, hheld, hsame⟩ := h.live c row next input' hc
    exact ⟨hfamily', huser', held, hold hheld, hsame⟩
  · exact h.alone
  · intro a ha b hb he hla hlb hpa hpb
    rcases hcases ha with ha' | rfl <;> rcases hcases hb with hb' | rfl
    · exact h.heads a ha' b hb' he hla hlb hpa hpb
    · exact (hpa (hpending a ha' (he.trans hf) hla)).elim
    · exact (hpb (hpending b hb' (he.symm.trans hf) hlb)).elim
    · rfl
  · intro tokenHash hmem
    obtain ⟨row, hrow, hsame⟩ := h.exchanged tokenHash hmem
    exact ⟨row, hold hrow, hsame⟩
  · exact h.once
  · intro familyId hmem
    obtain ⟨⟨row, hrow, hfam⟩, hdead⟩ := h.ended familyId hmem
    refine ⟨⟨row, hold hrow, hfam⟩, fun other hother he => ?_⟩
    rcases hcases hother with hother | rfl
    · exact hdead other hother he
    · exact (hended ((hf.symm.trans he).symm ▸ hmem)).elim

/-! ## The steps -/

theorem stored_of_mem {s : State ι} {row : RefreshTokenRow} (h : row ∈ s.rows) : Stored s row :=
  ⟨row, h, rfl, rfl, rfl, rfl⟩

theorem mem_of_find {s : State ι} {tokenHash : String} {row : RefreshTokenRow}
    (h : s.findByHash tokenHash = some row) : row ∈ s.rows :=
  List.mem_of_find?_eq_some h

theorem row?_of_rotated? {stage : Stage} {row : RefreshTokenRow} (h : rotated? stage = some row) :
    row? stage = some row := by
  cases stage with
  | creating r next input => exact h
  | linking r next created => exact h
  | _ => cases h

theorem rotated?_of_creating? {stage : Stage} {row : RefreshTokenRow}
    (h : creating? stage = some row) : rotated? stage = some row := by
  cases stage with
  | creating r next input => exact h
  | _ => cases h

/-- A row of the table that has the id of a stored row is that row. -/
theorem same_of_stored {s : State ι} (h : Inv s) {row held : RefreshTokenRow} (hrow : Stored s row)
    (hheld : held ∈ s.rows) (hid : held.tokenId = row.tokenId) :
    held.tokenHash = row.tokenHash ∧ held.familyId = row.familyId ∧ held.userId = row.userId := by
  obtain ⟨stored, hstored, hid', hsame⟩ := hrow
  have he : held = stored := h.ids held hheld stored hstored (hid.trans hid'.symm)
  exact he ▸ hsame

theorem same_of_creating {s : State ι} (h : Inv s) {c : ι} {row held : RefreshTokenRow}
    (hc : creating? (s.calls c) = some row) (hheld : held ∈ s.rows)
    (hid : held.tokenId = row.tokenId) :
    held.familyId = row.familyId ∧ held.userId = row.userId :=
  (same_of_stored h (h.stored c row (row?_of_rotated? (rotated?_of_creating? hc))) hheld hid).2

/-- A storage call of a family's revocation, after which the family is dead. -/
theorem inv_revokeFamily {s : State ι} (h : Inv s) {row : RefreshTokenRow}
    (hnone : NoneCreating s fun other => other.familyId = row.familyId) :
    Inv (s.revokeFamily row.familyId) ∧ Dead (s.revokeFamily row.familyId) row.familyId := by
  constructor
  · refine inv_revokeWhere h none fun c other hother held hheld hid => ?_
    have hsame := (same_of_creating h hother hheld hid).1
    exact beq_eq_false_iff_ne.mpr fun he => hnone c other hother (hsame.symm.trans he)
  · exact dead_revokeWhere none fun other _ hfamily _ => beq_iff_eq.mpr hfamily

theorem inv_revokeAllForUser {s : State ι} (h : Inv s) {userId : String}
    (hnone : NoneCreating s fun other => other.userId = userId) :
    Inv (s.revokeAllForUser userId) ∧
      ∀ familyId ∈ s.familiesOf userId, Dead (s.revokeAllForUser userId) familyId := by
  constructor
  · refine inv_revokeWhere h none fun c other hother held hheld hid => ?_
    have hsame := (same_of_creating h hother hheld hid).2
    exact beq_eq_false_iff_ne.mpr fun he => hnone c other hother (hsame.symm.trans he)
  · intro familyId hmem
    obtain ⟨owned, howned, rfl⟩ := List.mem_map.mp hmem
    obtain ⟨hrow, huser⟩ := List.mem_filter.mp howned
    refine dead_revokeWhere none fun other hother hfamily _ => beq_iff_eq.mpr ?_
    exact (h.owner other hother owned hrow hfamily).trans (beq_iff_eq.mp huser)

/-- The revocation of a logout, after which the family of its token is dead. -/
theorem inv_revokeToken {s : State ι} (h : Inv s) {row : RefreshTokenRow} (hrow : Stored s row)
    (hends : EndsFamily s row) :
    Inv (s.revokeToken row.tokenId none) ∧
      Dead (s.revokeToken row.tokenId none) row.familyId := by
  have hnone : ∀ c other, creating? (s.calls c) = some other → other.familyId ≠ row.familyId := by
    intro c other hother he
    rcases hends with hdead | ⟨-, hfree⟩
    · cases hs : s.calls c with
      | creating r next input =>
        rw [hs] at hother
        cases hother
        obtain ⟨-, -, held, hheld, hid, hlive⟩ := h.live c other next input hs
        have hother' : creating? (s.calls c) = some other := by rw [hs]; rfl
        have hfamily := (same_of_creating h hother' hheld hid).1
        exact hdead held hheld (hfamily.trans he) hlive
      | _ => rw [hs] at hother; cases hother
    · exact hfree c other (rotated?_of_creating? hother) he
  constructor
  · refine inv_revokeWhere h none fun c other hother held hheld hid => ?_
    have hfamily := (same_of_creating h hother hheld hid).1
    refine beq_eq_false_iff_ne.mpr fun he => hnone c other hother ?_
    exact hfamily.symm.trans (same_of_stored h hrow hheld he).2.1
  · refine dead_revokeWhere none fun other hother hfamily hlive => beq_iff_eq.mpr ?_
    rcases hends with hdead | ⟨⟨held, hheld, hid, hheldLive⟩, hfree⟩
    · exact (hdead other hother hfamily hlive).elim
    · have hpending : ∀ r ∈ s.rows, r.familyId = row.familyId → ¬ Pending s r.tokenId := by
        rintro r hr hf ⟨c, linked, hlinked, hid'⟩
        have hrotated : rotated? (s.calls c) = some linked := by
          cases hs : s.calls c with
          | linking r next created => rw [hs] at hlinked; exact hlinked
          | _ => rw [hs] at hlinked; cases hlinked
        have hsame := same_of_stored h (h.stored c linked (row?_of_rotated? hrotated)) hr hid'.symm
        exact hfree c linked hrotated (hsame.2.1.symm.trans hf)
      have hfamily' := (same_of_stored h hrow hheld hid).2.1
      have he : other = held := h.heads other hother held hheld (hfamily.trans hfamily'.symm) hlive
        hheldLive (hpending other hother hfamily) (hpending held hheld hfamily')
      rw [he, hid]

/-- A row of a family stays in the table when tokens are revoked. -/
theorem family_revokeWhere {s : State ι} {familyId : ℕ} (h : ∃ row ∈ s.rows, row.familyId = familyId)
    (selected : RefreshTokenRow → Bool) (replacedBy : Option ℕ) :
    ∃ row ∈ (s.revokeWhere selected replacedBy).rows, row.familyId = familyId := by
  obtain ⟨row, hrow, hf⟩ := h
  exact ⟨_, mem_revokeWhere.mpr ⟨row, hrow, rfl⟩, by simpa using hf⟩

/-- The family of a stored row is in the table. -/
theorem family_of_stored {s : State ι} {row : RefreshTokenRow} (h : Stored s row) :
    ∃ held ∈ s.rows, held.familyId = row.familyId := by
  obtain ⟨held, hheld, -, -, hf, -⟩ := h
  exact ⟨held, hheld, hf⟩

section Steps

variable [DecidableEq ι] {hash : String → String}

/-- `rotate` goes on with what it has found. -/
theorem inv_found {s : State ι} (h : Inv s) {c : ι} {presented minted : String}
    {userAgent : Option String} (hc : s.calls c = .rotating presented userAgent)
    (halone : ExecutesAlone hash s (s.calls c)) :
    Inv (s.setCall c (State.rotateFound hash s.clock minted userAgent
      (s.findByHash (hash presented)))) := by
  have hlinked : linked? (s.calls c) = none := by rw [hc]; rfl
  have hdone : ∀ row, linked? (s.calls c) = some row →
      ∀ held ∈ s.rows, held.tokenId = row.tokenId → held.revokedAt ≠ none := by
    intro row hrow
    rw [hlinked] at hrow
    cases hrow
  rw [hc] at halone
  cases hfind : s.findByHash (hash presented) with
  | none => exact inv_over h hlinked _
  | some row =>
    have hrow := mem_of_find hfind
    unfold State.rotateFound
    dsimp only
    by_cases hrevoked : row.revokedAt.isSome = true
    · rw [if_pos hrevoked]
      refine inv_setCall h ⟨?_, ?_, ?_, ?_, fun _ hf => nomatch hf⟩ hdone
      · rintro found hfound
        cases hfound
        exact stored_of_mem hrow
      · intro found hfound
        cases hfound
      · intro found next input hfound
        cases hfound
      · intro d found other hfound
        cases hfound
    · rw [if_neg hrevoked]
      have hlive : row.revokedAt = none := by simpa using hrevoked
      by_cases hexpired : row.expiresAt ≤ s.clock
      · rw [if_pos hexpired]
        exact inv_over h hlinked _
      · rw [if_neg hexpired]
        have hunrotated := halone row hfind hlive (Nat.lt_of_not_le hexpired)
        refine inv_setCall h ⟨?_, ?_, ?_, ?_, fun _ hf => nomatch hf⟩ hdone
        · intro found hfound
          cases hfound
          exact stored_of_mem hrow
        · intro found hfound hmem
          cases hfound
          obtain ⟨other, hother, hhash, hdead⟩ := h.exchanged _ hmem
          rw [h.hashes other hother row hrow hhash] at hdead
          exact hdead hlive
        · intro found next input hfound
          cases hfound
          exact ⟨rfl, rfl, row, hrow, rfl, hlive⟩
        · intro d found other hfound hother hid
          cases hfound
          exact (hunrotated d other hother hid.symm).elim

/-- `issue` founds a family with its token. -/
theorem inv_issued {s s' : State ι} (h : Inv s) {c : ι} {token : String} {input : NewToken}
    {created : RefreshTokenRow} (hc : s.calls c = .issuing token input)
    (hcreate : s.create input = some (s', created)) (outcome : Option Outcome) :
    Inv (s'.setCall c (.concluded outcome)) := by
  have hlinked : linked? (s.calls c) = none := by rw [hc]; rfl
  have hfounds : founds? (s.calls c) = some input.familyId := by rw [hc]; rfl
  obtain ⟨hlt, hnone, hone⟩ := h.founds c input.familyId hfounds
  refine inv_create (inv_over h hlinked outcome) (create_setCall hcreate c (.concluded outcome)) hlt
    (fun d hd => ?_) (fun row hrow hf => (hnone row hrow hf).elim)
    (fun row hrow hf => (hnone row hrow hf).elim) fun hended => ?_
  · by_cases hdc : d = c
    · subst hdc
      rw [setCall_self] at hd
      cases hd
    · rw [setCall_of_ne s hdc] at hd
      exact hdc (hone d hd)
  · obtain ⟨⟨row, hrow, hf⟩, -⟩ := h.ended _ hended
    exact hnone row hrow hf

/-- `rotate` creates the successor of a live token, which now waits to be revoked. -/
theorem inv_created {s s' : State ι} (h : Inv s) {c : ι} {row created : RefreshTokenRow}
    {next : String} {input : NewToken} (hc : s.calls c = .creating row next input)
    (hcreate : s.create input = some (s', created)) :
    Inv (s'.setCall c (.linking row next created)) := by
  have hlinked : linked? (s.calls c) = none := by rw [hc]; rfl
  have hrotated : rotated? (s.calls c) = some row := by rw [hc]; rfl
  have hrow : row? (s.calls c) = some row := by rw [hc]; rfl
  obtain ⟨hfamily, huser, held, hheld, hid, hlive⟩ := h.live c row next input hc
  have hsame := same_of_stored h (h.stored c row hrow) hheld hid
  have hmoved : Inv (s.setCall c (.linking row next created)) := by
    refine inv_setCall h ⟨?_, ?_, ?_, ?_, fun _ hf => nomatch hf⟩ fun other hother => ?_
    · intro found hfound
      cases hfound
      exact h.stored c row hrow
    · intro found hfound
      cases hfound
      exact h.unexchanged c row hrotated
    · intro found next' input' hfound
      cases hfound
    · intro d found other hfound hother he
      cases hfound
      exact (h.alone c d row other hrotated hother he).symm
    · rw [hlinked] at hother
      cases hother
  have hpendingHeld : Pending (s.setCall c (.linking row next created)) held.tokenId :=
    ⟨c, row, by rw [setCall_self]; rfl, hid.symm⟩
  refine inv_create hmoved (create_setCall hcreate c _) ?_ (fun d hd => ?_)
    (fun other hother hf => ?_) (fun other hother hf hotherLive => ?_) fun hended => ?_
  · rw [hfamily, ← hsame.2.1]
    exact h.families held hheld
  · obtain ⟨-, hnone, -⟩ := hmoved.founds d _ hd
    exact hnone held hheld (hsame.2.1.trans hfamily.symm)
  · have howner := h.owner other hother held hheld (hf.trans (hfamily.trans hsame.2.1.symm))
    exact howner.trans (hsame.2.2.trans huser.symm)
  · by_cases hp : Pending (s.setCall c (.linking row next created)) other.tokenId
    · exact hp
    · -- the held token was the only head of its family
      have hunlinked : ¬ Pending s held.tokenId := by
        rintro ⟨d, linked, hd, hid'⟩
        have hrotated' : rotated? (s.calls d) = some linked := by
          cases hs : s.calls d with
          | linking r next' created' => rw [hs] at hd; exact hd
          | _ => rw [hs] at hd; cases hd
        have hdc := h.alone d c linked row hrotated' hrotated (hid'.trans hid)
        rw [hdc, hlinked] at hd
        cases hd
      have hother' : ¬ Pending s other.tokenId := by
        rintro ⟨d, linked, hd, hid'⟩
        refine hp ⟨d, linked, ?_, hid'⟩
        have hdc : d ≠ c := fun he => by
          rw [he, hlinked] at hd
          cases hd
        rwa [setCall_of_ne s hdc]
      have he : other = held := h.heads other hother held hheld
        (hf.trans (hfamily.trans hsame.2.1.symm)) hotherLive hlive hother' hunlinked
      exact he ▸ hpendingHeld
  · obtain ⟨-, hdead⟩ := h.ended _ hended
    exact hdead held hheld (hsame.2.1.trans hfamily.symm) hlive

/-- `rotate` revokes the token it has replaced. -/
theorem inv_linked {s : State ι} (h : Inv s) {c : ι} {row created : RefreshTokenRow}
    {next : String} (hc : s.calls c = .linking row next created) (outcome : Option Outcome) :
    Inv ((s.revokeToken row.tokenId (some created.tokenId)).setCall c (.concluded outcome)) ∧
    Inv { (s.revokeToken row.tokenId (some created.tokenId)).setCall c (.concluded outcome) with
      exchanged := s.exchanged ++ [row.tokenHash] } := by
  have hrotated : rotated? (s.calls c) = some row := by rw [hc]; rfl
  have hrow : row? (s.calls c) = some row := by rw [hc]; rfl
  have hrevoked : Inv (s.revokeToken row.tokenId (some created.tokenId)) := by
    refine inv_revokeWhere h _ fun d other hother held hheld hid => ?_
    refine beq_eq_false_iff_ne.mpr fun he => ?_
    have hdc := h.alone d c other row (rotated?_of_creating? hother) hrotated (hid.symm.trans he)
    rw [hdc, hc] at hother
    cases hother
  have hdead : ∀ held ∈ (s.revokeToken row.tokenId (some created.tokenId)).rows,
      held.tokenId = row.tokenId → held.revokedAt ≠ none := by
    intro held hheld hid hlive
    obtain ⟨r, hr, rfl⟩ := mem_revokeWhere.mp hheld
    rw [revokeRow_live] at hlive
    rw [revokeRow_tokenId] at hid
    exact beq_eq_false_iff_ne.mp hlive.2 hid
  have hover : Inv ((s.revokeToken row.tokenId (some created.tokenId)).setCall c
      (.concluded outcome)) := by
    refine inv_setCall hrevoked (enters_over _ c outcome) fun other hother held hheld hid => ?_
    have hsame : other = row := by
      have hlinked : linked? (s.calls c) = some row := by rw [hc]; rfl
      exact Option.some.inj (hother.symm.trans hlinked)
    exact hdead held hheld (hid.trans (congrArg _ hsame))
  refine ⟨hover, ?_⟩
  obtain ⟨held, hheld, hid, hhash, -⟩ := hrevoked.stored c row hrow
  rw [← hhash]
  refine inv_exchanged hover hheld (hdead held hheld hid) ?_ fun d other hother hid' => ?_
  · rw [hhash]
    exact h.unexchanged c row hrotated
  · by_cases hdc : d = c
    · subst hdc
      rw [setCall_self] at hother
      cases hother
    · rw [setCall_of_ne _ hdc] at hother
      exact hdc (h.alone d c other row hother hrotated (hid'.trans hid))

/-- A call whose revocation has left a family dead ends. -/
theorem inv_revoked {s : State ι} (h : Inv s) {c : ι} (hc : linked? (s.calls c) = none)
    (outcome : Option Outcome) {families : List ℕ}
    (hfamilies : ∀ familyId ∈ families,
      (∃ row ∈ s.rows, row.familyId = familyId) ∧ Dead s familyId) :
    Inv { s.setCall c (.concluded outcome) with ended := s.ended ++ families } :=
  inv_ended (inv_over h hc outcome) hfamilies

/-- An answered storage call that disturbs no other call. -/
theorem inv_answer {s : State ι} (h : Inv s) {c : ι} (minted : String)
    (halone : ExecutesAlone hash s (s.calls c)) : Inv (s.answer hash c minted) := by
  have hstored : ∀ row, row? (s.calls c) = some row → Stored s row := h.stored c
  cases hc : s.calls c with
  | concluded outcome => simpa only [State.answer, hc] using h
  | issuing token input =>
    have hlinked : linked? (s.calls c) = none := by rw [hc]; rfl
    simp only [State.answer, hc]
    cases hcreate : s.create input with
    | none => exact inv_over h hlinked _
    | some created => exact inv_issued h hc hcreate _
  | rotating presented userAgent =>
    simp only [State.answer, hc]
    exact inv_found h hc halone
  | reused row =>
    have hlinked : linked? (s.calls c) = none := by rw [hc]; rfl
    simp only [State.answer, hc]
    rw [hc] at halone hstored
    obtain ⟨hinv, hdead⟩ := inv_revokeFamily h halone
    refine inv_revoked hinv hlinked _ fun familyId hmem => ?_
    rw [List.mem_singleton.mp hmem]
    exact ⟨family_revokeWhere (family_of_stored (hstored row rfl)) _ _, hdead⟩
  | creating row next input =>
    have hlinked : linked? (s.calls c) = none := by rw [hc]; rfl
    simp only [State.answer, hc]
    cases hcreate : s.create input with
    | none => exact inv_over h hlinked _
    | some created => exact inv_created h hc hcreate
  | linking row next created =>
    simp only [State.answer, hc]
    exact (inv_linked h hc _).2
  | loggingOut presented =>
    have hlinked : linked? (s.calls c) = none := by rw [hc]; rfl
    simp only [State.answer, hc]
    rw [hc] at halone
    cases hfind : s.findByHash (hash presented) with
    | none => exact inv_over h hlinked _
    | some row =>
      have hrow := mem_of_find hfind
      dsimp only
      by_cases hlive : row.revokedAt.isNone = true
      · rw [if_pos hlive]
        refine inv_setCall h ⟨?_, ?_, ?_, ?_, fun _ hf => nomatch hf⟩ fun other hother => ?_
        · intro found hfound
          cases hfound
          exact stored_of_mem hrow
        · intro found hfound
          cases hfound
        · intro found next input hfound
          cases hfound
        · intro d found other hfound
          cases hfound
        · rw [hlinked] at hother
          cases hother
      · rw [if_neg hlive]
        have hrevoked : row.revokedAt ≠ none := by simpa using hlive
        refine inv_revoked h hlinked _ fun familyId hmem => ?_
        rw [List.mem_singleton.mp hmem]
        exact ⟨⟨row, hrow, rfl⟩, halone row hfind hrevoked⟩
  | revoking row =>
    have hlinked : linked? (s.calls c) = none := by rw [hc]; rfl
    simp only [State.answer, hc]
    rw [hc] at halone hstored
    obtain ⟨hinv, hdead⟩ := inv_revokeToken h (hstored row rfl) halone
    refine inv_revoked hinv hlinked _ fun familyId hmem => ?_
    rw [List.mem_singleton.mp hmem]
    exact ⟨family_revokeWhere (family_of_stored (hstored row rfl)) _ _, hdead⟩
  | revokingAll userId =>
    have hlinked : linked? (s.calls c) = none := by rw [hc]; rfl
    simp only [State.answer, hc]
    rw [hc] at halone
    obtain ⟨hinv, hdead⟩ := inv_revokeAllForUser h halone
    refine inv_revoked hinv hlinked _ fun familyId hmem => ?_
    refine ⟨family_revokeWhere ?_ _ _, hdead familyId hmem⟩
    obtain ⟨row, hrow, hf⟩ := List.mem_map.mp hmem
    exact ⟨row, List.mem_of_mem_filter hrow, hf⟩

/-- A rejected storage call, unless it was to revoke a token or a family. -/
theorem inv_reject {s : State ι} (h : Inv s) {c : ι} (hlinked : linked? (s.calls c) = none)
    (hreused : ∀ row, s.calls c = .reused row →
      (∃ held ∈ s.rows, held.familyId = row.familyId) ∧ Dead s row.familyId) :
    Inv (s.reject c) := by
  cases hc : s.calls c with
  | concluded outcome => simpa only [State.reject, hc] using h
  | reused row =>
    simp only [State.reject, hc]
    refine inv_revoked h hlinked _ fun familyId hmem => ?_
    rw [List.mem_singleton.mp hmem]
    exact hreused row hc
  | _ =>
    simp only [State.reject, hc]
    exact inv_over h hlinked _

/-- A storage call that was executed and whose answer is lost. -/
theorem inv_lost {s : State ι} (h : Inv s) {c : ι} (hcreating : creating? (s.calls c) = none)
    (halone : ExecutesAlone hash s (s.calls c)) : Inv ((s.execute c).reject c) := by
  have hstored : ∀ row, row? (s.calls c) = some row → Stored s row := h.stored c
  cases hc : s.calls c with
  | issuing token input =>
    have hlinked : linked? (s.calls c) = none := by rw [hc]; rfl
    simp only [State.execute, hc]
    cases hcreate : s.create input with
    | none =>
      refine inv_reject h hlinked fun row hrow => ?_
      rw [hc] at hrow
      cases hrow
    | some created =>
      obtain ⟨s', row⟩ := created
      have hcalls : s'.calls c = .issuing token input := by
        rw [(rows_of_create hcreate).1]
        exact hc
      have hreject : s'.reject c = s'.setCall c (.concluded (some .storageError)) := by
        simp only [State.reject, hcalls]
      simp only [Option.map_some, Option.getD_some, hreject]
      exact inv_issued h hc hcreate _
  | creating row next input =>
    rw [hc] at hcreating
    cases hcreating
  | reused row =>
    rw [hc] at halone hstored
    obtain ⟨hinv, hdead⟩ := inv_revokeFamily h halone
    have hcalls : (s.revokeFamily row.familyId).calls c = .reused row := hc
    simp only [State.execute, hc]
    refine inv_reject hinv (by rw [hcalls]; rfl) fun other hother => ?_
    rw [hcalls] at hother
    cases hother
    exact ⟨family_revokeWhere (family_of_stored (hstored row rfl)) _ _, hdead⟩
  | linking row next created =>
    have hcalls : (s.revokeToken row.tokenId (some created.tokenId)).calls c =
        .linking row next created := hc
    simp only [State.execute, hc, State.reject, hcalls]
    exact (inv_linked h hc _).1
  | revoking row =>
    rw [hc] at halone hstored
    obtain ⟨hinv, -⟩ := inv_revokeToken h (hstored row rfl) halone
    have hcalls : (s.revokeToken row.tokenId none).calls c = .revoking row := hc
    simp only [State.execute, hc]
    refine inv_reject hinv (by rw [hcalls]; rfl) fun other hother => ?_
    rw [hcalls] at hother
    cases hother
  | revokingAll userId =>
    rw [hc] at halone
    obtain ⟨hinv, -⟩ := inv_revokeAllForUser h halone
    have hcalls : (s.revokeAllForUser userId).calls c = .revokingAll userId := hc
    simp only [State.execute, hc]
    refine inv_reject hinv (by rw [hcalls]; rfl) fun other hother => ?_
    rw [hcalls] at hother
    cases hother
  | _ =>
    have hlinked : linked? (s.calls c) = none := by rw [hc]; rfl
    simp only [State.execute, hc]
    refine inv_reject h hlinked fun row hrow => ?_
    rw [hc] at hrow
    cases hrow

/-- A call begins. -/
theorem inv_start {s : State ι} (h : Inv s) {c : ι} {outcome : Option Outcome}
    (hc : s.calls c = .concluded outcome) (minted : String) (request : Request) :
    Inv (s.start hash c minted request) := by
  have hlinked : linked? (s.calls c) = none := by rw [hc]; rfl
  have hdone : ∀ row, linked? (s.calls c) = some row →
      ∀ held ∈ s.rows, held.tokenId = row.tokenId → held.revokedAt ≠ none := by
    intro row hrow
    rw [hlinked] at hrow
    cases hrow
  have hquiet : ∀ stage, row? stage = none → founds? stage = none → Inv (s.setCall c stage) := by
    intro stage hrow hfounds
    refine inv_setCall h ⟨?_, ?_, ?_, ?_, ?_⟩ hdone
    · intro row hr
      rw [hrow] at hr
      cases hr
    · intro row hr
      rw [row?_of_rotated? hr] at hrow
      cases hrow
    · intro row next input hr
      rw [hr] at hrow
      cases hrow
    · intro d row other hr
      rw [row?_of_rotated? hr] at hrow
      cases hrow
    · intro familyId hf
      rw [hfounds] at hf
      cases hf
  cases request with
  | rotate presented userAgent =>
    by_cases hempty : presented = ""
    · simpa only [State.start, if_pos hempty] using inv_over h hlinked _
    · simpa only [State.start, if_neg hempty] using hquiet _ rfl rfl
  | revoke presented =>
    by_cases hempty : presented = ""
    · simpa only [State.start, if_pos hempty] using inv_over h hlinked _
    · simpa only [State.start, if_neg hempty] using hquiet _ rfl rfl
  | revokeAllForUser userId =>
    by_cases hempty : userId = ""
    · simpa only [State.start, if_pos hempty] using inv_over h hlinked _
    · simpa only [State.start, if_neg hempty] using hquiet _ rfl rfl
  | issue userId email userAgent actingProviderId =>
    have hnext : Inv { s with nextFamilyId := s.nextFamilyId + 1 } :=
      { h with
        families := fun row hrow => Nat.lt_succ_of_lt (h.families row hrow)
        founds := fun d familyId hd => by
          obtain ⟨hlt, hrest⟩ := h.founds d familyId hd
          exact ⟨Nat.lt_succ_of_lt hlt, hrest⟩ }
    refine inv_setCall hnext ⟨?_, ?_, ?_, ?_, ?_⟩ hdone
    · intro row hr
      cases hr
    · intro row hr
      cases hr
    · intro row next input hr
      cases hr
    · intro d row other hr
      cases hr
    · intro familyId hf
      cases hf
      refine ⟨Nat.lt_succ_self _, fun row hrow => ?_, fun d hd => ?_⟩
      · exact Nat.ne_of_lt (h.families row hrow)
      · exact (Nat.lt_irrefl _ (h.founds d _ hd).1).elim

/-- A step that disturbs no rotation keeps the invariant. -/
theorem inv_step (s : State ι) (a : TokenAction ι) (ha : Undisturbed hash s a) (h : Inv s) :
    Inv (step hash s a) := by
  cases a with
  | tick ms => exact { h with }
  | start c request minted =>
    unfold step
    dsimp only
    split
    · rename_i outcome hc
      exact inv_start h hc minted request
    · exact h
  | deliver c delivery minted =>
    cases delivery with
    | answered => exact inv_answer h minted ha
    | refused => exact inv_reject h ha.1 fun row hrow => (ha.2 row hrow).elim
    | lost => exact inv_lost h ha.1 ha.2

end Steps

/-! ## Every run -/

variable [DecidableEq ι]

/-- In every run of issues, rotations, logouts and revocations that disturb no rotation, a
family has one live token at rest, no token is exchanged twice, and a family that has
ended stays dead. -/
theorem families_safe (hash : String → String) (actions : List (TokenAction ι))
    (h : RunMeets (step hash) (Undisturbed hash) State.initial actions) :
    Safe (run (step hash) State.initial actions) :=
  (run_keeps inv_step h inv_initial).safe

/-- A token is issued and exchanged, and its successor logs out. -/
def oneSession : List (TokenAction ℕ) :=
  [.start 0 (.issue "user" "user@mail" none none) "t0", .deliver 0 .answered "",
    .start 1 (.rotate "t0" none) "", .deliver 1 .answered "t1", .deliver 1 .answered "",
    .deliver 1 .answered "", .start 2 (.revoke "t1") "", .deliver 2 .answered "",
    .deliver 2 .answered ""]

instance (s : State ℕ) (familyId : ℕ) : Decidable (Dead s familyId) :=
  inferInstanceAs (Decidable (∀ row ∈ s.rows, row.familyId = familyId → row.revokedAt ≠ none))

theorem families_safe_session : Safe (run (step id) State.initial oneSession) := by
  have hrotates : ∀ d, rotated? ((run (step id) State.initial (oneSession.take 3)).calls d) =
      none := by
    intro d
    match d with
    | 0 => rfl
    | 1 => rfl
    | n + 2 => rfl
  have hrotated : ∀ d, rotated? ((run (step id) State.initial (oneSession.take 8)).calls d) =
      none := by
    intro d
    match d with
    | 0 => rfl
    | 1 => rfl
    | 2 => rfl
    | n + 3 => rfl
  refine families_safe id oneSession ⟨trivial, trivial, trivial, ?_, trivial, trivial, trivial, ?_, ?_,
    trivial⟩
  · intro row _ _ _ d other hother
    exact nomatch (hrotates d).symm.trans hother
  · intro row hfind hrevoked
    cases hfind
    exact (hrevoked rfl).elim
  · refine Or.inr ⟨by decide, fun d other hother => ?_⟩
    exact nomatch (hrotated d).symm.trans hother

/-- Two calls rotate one token at the same time. -/
def twoRotations : List (TokenAction ℕ) :=
  [.start 0 (.issue "user" "user@mail" none none) "t0", .deliver 0 .answered "",
    .start 1 (.rotate "t0" none) "", .start 2 (.rotate "t0" none) "",
    .deliver 1 .answered "t1", .deliver 2 .answered "t2", .deliver 1 .answered "",
    .deliver 2 .answered "", .deliver 1 .answered "", .deliver 2 .answered ""]

/-- Both rotations succeed, and both new tokens are live. -/
theorem concurrent_rotations_unsafe :
    ¬ ∀ actions : List (TokenAction ℕ), Safe (run (step id) State.initial actions) := by
  intro h
  have honce := (h twoRotations).once
  revert honce
  decide

end FactoryServer.TokenFamilies
