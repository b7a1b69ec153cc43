import FactoryServer.InsertionMaps
import FactoryServer.SsoHandoff

/-!
# What a handoff reaches

Each token yields at most one session in every run. A session stays inside the reach of
the provisioner exactly as far as the provisioner was entitled to the token: neither the
call that generates it nor the login looks at what the provisioner manages.
-/

namespace FactoryServer.SsoReach

open GuardedRuns InsertionMaps JsonValue RequestIdentity SsoHandoff TournamentAccess

variable {s : State} {store : SsoStore} {payload : SsoTokenPayload}

/-! ## The provider a session acts for -/

/-- A named provider is the session's when the user may act for it. -/
theorem actingProvider_eq (payload : SsoTokenPayload) (ctx : UserContext) :
    actingProvider payload ctx =
      if ctx.isSuperAdmin = true ∨ payload.providerId ∈ ctx.providerIds ∨
        payload.providerId ∈ ctx.provisionerProviderIds then some payload.providerId else none := by
  have hnamed : nonEmpty (some payload.providerId) = some payload.providerId := by
    simp [nonEmpty, payload.named]
  unfold actingProvider resolveActingProviderId
  rw [hnamed]
  simp only [Bool.or_eq_true, List.contains_iff_mem, or_assoc]

/-- There is another provider id than a given one. -/
theorem exists_other (providerId : String) : ∃ other : String, other ≠ providerId := by
  refine ⟨providerId.push 'x', fun h => ?_⟩
  have hlength := congrArg String.length h
  rw [String.length_push] at hlength
  omega

/-- A session acts for the provider of its token only, exactly when its context is narrow. -/
theorem only_iff (payload : SsoTokenPayload) (row : UserRow) (ctx : UserContext) :
    (∀ providerId, actingProviderAllows
        (some (withSessionChoice (sessionClaims payload row ctx) ctx)) providerId = true →
          providerId = payload.providerId) ↔ Narrow payload.providerId ctx := by
  obtain ⟨other, hother⟩ := exists_other payload.providerId
  cases hsuper : ctx.isSuperAdmin with
  | true =>
    refine ⟨fun h => absurd (h other ?_) hother, fun h => absurd h.1 (by simp [hsuper])⟩
    simp [actingProviderAllows, withSessionChoice, hsuper]
  | false =>
    have hallows := @actingProviderAllows_iff
      (withSessionChoice (sessionClaims payload row ctx) ctx) hsuper
    have hacting : (withSessionChoice (sessionClaims payload row ctx) ctx).actingProviderId =
        nonEmpty (actingProvider payload ctx) := rfl
    have hpending : (withSessionChoice (sessionClaims payload row ctx) ctx).providerSelectionPending =
        ((actingProvider payload ctx).isNone && !ctx.isSuperAdmin &&
          decide (1 < ctx.providerIds.length)) := rfl
    have hprovider := actingProvider_eq payload ctx
    rw [hacting, hpending] at hallows
    by_cases hmember : payload.providerId ∈ ctx.providerIds ∨
        payload.providerId ∈ ctx.provisionerProviderIds
    · rw [if_pos (Or.inr hmember)] at hprovider
      have hnamed : nonEmpty (nonEmpty (some payload.providerId)) = some payload.providerId := by
        simp [nonEmpty, payload.named]
      rw [hprovider, hnamed] at hallows
      refine ⟨fun _ => ⟨hsuper, hmember.imp_right Or.inl⟩, fun _ providerId h => ?_⟩
      exact (((hallows providerId).mp h).2 payload.providerId rfl).symm
    · have hnone : actingProvider payload ctx = none := by
        rw [hprovider, if_neg]
        rintro (h | h)
        · rw [hsuper] at h
          cases h
        · exact hmember h
      rw [hnone, hsuper] at hallows
      by_cases hmany : 1 < ctx.providerIds.length
      · refine ⟨fun _ => ⟨hsuper, Or.inr (Or.inr hmany)⟩, fun _ providerId h => ?_⟩
        have hfree := ((hallows providerId).mp h).1
        simp [hmany] at hfree
      · refine ⟨fun h => absurd (h other ((hallows other).mpr ?_)) hother, fun h => ?_⟩
        · simp [hmany]
        · obtain hin | hin | hlength := h.2
          · exact absurd (Or.inl hin) hmember
          · exact absurd (Or.inr hin) hmember
          · exact absurd hlength hmany

/-! ## One read of a login -/

/-- A read takes no entitlement away. -/
theorem entitled_next {stage next : LoginStage} (h : Entitled store payload stage)
    (hnext : nextStage store payload stage = some next) : Entitled store payload next := by
  cases stage with
  | identifying =>
    obtain ⟨userId, hidentity, rfl⟩ := Option.map_eq_some_iff.mp hnext
    exact h userId hidentity
  | finding userId =>
    simp only [nextStage] at hnext
    cases hrows : store.userProviders userId with
    | nil =>
      rw [hrows] at hnext
      cases hnext
    | cons row rest =>
      rw [hrows] at hnext
      obtain ⟨email, hemail, rfl⟩ := Option.map_eq_some_iff.mp hnext
      exact ⟨h.1, h.2 email (nonEmpty_eq_some.mp hemail).1⟩
  | fetching userId email =>
    obtain ⟨row, hrow, rfl⟩ := Option.map_eq_some_iff.mp hnext
    exact ⟨h.1, h.2 row hrow⟩
  | building userId row =>
    cases hnext
    exact h.1
  | issuing userId row ctx => cases hnext

/-- The context a login has built is narrow. -/
def NarrowLogin (payload : SsoTokenPayload) : LoginStage → Prop
  | .issuing _ _ context => Narrow payload.providerId context
  | _ => True

theorem narrow_next {stage next : LoginStage} (h : Entitled store payload stage)
    (hnext : nextStage store payload stage = some next) : NarrowLogin payload next := by
  cases stage with
  | identifying =>
    obtain ⟨userId, -, rfl⟩ := Option.map_eq_some_iff.mp hnext
    trivial
  | finding userId =>
    simp only [nextStage] at hnext
    cases hrows : store.userProviders userId with
    | nil =>
      rw [hrows] at hnext
      cases hnext
    | cons row rest =>
      rw [hrows] at hnext
      obtain ⟨email, -, rfl⟩ := Option.map_eq_some_iff.mp hnext
      trivial
  | fetching userId email =>
    obtain ⟨row, -, rfl⟩ := Option.map_eq_some_iff.mp hnext
    trivial
  | building userId row =>
    cases hnext
    exact h.2
  | issuing userId row ctx => cases hnext

theorem token_issued {login : Login} {session : Session}
    (hissued : issuedSession store login = some session) : session.token = login.token := by
  obtain ⟨token, payload, stage⟩ := login
  cases stage with
  | issuing userId row context =>
    cases hissued
    rfl
  | _ => cases hissued

/-- The session of a login that is entitled to it stays within reach. -/
theorem withinReach_issued {login : Login} {session : Session}
    (hentitled : Entitled store login.payload login.stage)
    (hnarrow : NarrowLogin login.payload login.stage)
    (hissued : issuedSession store login = some session) :
    WithinReach session := by
  obtain ⟨token, payload, stage⟩ := login
  cases stage with
  | issuing userId row context =>
    cases hissued
    refine ⟨hentitled, (only_iff payload row context).mpr hnarrow, ?_⟩
    intro providerId hpinned
    have hpinned : (if actingProvider payload context = some payload.providerId then
        actingProvider payload context else none) = some providerId := hpinned
    split_ifs at hpinned with hacting
    exact Option.some.inj (hpinned.symm.trans hacting)
  | _ => cases hissued

/-! ## One session for a token -/

/-- The tokens in Redis, in logins and in sessions. -/
def tokensOf (s : State) : List ℕ :=
  s.tokens.map Prod.fst ++ s.logins.map Login.token ++ s.sessions.map Session.token

/-- No token is in two places, and those to come are new. -/
structure Single (s : State) : Prop where
  distinct : (tokensOf s).Nodup
  used : ∀ token ∈ tokensOf s, token < s.nextToken

theorem Single.mono (h : Single s) {s' : State} {same : List ℕ}
    (hperm : (tokensOf s').Perm same) (hsub : same.Sublist (tokensOf s))
    (hnext : s.nextToken ≤ s'.nextToken) : Single s' :=
  ⟨hperm.nodup_iff.mpr (h.distinct.sublist hsub), fun token hin =>
    Nat.lt_of_lt_of_le (h.used token (hsub.subset (hperm.mem_iff.mp hin))) hnext⟩

theorem Single.sublist (h : Single s) {s' : State} (hsub : (tokensOf s').Sublist (tokensOf s))
    (hnext : s.nextToken ≤ s'.nextToken) : Single s' :=
  h.mono (List.Perm.refl _) hsub hnext

/-- A generated token is new. -/
theorem Single.generated (h : Single s) (payload : SsoTokenPayload) :
    Single { s with
      tokens := s.tokens ++ [(s.nextToken, payload)], nextToken := s.nextToken + 1 } := by
  have hperm : (tokensOf { s with
      tokens := s.tokens ++ [(s.nextToken, payload)], nextToken := s.nextToken + 1 }).Perm
        (s.nextToken :: tokensOf s) := by
    simp only [tokensOf, List.map_append, List.map_singleton, List.append_assoc]
    exact List.perm_middle
  refine ⟨hperm.nodup_iff.mpr (List.nodup_cons.mpr ⟨fun hin => ?_, h.distinct⟩), ?_⟩
  · exact Nat.lt_irrefl _ (h.used s.nextToken hin)
  · intro token hin
    obtain rfl | hold := List.mem_cons.mp (hperm.mem_iff.mp hin)
    · exact Nat.lt_succ_self _
    · exact Nat.lt_succ_of_lt (h.used token hold)

/-- The tokens that are left without one of them. -/
theorem sublist_without (tokens : List (ℕ × SsoTokenPayload)) (token : ℕ) :
    ((tokens.filter fun entry => entry.1 ≠ token).map Prod.fst).Sublist (tokens.map Prod.fst) :=
  List.filter_sublist.map _

/-- Taking a token out leaves the others. -/
theorem perm_consumed {tokens : List (ℕ × SsoTokenPayload)} {entry : ℕ × SsoTokenPayload}
    (hdistinct : (tokens.map Prod.fst).Nodup) (hin : entry ∈ tokens) :
    (tokens.map Prod.fst).Perm
      (entry.1 :: (tokens.filter fun other => other.1 ≠ entry.1).map Prod.fst) := by
  have hmem : entry.1 ∈ tokens.map Prod.fst := List.mem_map_of_mem hin
  have herase := List.perm_cons_erase hmem
  rw [hdistinct.erase_eq_filter, List.filter_map] at herase
  have hsame : tokens.filter ((fun other => other != entry.1) ∘ Prod.fst) =
      tokens.filter fun other => other.1 ≠ entry.1 := by
    refine List.filter_congr fun other _ => ?_
    by_cases heq : other.1 = entry.1 <;> simp [heq]
  rwa [hsame] at herase

theorem single_login (h : Single s) (token : ℕ) : Single (loginWithToken s token) := by
  unfold loginWithToken
  cases hentry : s.tokens.find? fun entry => entry.1 = token with
  | none => exact h
  | some entry =>
    have hin := List.mem_of_find?_eq_some hentry
    have htoken : entry.1 = token := by simpa using List.find?_some hentry
    have hdistinct := (List.nodup_append.mp (List.nodup_append.mp h.distinct).1).1
    have hperm := perm_consumed hdistinct hin
    rw [htoken] at hperm
    refine h.mono ?_ (List.Sublist.refl _) (Nat.le_refl _)
    simp only [tokensOf, List.map_append, List.map_singleton]
    refine List.Perm.append_right _ ?_
    refine List.Perm.trans ?_ (hperm.symm.append_right _)
    rw [← List.append_assoc]
    exact List.perm_append_singleton _ _

theorem single_resume (h : Single s) (position : ℕ) : Single (resume s position) := by
  unfold resume
  cases hlogin : s.logins[position]? with
  | none => exact h
  | some login =>
    obtain ⟨hsplit, herase⟩ := split_at hlogin
    dsimp only
    cases hnext : nextStage s.store login.payload login.stage with
    | some stage =>
      have hsame : (s.logins.set position { login with stage := stage }).map Login.token =
          s.logins.map Login.token := by
        rw [set_at hlogin]
        conv_rhs => rw [hsplit]
        simp only [List.map_append, List.map_cons]
      refine h.sublist ?_ (Nat.le_refl _)
      simp only [tokensOf, hsame]
      exact List.Sublist.refl _
    | none =>
      cases hissued : issuedSession s.store login with
      | none =>
        refine h.sublist ?_ (Nat.le_refl _)
        simp only [tokensOf, Option.toList_none, List.append_nil]
        exact (((List.eraseIdx_sublist _ _).map _).append_left _).append_right _
      | some session =>
        have htoken := token_issued hissued
        refine h.mono ?_ (List.Sublist.refl _) (Nat.le_refl _)
        simp only [tokensOf, Option.toList_some, List.map_append, List.map_singleton, htoken]
        conv_rhs => rw [hsplit]
        rw [herase, List.map_append, List.map_append, List.map_cons]
        simp only [List.append_assoc, List.cons_append]
        refine List.Perm.append_left _ (List.Perm.append_left _ ?_)
        rw [← List.append_assoc]
        exact List.perm_append_singleton _ _

/-- A token yields one session whatever happens. -/
theorem single_step (h : Single s) (action : SsoAction) : Single (step s action) := by
  cases action with
  | generate provisionerId externalId ssoProvider providerId =>
    simp only [step, generate]
    split_ifs with hempty
    · exact h
    · cases s.store.ssoIdentity ssoProvider externalId with
      | none => exact h
      | some userId => exact h.generated _
  | expire token =>
    exact h.sublist (((sublist_without s.tokens token).append_right _).append_right _)
      (Nat.le_refl _)
  | login token => exact single_login h token
  | resume position => exact single_resume h position
  | abandon position =>
    exact h.sublist ((((List.eraseIdx_sublist _ _).map _).append_left _).append_right _)
      (Nat.le_refl _)
  | change store => exact h.sublist (List.Sublist.refl _) (Nat.le_refl _)

/-! ## Within reach -/

/-- Every token and every login is entitled to its session, and every session has been. -/
structure Kept (s : State) : Prop where
  single : Single s
  tokens : ∀ entry ∈ s.tokens, Entitled s.store entry.2 .identifying
  logins : ∀ login ∈ s.logins, Entitled s.store login.payload login.stage ∧
    NarrowLogin login.payload login.stage
  sessions : ∀ session ∈ s.sessions, WithinReach session

theorem kept_resume (h : Kept s) (position : ℕ) : Kept (resume s position) := by
  have hsingle := single_resume h.single position
  unfold resume at hsingle ⊢
  cases hlogin : s.logins[position]? with
  | none => exact h
  | some login =>
    obtain ⟨hentitled, hnarrow⟩ := h.logins login (List.mem_of_getElem? hlogin)
    rw [hlogin] at hsingle
    dsimp only at hsingle ⊢
    cases hnext : nextStage s.store login.payload login.stage with
    | some stage =>
      rw [hnext] at hsingle
      refine ⟨hsingle, h.tokens, fun other hin => ?_, h.sessions⟩
      obtain hold | rfl := List.mem_or_eq_of_mem_set hin
      · exact h.logins other hold
      · exact ⟨entitled_next hentitled hnext, narrow_next hentitled hnext⟩
    | none =>
      rw [hnext] at hsingle
      refine ⟨hsingle, h.tokens, fun other hin => h.logins other (List.mem_of_mem_eraseIdx hin),
        fun session hin => ?_⟩
      obtain hold | hnew := List.mem_append.mp hin
      · exact h.sessions session hold
      · exact withinReach_issued hentitled hnarrow (Option.mem_toList.mp hnew)

/-- A step that is entitled keeps every session within reach. -/
theorem kept_step (h : Kept s) {action : SsoAction} (hentitles : Entitles s action) :
    Kept (step s action) := by
  have hsingle := single_step h.single action
  cases action with
  | generate provisionerId externalId ssoProvider providerId =>
    simp only [step, generate] at hsingle ⊢
    split_ifs with hempty
    · exact h
    · rw [dif_neg hempty] at hsingle
      cases hidentity : s.store.ssoIdentity ssoProvider externalId with
      | none => exact h
      | some userId =>
        rw [hidentity] at hsingle
        refine ⟨hsingle, fun entry hin => ?_, h.logins, h.sessions⟩
        obtain hold | hnew := List.mem_append.mp hin
        · exact h.tokens entry hold
        · rw [List.mem_singleton.mp hnew]
          exact hentitles _
  | expire token =>
    exact ⟨hsingle, fun entry hin => h.tokens entry (List.mem_filter.mp hin).1, h.logins,
      h.sessions⟩
  | login token =>
    simp only [step, loginWithToken] at hsingle ⊢
    cases hentry : s.tokens.find? fun entry => entry.1 = token with
    | none => exact h
    | some entry =>
      rw [hentry] at hsingle
      refine ⟨hsingle, fun other hin => h.tokens other (List.mem_filter.mp hin).1,
        fun login hin => ?_, h.sessions⟩
      obtain hold | hnew := List.mem_append.mp hin
      · exact h.logins login hold
      · rw [List.mem_singleton.mp hnew]
        exact ⟨h.tokens entry (List.mem_of_find?_eq_some hentry), trivial⟩
  | resume position => exact kept_resume h position
  | abandon position =>
    exact ⟨hsingle, h.tokens, fun login hin => h.logins login (List.mem_of_mem_eraseIdx hin),
      h.sessions⟩
  | change store =>
    exact ⟨hsingle, hentitles.1, fun login hin =>
      ⟨hentitles.2 login hin, (h.logins login hin).2⟩, h.sessions⟩

theorem kept_opened (store : SsoStore) : Kept (opened store) :=
  ⟨⟨List.nodup_nil, fun _ hin => absurd hin List.not_mem_nil⟩,
    fun _ hin => absurd hin List.not_mem_nil, fun _ hin => absurd hin List.not_mem_nil,
    fun _ hin => absurd hin List.not_mem_nil⟩

/-- The provisioner that owns the provider. -/
def owned : List Association := [⟨"provisioner-1", "prov-a", .owner, none⟩]

end FactoryServer.SsoReach
